import Scaffold.Proofs.Go.Comments
import Scaffold.Proofs.Go.NormalBlock
import Scaffold.Proofs.Text.Occurrences

/-!
# Comments in an import block

A comment of an import section ends up behind the import that owns it, or in a row of its
own.  Of the lines that repeat an import the first one with a comment is written, so the
block shows the comments of that line, and those of the other ones are dropped.
-/

namespace Scaffold

namespace Text

/-! ## Trimming around what occurs -/

/-- The text begins and ends in characters that are not blank. -/
structure IsSolid (text : Text) : Prop where
  starts : ∃ character rest, text = character :: rest ∧ isBlank character = false
  ends : ∃ front character, text = front ++ [character] ∧ isBlank character = false

theorem trimEnd_isPrefix (text : Text) : trimEnd text <+: text := by
  rw [trimEnd, ← List.reverse_suffix, List.reverse_reverse]
  exact List.dropWhile_suffix isBlank

theorem trimStart_append_cons {character : Char} (solid : isBlank character = false)
    (front rest : Text) :
    trimStart (front ++ character :: rest) = trimStart front ++ character :: rest := by
  induction front with
  | nil => exact List.dropWhile_cons_of_neg (by simp [solid])
  | cons first others induction =>
      rw [trimStart, trimStart, List.cons_append, List.dropWhile_cons, List.dropWhile_cons]
      split
      · exact induction
      · rfl

theorem exists_of_trimEnd_ne_nil {text : Text} (something : trimEnd text ≠ []) :
    ∃ front character, trimEnd text = front ++ [character] ∧ isBlank character = false := by
  obtain ⟨front, character, whole⟩ := (List.eq_nil_or_concat (trimEnd text)).resolve_left something
  refine ⟨front, character, by simpa using whole, ?_⟩
  have turned : text.reverse.dropWhile isBlank = character :: front.reverse := by
    have back := congrArg List.reverse whole
    simpa [trimEnd] using back
  have stops := List.head?_dropWhile_not isBlank text.reverse
  rw [turned] at stops
  simpa using stops

namespace Follows

variable {texts : List Text} {text : Text}

theorem trimStart (follows : Follows texts text) (solid : ∀ part ∈ texts, IsSolid part) :
    Follows texts (Text.trimStart text) := by
  cases follows with
  | nil => exact .nil _
  | @cons first rest front behind later =>
      obtain ⟨character, more, rfl, notBlank⟩ := (solid first List.mem_cons_self).starts
      rw [List.append_assoc, List.cons_append, trimStart_append_cons notBlank, ← List.cons_append,
        ← List.append_assoc]
      exact .cons (Text.trimStart front) later

theorem trimEnd (follows : Follows texts text) (solid : ∀ part ∈ texts, IsSolid part) :
    Follows texts (Text.trimEnd text) := by
  induction follows with
  | nil => exact .nil _
  | @cons first rest front behind _ induction =>
      obtain ⟨first, others⟩ := List.forall_mem_cons.mp solid
      obtain ⟨more, character, rfl, notBlank⟩ := first.ends
      have parts : front ++ (more ++ [character]) ++ behind =
          (front ++ more) ++ character :: behind := by simp
      have whole : (front ++ more) ++ character :: Text.trimEnd behind =
          front ++ (more ++ [character]) ++ Text.trimEnd behind := by simp
      rw [parts, trimEnd_append_cons notBlank, whole]
      exact .cons front (induction others)

end Follows

theorem Occur.trim {texts : List Text} {text : Text} (occur : Occur texts text)
    (solid : ∀ part ∈ texts, IsSolid part) : Occur texts (Text.trim text) := by
  obtain ⟨order, same, follows⟩ := occur
  have all : ∀ part ∈ order, IsSolid part := fun part member => solid part (same.mem_iff.mp member)
  exact ⟨order, same, (follows.trimStart all).trimEnd all⟩

end Text

open Text (Occur IsSolid)

namespace Go

/-- A comment without the blanks at its end. -/
def remark (comment : Nat × Text) : Text :=
  Text.trimEnd comment.2

namespace SourceFile

theorem isSolid_remark {comment : Nat × Text} (isComment : IsComment comment.2) :
    IsSolid (remark comment) := by
  have slash : Text.isBlank '/' = false := by decide
  have starts : comment.2.head? = some '/' := by
    rcases isComment with closed | ⟨rest, same, _⟩
    · exact closed.starts
    · rw [same]
      rfl
  obtain ⟨rest, same⟩ := List.head?_eq_some_iff.mp starts
  have whole : remark comment = '/' :: Text.trimEnd rest := by
    rw [remark, same]
    exact Text.trimEnd_append_cons slash [] rest
  refine ⟨⟨'/', _, whole, slash⟩, Text.exists_of_trimEnd_ne_nil ?_⟩
  exact ne_of_eq_of_ne whole (List.cons_ne_nil _ _)

/-! ## Comments behind imports -/

section Attached

variable {file : SourceFile} {ends : List SpecEnd} {comments : List (Nat × Text)}

/-- The import behind which a comment is put. -/
def ownerOf (file : SourceFile) (ends : List SpecEnd) (comment : Nat × Text) : Option Nat :=
  owner? ends (file.lineOf comment.1) comment.1

/-- The comments that are put behind an import, or behind none. -/
def ownedBy (file : SourceFile) (ends : List SpecEnd) (owner : Option Nat)
    (comments : List (Nat × Text)) : List (Nat × Text) :=
  comments.filter fun comment => file.ownerOf ends comment == owner

theorem ownedBy_cons (owner : Option Nat) (comment : Nat × Text) (rest : List (Nat × Text)) :
    file.ownedBy ends owner (comment :: rest) =
      if file.ownerOf ends comment = owner then comment :: file.ownedBy ends owner rest
      else file.ownedBy ends owner rest := by
  rw [ownedBy, List.filter_cons]
  simp only [beq_iff_eq]
  rfl

theorem mem_ownedBy {owner : Option Nat} {comment : Nat × Text} :
    comment ∈ file.ownedBy ends owner comments ↔
      comment ∈ comments ∧ file.ownerOf ends comment = owner := by
  rw [ownedBy, List.mem_filter, beq_iff_eq]

/-- Puts comments behind an import one after the other. -/
def attachAll (comments : List (Nat × Text)) (line : ImportLine) : ImportLine :=
  comments.foldl (fun line comment => attach comment.2 line) line

theorem spec_attachAll (comments : List (Nat × Text)) :
    ∀ line, (attachAll comments line).spec = line.spec := by
  induction comments with
  | nil => exact fun _ => rfl
  | cons comment rest induction => exact fun line => induction (attach comment.2 line)

theorem getElem?_attachComments (file : SourceFile) (ends : List SpecEnd)
    (comments : List (Nat × Text)) (index : Nat) :
    ∀ lines : List ImportLine, (file.attachComments ends comments lines).1[index]? =
      lines[index]?.map (attachAll (file.ownedBy ends (some index) comments)) := by
  induction comments with
  | nil =>
      intro lines
      exact Option.map_id_fun'.symm ▸ rfl
  | cons comment rest induction =>
      intro lines
      rw [attachComments, ownedBy_cons, ownerOf]
      split
      · rename_i place owned
        rw [owned, induction, List.getElem?_modify]
        cases lines[index]? with
        | none => rfl
        | some line =>
            by_cases same : place = index
            · simp [same, attachAll]
            · simp [same]
      · rename_i alone
        rw [alone, if_neg (Option.some_ne_none index).symm]
        exact induction lines

theorem alone_attachComments (file : SourceFile) (ends : List SpecEnd)
    (comments : List (Nat × Text)) :
    ∀ lines, (file.attachComments ends comments lines).2 =
      (file.ownedBy ends none comments).map Prod.snd := by
  induction comments with
  | nil => exact fun _ => rfl
  | cons comment rest induction =>
      intro lines
      rw [attachComments, ownedBy_cons, ownerOf]
      split
      · rename_i place owned
        rw [owned, if_neg (Option.some_ne_none place)]
        exact induction _
      · rename_i alone
        rw [alone, if_pos rfl, List.map_cons, ← induction lines]

/-- Comments that are put behind an import occur there. -/
theorem occur_attachAll (solid : ∀ comment ∈ comments, IsSolid (remark comment)) :
    ∀ {known : List Text} {line : ImportLine}, Occur known line.comment →
      (∀ text ∈ known, IsSolid text) →
        Occur (known ++ comments.map remark) (attachAll comments line).comment := by
  induction comments with
  | nil =>
      intro known line occur _
      rwa [List.map_nil, List.append_nil]
  | cons comment rest induction =>
      intro known line occur old
      obtain ⟨first, later⟩ := List.forall_mem_cons.mp solid
      have both : ∀ text ∈ known ++ [remark comment], IsSolid text := by
        intro text member
        rcases List.mem_append.mp member with known | new
        · exact old text known
        · exact List.mem_singleton.mp new ▸ first
      have behind : Occur [remark comment] comment.2 :=
        (Occur.singleton comment.2).map_of_isPrefix Text.trimEnd_isPrefix
      have now : Occur (known ++ [remark comment]) (attach comment.2 line).comment :=
        ((occur.append_right [' ']).append behind).trim both
      rw [List.map_cons, List.append_cons]
      exact induction later now both

theorem comment_attachAll_ne_nil {comment : Nat × Text} {line : ImportLine}
    (solid : ∀ comment ∈ comments, IsSolid (remark comment)) (member : comment ∈ comments) :
    (attachAll comments line).comment ≠ [] := by
  intro nothing
  have occur := occur_attachAll solid (Occur.nil line.comment) fun _ none =>
    absurd none List.not_mem_nil
  rw [nothing, List.nil_append] at occur
  have within := occur.of_mem _ (List.mem_map_of_mem member)
  obtain ⟨character, rest, same, _⟩ := (solid comment member).starts
  rw [same, List.infix_nil] at within
  exact List.cons_ne_nil _ _ within

end Attached

end SourceFile

end Go

/-! ## Lines that repeat an import -/

namespace ImportBlock

variable {module : Text} {lines kept : List ImportLine} {line new : ImportLine} {spec : Import}

/-- The comment of the first line with an import and a comment. -/
def noteOf (lines : List ImportLine) (spec : Import) : Text :=
  ((lines.find? fun line => line.spec == spec && !line.comment.isEmpty).map
    ImportLine.comment).getD []

theorem noteOf_cons :
    noteOf (line :: lines) spec =
      if line.spec = spec ∧ line.comment ≠ [] then line.comment else noteOf lines spec := by
  rw [noteOf, List.find?_cons]
  by_cases here : line.spec = spec ∧ line.comment ≠ []
  · have taken : (line.spec == spec && !line.comment.isEmpty) = true := by simpa using here
    rw [if_pos here, taken]
    rfl
  · have passed : (line.spec == spec && !line.comment.isEmpty) = false := by simpa using here
    rw [if_neg here, passed]
    rfl

theorem noteOf_of_not_mem (absent : spec ∉ lines.map ImportLine.spec) : noteOf lines spec = [] := by
  induction lines with
  | nil => rfl
  | cons line rest induction =>
      rw [List.map_cons, List.mem_cons, not_or] at absent
      rw [noteOf_cons, if_neg fun here => absent.1 here.1.symm, induction absent.2]

theorem noteOf_append (lines others : List ImportLine) (spec : Import) :
    noteOf (lines ++ others) spec =
      if noteOf lines spec = [] then noteOf others spec else noteOf lines spec := by
  induction lines with
  | nil => rfl
  | cons line rest induction =>
      rw [List.cons_append, noteOf_cons, noteOf_cons]
      split
      · rename_i here
        rw [if_neg here.2]
      · exact induction

theorem noteOf_add (distinct : (kept.map ImportLine.spec).Nodup) :
    noteOf (add new kept) spec = noteOf (kept ++ [new]) spec := by
  induction kept with
  | nil => rfl
  | cons present rest induction =>
      obtain ⟨absent, later⟩ := List.nodup_cons.mp distinct
      rw [add]
      split
      · rename_i same
        rw [List.cons_append, noteOf_cons, noteOf_cons, noteOf_append]
        by_cases about : new.spec = spec
        · have none : noteOf rest spec = [] := noteOf_of_not_mem (about ▸ same ▸ absent)
          cases old : present.comment <;> cases note : new.comment <;>
            simp [noteOf_cons, noteOf_of_not_mem, none, same, about, old, note]
        · have other : present.spec ≠ spec := same ▸ about
          have kept : (if present.comment.isEmpty && !new.comment.isEmpty then new
              else present).spec ≠ spec := by
            split
            · exact about
            · exact other
          have alone : noteOf [new] spec = [] := by simp [noteOf_cons, about, noteOf_of_not_mem]
          rw [if_neg fun here => kept here.1, if_neg fun here => other here.1, alone]
          split
          · assumption
          · rfl
      · rw [List.cons_append, noteOf_cons, noteOf_cons, induction later]

theorem noteOf_unique (lines : List ImportLine) (spec : Import) :
    noteOf (unique lines) spec = noteOf lines spec := by
  induction lines using List.reverseRecOn with
  | nil => rfl
  | append_singleton rest line induction =>
      rw [unique_append_singleton, noteOf_add (nodup_map_spec_unique rest), noteOf_append,
        noteOf_append, induction]

theorem noteOf_of_mem (distinct : (kept.map ImportLine.spec).Nodup) (member : line ∈ kept) :
    noteOf kept line.spec = line.comment := by
  induction kept with
  | nil => exact absurd member List.not_mem_nil
  | cons first rest induction =>
      obtain ⟨absent, later⟩ := List.nodup_cons.mp distinct
      rw [noteOf_cons]
      rcases List.mem_cons.mp member with rfl | inside
      · split
        · rfl
        · rename_i bare
          rw [noteOf_of_not_mem absent]
          simpa using bare
      · have different : first.spec ≠ line.spec := fun same =>
          absent (same ▸ List.mem_map_of_mem inside)
        rw [if_neg fun here => different here.1, induction later inside]

theorem comment_of_mem_unique (member : line ∈ unique lines) :
    line.comment = noteOf lines line.spec := by
  rw [← noteOf_unique, noteOf_of_mem (nodup_map_spec_unique lines) member]

/-! ## Blocks -/

variable {notes : Import → List Text} {comments : List Text}

theorem occur_line (occur : Occur (notes line.spec) line.comment) :
    Occur (notes line.spec) line.render := by
  rw [ImportLine.render]
  refine Occur.append_left ?_ _
  split
  · rename_i bare
    rwa [List.isEmpty_iff.mp bare] at occur
  · exact occur.append_left [' ']

theorem forall₂_occur_render {group : List ImportLine}
    (each : ∀ line ∈ group, Occur (notes line.spec) line.comment) :
    List.Forall₂ Occur (group.map fun line => notes line.spec) (group.map ImportLine.render) := by
  rw [List.forall₂_map_left_iff, List.forall₂_map_right_iff, List.forall₂_same]
  exact fun line member => occur_line (each line member)

theorem exists_occur_groupLines (groups : List (List ImportLine))
    (each : ∀ line ∈ groups.flatten, Occur (notes line.spec) line.comment) :
    ∃ found : List (List Text), List.Forall₂ Occur found (groupLines groups) ∧
      found.flatten = groups.flatten.flatMap fun line => notes line.spec := by
  induction groups with
  | nil => exact ⟨[], .nil, rfl⟩
  | cons first rest induction =>
      rw [List.flatten_cons, List.forall_mem_append] at each
      have now := forall₂_occur_render each.1
      cases rest with
      | nil =>
          refine ⟨_, now, ?_⟩
          rw [List.flatten_cons, List.flatten_nil, List.append_nil, List.flatMap_def]
      | cons next others =>
          obtain ⟨found, later, whole⟩ := induction each.2
          refine ⟨(first.map fun line => notes line.spec) ++ [] :: found, ?_, ?_⟩
          · exact List.rel_append now (.cons (Occur.nil []) later)
          · rw [List.flatten_append, List.flatten_cons, List.nil_append, whole,
              ← List.flatMap_def, ← List.flatMap_append, ← List.flatten_cons]

/-- The block shows the comments that stand alone and those of the kept lines. -/
theorem occur_render (notes : Import → List Text)
    (each : ∀ line ∈ unique lines, Occur (notes line.spec) line.comment) :
    Occur (comments.map Text.trimEnd ++ (unique lines).flatMap fun line => notes line.spec)
      (render module comments lines) := by
  have perm := flatten_groups_perm module (unique lines)
  obtain ⟨found, rows, whole⟩ := exists_occur_groupLines (groups module (unique lines))
    fun line member => each line (perm.mem_iff.mp member)
  have alone : List.Forall₂ Occur (comments.map fun comment => [Text.trimEnd comment])
      (comments.map (['\t'] ++ ·)) := by
    rw [List.forall₂_map_left_iff, List.forall₂_map_right_iff, List.forall₂_same]
    intro comment _
    exact ((Occur.singleton comment).map_of_isPrefix Text.trimEnd_isPrefix).append_left ['\t']
  have rowsOfComments : (comments.map fun comment => [Text.trimEnd comment]).flatten =
      comments.map Text.trimEnd := by
    rw [← List.flatMap_def, ← List.map_eq_flatMap]
  have joined : Occur
      ((comments.map fun comment => [Text.trimEnd comment]) ++ found).flatten
      (Text.join ['\n'] (comments.map (['\t'] ++ ·) ++
        groupLines (groups module (unique lines)))) :=
    Occur.join ['\n'] (List.rel_append alone rows)
  rw [List.flatten_append, whole, rowsOfComments] at joined
  have sorted := joined.of_perm (List.Perm.append_left (comments.map Text.trimEnd)
    (perm.flatMap_right fun line => notes line.spec).symm)
  exact (sorted.append_left _).append_right _

end ImportBlock

end Scaffold
