import Mathlib.Data.Bool.AllAny
import Scaffold.Contract.Signature
import Scaffold.Proofs.Go.Comments
import Scaffold.Proofs.Text.Blank

/-!
# Entries of a parameter list

A list is cut at the commas outside of all brackets.  Texts with commas and
spaces between them are its entries exactly if these are the commas at which it
is cut.  The entries are taken for types if none of them has more than one word
without beginning like a type.
-/

namespace Scaffold

namespace Signature

open Text (isBlank trim trimStart trimEnd)

/-! ## Commas outside of brackets -/

/-- How far a text changes the depth of nesting. -/
def depth : Text → Int
  | [] => 0
  | character :: rest => depthChange character + depth rest

@[simp] theorem depth_nil : depth [] = 0 := rfl

@[simp] theorem depth_cons (character : Char) (rest : Text) :
    depth (character :: rest) = depthChange character + depth rest := rfl

@[simp] theorem depth_append (left right : Text) :
    depth (left ++ right) = depth left + depth right := by
  induction left with
  | nil => rw [List.nil_append, depth_nil, Int.zero_add]
  | cons character left induction =>
      rw [List.cons_append, depth_cons, depth_cons, induction, Int.add_assoc]

/-- Entered at a depth the text has no comma outside of all brackets. -/
def IsQuiet (start : Int) (text : Text) : Prop :=
  ∀ left right, text = left ++ ',' :: right → start + depth left ≠ 0

variable {start : Int} {current text front rest : Text}

theorem isQuiet_cons {character : Char} :
    IsQuiet start (character :: rest) ↔
      (character = ',' → start ≠ 0) ∧ IsQuiet (start + depthChange character) rest := by
  constructor
  · intro quiet
    refine ⟨?_, fun left right split => ?_⟩
    · rintro rfl
      simpa using quiet [] rest rfl
    · have inside := quiet (character :: left) right (by rw [split]; rfl)
      rwa [depth_cons, ← Int.add_assoc] at inside
  · rintro ⟨here, later⟩ left right split
    cases left with
    | nil =>
        obtain ⟨rfl, rfl⟩ := List.cons.inj split
        simpa using here rfl
    | cons first left =>
        obtain ⟨rfl, others⟩ := List.cons.inj split
        rw [depth_cons, ← Int.add_assoc]
        exact later left right others

theorem splitFrom_cons {character : Char} (quiet : character = ',' → start ≠ 0) :
    splitFrom [','] start current (character :: rest) =
      splitFrom [','] (start + depthChange character) (character :: current) rest := by
  rw [splitFrom, if_neg]
  rintro ⟨comma, none⟩
  obtain ⟨rfl, -⟩ := List.cons.inj comma
  have flat : depthChange ',' = 0 := by decide
  rw [flat, Int.add_zero] at none
  exact quiet rfl none

theorem splitFrom_of_isQuiet (quiet : IsQuiet start text) :
    splitFrom [','] start current text = [current.reverse ++ text] := by
  induction text generalizing start current with
  | nil => rw [splitFrom, List.append_nil]
  | cons character rest induction =>
      obtain ⟨here, later⟩ := isQuiet_cons.mp quiet
      rw [splitFrom_cons here, induction later]
      simp

theorem splitFrom_append_comma (quiet : IsQuiet start front) (outside : start + depth front = 0) :
    splitFrom [','] start current (front ++ ',' :: rest) =
      (current.reverse ++ front) :: splitTopLevel [','] rest := by
  induction front generalizing start current with
  | nil =>
      rw [depth_nil, Int.add_zero] at outside
      subst outside
      rw [List.nil_append, splitFrom, if_pos ⟨rfl, by decide⟩, List.append_nil]
      rfl
  | cons character front induction =>
      obtain ⟨here, later⟩ := isQuiet_cons.mp quiet
      rw [depth_cons, ← Int.add_assoc] at outside
      rw [List.cons_append, splitFrom_cons here, induction later outside]
      simp

theorem isQuiet_or_exists (start : Int) (text : Text) :
    IsQuiet start text ∨ ∃ front rest, text = front ++ ',' :: rest ∧ IsQuiet start front ∧
      start + depth front = 0 := by
  induction text generalizing start with
  | nil => exact .inl (by simp [IsQuiet])
  | cons character text induction =>
      by_cases comma : character = ',' ∧ start = 0
      · obtain ⟨rfl, rfl⟩ := comma
        exact .inr ⟨[], text, rfl, by simp [IsQuiet], by simp⟩
      · have here : character = ',' → start ≠ 0 := fun same none => comma ⟨same, none⟩
        rcases induction (start + depthChange character) with
          quiet | ⟨front, rest, rfl, quiet, outside⟩
        · exact .inl (isQuiet_cons.mpr ⟨here, quiet⟩)
        · refine .inr ⟨character :: front, rest, rfl, isQuiet_cons.mpr ⟨here, quiet⟩, ?_⟩
          rw [depth_cons, ← Int.add_assoc]
          exact outside

/-! ## The entries of a list -/

/-- What a single piece gives: itself without blanks around it, unless nothing is
left. -/
def entry (piece : Text) : List Text :=
  [trim piece].filter fun segment => !segment.isEmpty

theorem segments_of_isQuiet (quiet : IsQuiet 0 text) : segments text = entry text := by
  rw [segments, splitTopLevel, splitFrom_of_isQuiet quiet]
  rfl

theorem segments_append_comma (quiet : IsQuiet 0 front) (outside : depth front = 0) :
    segments (front ++ ',' :: rest) = entry front ++ segments rest := by
  rw [segments, splitTopLevel, splitFrom_append_comma quiet (by rw [Int.zero_add, outside]),
    List.map_cons, ← List.singleton_append, List.filter_append]
  rfl

/-- An entry of a list: neither its first nor its last character is blank, and it
does not begin with a comma. -/
structure IsEntry (text : Text) : Prop where
  begins : ∃ first others, text = first :: others ∧ isBlank first = false ∧ first ≠ ','
  ends : ∃ front last, text = front ++ [last] ∧ isBlank last = false

variable {lead : Text}

theorem IsEntry.trim_append (proper : IsEntry text)
    (blank : ∀ character ∈ lead, isBlank character = true) : trim (lead ++ text) = text := by
  obtain ⟨first, others, split, solid, -⟩ := proper.begins
  obtain ⟨front, last, ending, closed⟩ := proper.ends
  rw [trim, split, Text.trimStart_append_of_blank blank solid, ← split]
  exact Text.trimEnd_of_getLast? closed (by rw [ending, List.getLast?_concat])

theorem IsEntry.entry_append (proper : IsEntry text)
    (blank : ∀ character ∈ lead, isBlank character = true) : entry (lead ++ text) = [text] := by
  obtain ⟨first, others, split, -⟩ := proper.begins
  rw [entry, proper.trim_append blank, split]
  rfl

/-- Commas outside of all brackets stand between the texts only. -/
def StayApart (texts : List Text) : Prop :=
  (∀ text ∈ texts, IsQuiet 0 text) ∧ ∀ text ∈ texts.dropLast, depth text = 0

theorem stayApart_cons_cons {next : Text} {others : List Text} :
    StayApart (text :: next :: others) ↔
      IsQuiet 0 text ∧ depth text = 0 ∧ StayApart (next :: others) := by
  simp only [StayApart, List.forall_mem_cons, List.dropLast_cons_cons]
  tauto

theorem flat_of_accepts {accepts : Char → Bool}
    (foreign : ∀ mark ∈ ['(', '[', '\x7b', ')', ']', '\x7d', ','], accepts mark = false)
    {character : Char} (accepted : accepts character = true) :
    depthChange character = 0 ∧ character ≠ ',' := by
  have other : ∀ mark ∈ ['(', '[', '\x7b', ')', ']', '\x7d', ','], character ≠ mark := by
    intro mark member same
    rw [same, foreign mark member] at accepted
    exact Bool.noConfusion accepted
  simp only [List.forall_mem_cons] at other
  simp [depthChange, other]

theorem flat_of_isBlank {character : Char} (blank : isBlank character = true) :
    depthChange character = 0 ∧ character ≠ ',' :=
  flat_of_accepts (List.all_iff_forall_prop.mp (by decide)) blank

theorem flat_of_isWord {character : Char} (word : Text.isWord character = true) :
    depthChange character = 0 ∧ character ≠ ',' :=
  flat_of_accepts (List.all_iff_forall_prop.mp (by decide)) word

theorem isQuiet_append_of_flat
    (flat : ∀ character ∈ lead, depthChange character = 0 ∧ character ≠ ',') :
    IsQuiet start (lead ++ text) ↔ IsQuiet start text := by
  induction lead with
  | nil => rfl
  | cons character lead induction =>
      obtain ⟨⟨level, noComma⟩, later⟩ := List.forall_mem_cons.mp flat
      rw [List.cons_append, isQuiet_cons, level, Int.add_zero, induction later]
      exact ⟨And.right, fun quiet => ⟨fun comma => absurd comma noComma, quiet⟩⟩

theorem isQuiet_append_of_isBlank (blank : ∀ character ∈ lead, isBlank character = true) :
    IsQuiet start (lead ++ text) ↔ IsQuiet start text :=
  isQuiet_append_of_flat fun character member => flat_of_isBlank (blank character member)

theorem depth_of_isBlank (blank : ∀ character ∈ lead, isBlank character = true) :
    depth lead = 0 := by
  induction lead with
  | nil => rfl
  | cons character lead induction =>
      obtain ⟨here, later⟩ := List.forall_mem_cons.mp blank
      rw [depth_cons, (flat_of_isBlank here).1, induction later, Int.add_zero]

/-- The entries of a list with commas and spaces between them. -/
theorem segments_join_of_stayApart {texts : List Text} (proper : ∀ text ∈ texts, IsEntry text)
    (apart : StayApart texts) (blank : ∀ character ∈ lead, isBlank character = true) :
    segments (lead ++ Text.join [',', ' '] texts) = texts := by
  induction texts generalizing lead with
  | nil =>
      have quiet : IsQuiet 0 (lead ++ []) :=
        (isQuiet_append_of_isBlank blank).mpr (by simp [IsQuiet])
      have nothing : trim lead = [] := by
        rw [trim, trimStart, List.dropWhile_eq_nil_iff.mpr blank]
        rfl
      rw [Text.join, segments_of_isQuiet quiet, List.append_nil, entry, nothing]
      rfl
  | cons text others induction =>
      obtain ⟨here, later⟩ := List.forall_mem_cons.mp proper
      cases others with
      | nil =>
          have quiet := (isQuiet_append_of_isBlank blank).mpr (apart.1 text List.mem_cons_self)
          rw [Text.join, segments_of_isQuiet quiet, here.entry_append blank]
      | cons next others =>
          obtain ⟨quiet, flat, rest⟩ := stayApart_cons_cons.mp apart
          have split : lead ++ Text.join [',', ' '] (text :: next :: others) =
              (lead ++ text) ++ ',' :: ([' '] ++ Text.join [',', ' '] (next :: others)) := by
            simp [Text.join]
          rw [split, segments_append_comma ((isQuiet_append_of_isBlank blank).mpr quiet)
              (by rw [depth_append, depth_of_isBlank blank, flat, Int.add_zero]),
            here.entry_append blank,
            induction later rest (List.forall_mem_singleton.mpr (by decide))]
          rfl

theorem exists_blanks_of_trimEnd (text : Text) :
    ∃ blanks, text = trimEnd text ++ blanks ∧ ∀ character ∈ blanks, isBlank character = true := by
  refine ⟨(text.reverse.takeWhile isBlank).reverse, ?_, ?_⟩
  · rw [trimEnd, ← List.reverse_append, List.takeWhile_append_dropWhile, List.reverse_reverse]
  · intro character member
    exact List.all_eq_true.mp List.all_takeWhile character (List.mem_reverse.mp member)

theorem not_isBlank_comma : isBlank ',' = false := by
  decide

/-- What stands before a comma behind blanks and a text that begins otherwise. -/
theorem exists_of_append_eq_append_comma {behind : Text} (proper : IsEntry text)
    (blank : ∀ character ∈ lead, isBlank character = true)
    (split : lead ++ (text ++ behind) = front ++ ',' :: rest) :
    ∃ first more, front = lead ++ first :: more ∧ isBlank first = false ∧
      text ++ behind = first :: more ++ ',' :: rest := by
  obtain ⟨first, others, rfl, solid, noComma⟩ := proper.begins
  rcases List.append_eq_append_iff.mp split with ⟨middle, rfl, later⟩ | ⟨middle, rfl, later⟩
  · cases middle with
    | nil => exact absurd (List.cons.inj later).1 noComma
    | cons head middle =>
        obtain ⟨rfl, -⟩ := List.cons.inj later
        exact ⟨first, middle, rfl, solid, later⟩
  · cases middle with
    | nil => exact absurd (List.cons.inj later).1.symm noComma
    | cons head middle =>
        obtain ⟨rfl, -⟩ := List.cons.inj later
        have comma := blank ',' (by simp)
        rw [not_isBlank_comma] at comma
        exact Bool.noConfusion comma

/-- If the entries begin with a text, the first comma outside of all brackets stands
behind it. -/
theorem eq_of_segments {behind : Text} {others : List Text} (proper : IsEntry text)
    (blank : ∀ character ∈ lead, isBlank character = true)
    (ends : behind = [] ∨ ∃ more, behind = ',' :: more)
    (split : lead ++ (text ++ behind) = front ++ ',' :: rest)
    (same : entry front ++ segments rest = text :: others) :
    front = lead ++ text ∧ behind = ',' :: rest ∧ segments rest = others := by
  obtain ⟨first, more, rfl, solid, cut⟩ := exists_of_append_eq_append_comma proper blank split
  have whole : entry (lead ++ first :: more) = [trimEnd (first :: more)] := by
    have kept := Text.trimEnd_append_cons solid [] more
    rw [entry, trim, Text.trimStart_append_of_blank blank solid, ← List.nil_append (first :: more), kept]
    rfl
  rw [whole, List.singleton_append, List.cons.injEq] at same
  obtain ⟨blanks, trimmed, isBlank⟩ := exists_blanks_of_trimEnd (first :: more)
  rw [same.1] at trimmed
  rw [trimmed, List.append_assoc, List.append_cancel_left_eq] at cut
  have none : blanks = [] := by
    cases blanks with
    | nil => rfl
    | cons head blanks =>
        rcases ends with rfl | ⟨more, rfl⟩
        · cases cut
        · obtain ⟨rfl, -⟩ := List.cons.inj cut
          have comma := isBlank ',' List.mem_cons_self
          rw [not_isBlank_comma] at comma
          exact Bool.noConfusion comma
  rw [none, List.append_nil] at trimmed
  rw [none, List.nil_append] at cut
  exact ⟨by rw [trimmed], cut, same.2⟩

theorem stayApart_of_segments_join {texts : List Text} (proper : ∀ text ∈ texts, IsEntry text)
    (blank : ∀ character ∈ lead, isBlank character = true)
    (same : segments (lead ++ Text.join [',', ' '] texts) = texts) : StayApart texts := by
  induction texts generalizing lead with
  | nil => simp [StayApart]
  | cons text others induction =>
      obtain ⟨here, later⟩ := List.forall_mem_cons.mp proper
      obtain ⟨behind, split, ends, more⟩ : ∃ behind,
          Text.join [',', ' '] (text :: others) = text ++ behind ∧
            (behind = [] ∨ ∃ more, behind = ',' :: more) ∧
            ∀ rest, behind = ',' :: rest → others ≠ [] ∧
              rest = [' '] ++ Text.join [',', ' '] others := by
        cases others with
        | nil => exact ⟨[], by simp [Text.join], .inl rfl, by simp⟩
        | cons next others =>
            exact ⟨',' :: ' ' :: Text.join [',', ' '] (next :: others), by simp [Text.join],
              .inr ⟨_, rfl⟩, by simp⟩
      rw [split] at same
      rcases isQuiet_or_exists 0 (lead ++ (text ++ behind)) with
        quiet | ⟨front, rest, cut, quiet, outside⟩
      · -- A single entry belongs to a single text.
        rw [segments_of_isQuiet quiet] at same
        have short := List.length_filter_le (fun segment : Text => !segment.isEmpty)
          [trim (lead ++ (text ++ behind))]
        rw [← entry, same, List.length_cons, List.length_singleton] at short
        have alone : others = [] := List.length_eq_zero_iff.mp (by omega)
        rcases ends with rfl | ⟨others, rfl⟩
        · rw [List.append_nil] at quiet
          rw [alone]
          exact ⟨List.forall_mem_singleton.mpr ((isQuiet_append_of_isBlank blank).mp quiet),
            by simp⟩
        · exact absurd alone (more _ rfl).1
      · rw [Int.zero_add] at outside
        rw [cut, segments_append_comma quiet outside] at same
        obtain ⟨rfl, follows, entries⟩ := eq_of_segments here blank ends cut same
        obtain ⟨some, rfl⟩ := more rest follows
        obtain ⟨next, others, rfl⟩ := List.exists_cons_of_ne_nil some
        rw [depth_append, depth_of_isBlank blank, Int.zero_add] at outside
        exact stayApart_cons_cons.mpr ⟨(isQuiet_append_of_isBlank blank).mp quiet, outside,
          induction later (List.forall_mem_singleton.mpr (by decide)) entries⟩

/-- The entries of a list with commas and spaces between its texts are these texts
exactly if the commas stay apart. -/
theorem segments_join_iff {texts : List Text} (proper : ∀ text ∈ texts, IsEntry text) :
    segments (Text.join [',', ' '] texts) = texts ↔ StayApart texts := by
  have blank : ∀ character ∈ ([] : Text), isBlank character = true := nofun
  exact ⟨stayApart_of_segments_join proper blank,
    fun apart => segments_join_of_stayApart proper apart blank⟩

/-! ## Entries that have no name -/

theorem firstWord?_eq_none_iff (proper : IsEntry text) :
    Text.firstWord? text = none ↔ ∀ character ∈ text, isBlank character = false := by
  obtain ⟨first, others, split, solid, -⟩ := proper.begins
  obtain ⟨front, last, ending, closed⟩ := proper.ends
  have kept : trimStart text = text := by
    rw [split]
    exact List.dropWhile_cons_of_neg (by simp [solid])
  have unfolded : Text.firstWord? text = none ↔
      trimStart (text.dropWhile fun character => !isBlank character) = [] := by
    rw [Text.firstWord?, kept]
    split <;> simp_all
  have letters : (∀ character ∈ text, isBlank character = false) ↔
      text.dropWhile (fun character => !isBlank character) = [] := by
    simp [List.dropWhile_eq_nil_iff]
  rw [unfolded, trimStart, List.dropWhile_eq_nil_iff, letters]
  constructor
  · -- What follows the first word ends with the last character, which is not blank.
    intro blank
    by_contra something
    have parts := (List.takeWhile_append_dropWhile
      (p := fun character => !isBlank character) (l := text)).symm
    have member : last ∈ text.dropWhile fun character => !isBlank character := by
      refine List.mem_of_getLast? ?_
      rw [← List.getLast?_append_of_ne_nil _ something, ← parts, ending, List.getLast?_concat]
    rw [blank last member] at closed
    exact Bool.noConfusion closed
  · intro nothing
    rw [nothing]
    exact fun _ impossible => absurd impossible List.not_mem_nil

theorem named?_eq_none_iff (proper : IsEntry text) :
    named? text = none ↔
      isTypeExpression text = true ∨ ∀ character ∈ text, isBlank character = false := by
  rw [named?, ← firstWord?_eq_none_iff proper]
  split
  · rename_i isType
    simp [isType]
  · rename_i noType
    simp [noType]

theorem name_ne_nil_of_firstWord? {words : Text × Text}
    (found : Text.firstWord? text = some words) : words.1 ≠ [] := by
  rw [Text.firstWord?] at found
  split at found
  · cases found
  · rename_i more
    obtain rfl := Option.some.inj found
    cases trimmed : trimStart text with
    | nil => exact absurd (by rw [trimmed]; rfl) more
    | cons first others =>
        have something : text.dropWhile isBlank ≠ [] := by
          rw [← trimStart, trimmed]
          exact List.cons_ne_nil _ _
        have solid := List.head_dropWhile_not isBlank something
        have same : (text.dropWhile isBlank).head something = first := by
          rw [List.head_eq_iff_head?_eq_some, ← trimStart, trimmed]
          rfl
        rw [same] at solid
        simp [solid]

theorem name_ne_nil_of_named? {words : Text × Text} (found : named? text = some words) :
    words.1 ≠ [] := by
  rw [named?] at found
  split at found
  · cases found
  · obtain ⟨first, cut, rfl⟩ := Option.map_eq_some_iff.mp found
    have named := name_ne_nil_of_firstWord? cut
    exact named

theorem assignTypes_spec {entries : List Text} (some : ∀ entry ∈ entries, entry ≠ []) :
    (∀ parameter ∈ (assignTypes entries).2, parameter.name ≠ []) ∧
      (assignTypes entries).1.length + (assignTypes entries).2.length = entries.length := by
  induction entries with
  | nil => exact ⟨nofun, rfl⟩
  | cons entry entries induction =>
      obtain ⟨here, later⟩ := List.forall_mem_cons.mp some
      obtain ⟨others, count⟩ := induction later
      rw [assignTypes]
      rcases assigned : assignTypes entries with ⟨untyped, parameters⟩
      rw [assigned] at others count
      cases found : named? entry with
      | some words =>
          refine ⟨List.forall_mem_cons.mpr ⟨name_ne_nil_of_named? found, others⟩, ?_⟩
          simp only [List.length_cons] at count ⊢
          omega
      | none =>
          cases parameters with
          | nil =>
              refine ⟨nofun, ?_⟩
              simp only [List.length_cons, List.length_nil] at count ⊢
              omega
          | cons next rest =>
              refine ⟨List.forall_mem_cons.mpr ⟨here, others⟩, ?_⟩
              simp only [List.length_cons] at count ⊢
              omega

theorem ne_nil_of_mem_segments {list : Text} : ∀ entry ∈ segments list, entry ≠ [] := by
  intro entry member
  simpa using (List.mem_filter.mp member).2

/-- A list is read as unnamed parameters exactly if its entries are their types and
none of them has a name. -/
theorem parse_eq_unnamed_iff {list : Text} {types : List Text} :
    parse list = .ok (types.map fun type => ⟨[], type⟩) ↔
      segments (inner list) = types ∧ ∀ type ∈ types, named? type = none := by
  have injective : Function.Injective fun type : Text => (⟨[], type⟩ : Parameter) :=
    fun _ _ same => (Parameter.mk.inj same).2
  rw [parse]
  split
  · rename_i named
    obtain ⟨entry, member, isNamed⟩ := List.any_eq_true.mp named
    refine iff_of_false ?_ ?_
    · obtain ⟨names, count⟩ := assignTypes_spec (@ne_nil_of_mem_segments (inner list))
      intro same
      rcases assigned : assignTypes (segments (inner list)) with ⟨untyped, parameters⟩
      rw [assigned] at same names count
      cases untyped with
      | cons name untyped => cases same
      | nil =>
          obtain rfl := Except.ok.inj same
          cases types with
          | nil =>
              have nothing := List.length_eq_zero_iff.mp count.symm
              rw [nothing] at member
              cases member
          | cons type types => exact names _ List.mem_cons_self rfl
    · rintro ⟨rfl, none⟩
      rw [none entry member] at isNamed
      cases isNamed
  · rename_i unnamed
    have none : ∀ type ∈ segments (inner list), named? type = none := by
      simpa using unnamed
    rw [Except.ok.injEq, injective.list_map.eq_iff]
    exact ⟨fun same => ⟨same, same ▸ none⟩, And.left⟩

/-! ## Lists in parentheses -/

theorem inner_parenthesised (list : Text) : inner ('(' :: list ++ [')']) = list := by
  have opening : isBlank '(' = false := by decide
  have closing : isBlank ')' = false := by decide
  have kept : trim ('(' :: list ++ [')']) = '(' :: list ++ [')'] := by
    rw [trim, List.cons_append, Text.trimStart_of_head? opening rfl]
    exact Text.trimEnd_of_getLast? closing (by rw [← List.cons_append, List.getLast?_concat])
  rw [inner, kept, if_pos]
  · simp [Text.dropLast]
  · exact ⟨rfl, List.isSuffixOf_iff_suffix.mpr (List.suffix_append _ _)⟩

/-! ## What begins like a type only -/

theorem isTypeExpression_of_mem {beginning : Text} (member : beginning ∈ typeBeginnings)
    (ends : ∀ character ∈ rest.head?, Text.isWord character = false) :
    isTypeExpression (beginning ++ rest) = true := by
  rw [isTypeExpression, List.any_eq_true]
  refine ⟨beginning, member, ?_⟩
  rw [Bool.and_eq_true, Text.startsWith, List.isPrefixOf_iff_prefix, List.drop_left]
  refine ⟨List.prefix_append _ _, ?_⟩
  cases rest with
  | nil => rfl
  | cons character rest => simpa using ends character rfl

/-- A beginning of types is found before a word only if it is the word, where no
word goes on behind the text of the word. -/
theorem eq_of_startsWith {beginning word : Text} (some : word ≠ [])
    (letters : ∀ character ∈ word, Text.isWord character = true)
    (ends : ∀ character ∈ rest.head?, Text.isWord character = false)
    (plain : beginning.all Text.isWord = true ∨ beginning.head?.all Text.isWord = false)
    (begins : beginning <+: word ++ rest)
    (follows : ∀ character ∈ ((word ++ rest).drop beginning.length).head?,
      Text.isWord character = false) : beginning = word := by
  obtain ⟨behind, split⟩ := begins
  rcases plain with plain | foreign
  · rcases List.append_eq_append_iff.mp split with ⟨more, rfl, same⟩ | ⟨more, rfl, same⟩
    · cases more with
      | nil => rw [List.append_nil]
      | cons character more =>
          rw [List.append_assoc, List.drop_left, List.cons_append] at follows
          have inside := letters character (by simp)
          rw [follows character rfl] at inside
          exact Bool.noConfusion inside
    · cases more with
      | nil => rw [List.append_nil]
      | cons character more =>
          have inside := List.all_eq_true.mp plain character (by simp)
          rw [same] at ends
          rw [ends character rfl] at inside
          exact Bool.noConfusion inside
  · cases beginning with
    | nil => exact Bool.noConfusion foreign
    | cons first others =>
        have noWord : Text.isWord first = false := foreign
        obtain ⟨character, word, rfl⟩ := List.exists_cons_of_ne_nil some
        obtain ⟨rfl, -⟩ := List.cons.inj split
        rw [letters first List.mem_cons_self] at noWord
        exact Bool.noConfusion noWord

/-- The word that a text begins with decides whether the text is known for a type. -/
theorem isTypeExpression_append {word : Text} (some : word ≠ [])
    (letters : ∀ character ∈ word, Text.isWord character = true)
    (ends : ∀ character ∈ rest.head?, Text.isWord character = false) :
    isTypeExpression (word ++ rest) = decide (word ∈ typeBeginnings) := by
  have plain : ∀ beginning ∈ typeBeginnings,
      beginning.all Text.isWord = true ∨ beginning.head?.all Text.isWord = false := by
    decide
  rw [Bool.eq_iff_iff, decide_eq_true_iff]
  constructor
  · intro known
    obtain ⟨beginning, member, begins⟩ := List.any_eq_true.mp known
    rw [Bool.and_eq_true, Text.startsWith, List.isPrefixOf_iff_prefix] at begins
    obtain ⟨isPrefix, follows⟩ := begins
    have same : beginning = word := by
      refine eq_of_startsWith some letters ends (plain _ member) isPrefix ?_
      intro character first
      obtain ⟨others, split⟩ := List.head?_eq_some_iff.mp first
      simpa [split] using follows
    rwa [same] at member
  · exact fun member => isTypeExpression_of_mem member ends

theorem isTypeExpression_of_foreign
    (foreign : ∀ beginning ∈ typeBeginnings, ¬ beginning <+: text) :
    isTypeExpression text = false := by
  rw [isTypeExpression, List.any_eq_false]
  intro beginning member begins
  rw [Bool.and_eq_true, Text.startsWith, List.isPrefixOf_iff_prefix] at begins
  exact foreign beginning member begins.1

theorem isTypeExpression_cons {first : Char} (others : Text)
    (foreign : ∀ beginning ∈ typeBeginnings, beginning.head? ≠ some first) :
    isTypeExpression (first :: others) = false := by
  refine isTypeExpression_of_foreign fun beginning member => ?_
  rintro ⟨behind, split⟩
  cases beginning with
  | nil => exact absurd member (by decide)
  | cons head beginning =>
      obtain ⟨rfl, -⟩ := List.cons.inj split
      exact foreign _ member rfl

end Signature

end Scaffold
