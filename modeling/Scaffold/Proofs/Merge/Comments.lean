import Scaffold.Proofs.Go.KeptComments
import Scaffold.Proofs.Go.Ordering
import Scaffold.Proofs.Merge.Rebuilt

/-!
# Comments of a section that is written anew

The comments between the package clause and the last import are kept when imports are
added, apart from those that the cut behind the line of the package clause runs through,
those inside another declaration that begins on this line, and those behind an import that
comes with a comment before.
-/

namespace Scaffold

open Text (Occur IsSolid Follows)

namespace Go

namespace SourceFile

/-- The comments of a file with their positions, in source order. -/
def comments (file : SourceFile) : List (Nat × Text) :=
  (Tree.tokensOfAll file.items).flatMap Token.comments

/-- The position behind the package clause. -/
def clauseStop (file : SourceFile) : Nat :=
  (file.packageClause?.map Tree.stop).getD 0

/-- The position behind the last import; zero without one. -/
def importStop (file : SourceFile) : Nat :=
  ((file.topLevel .importDeclaration).getLast?.map Tree.stop).getD 0

/-- The comments between the end of the package clause and the end of the last import. -/
def commentsBetween (file : SourceFile) : List (Nat × Text) :=
  file.comments.filter fun comment =>
    file.clauseStop ≤ comment.1 && comment.1 < file.importStop

/-- The places where the imports of a file end. -/
def importEnds (file : SourceFile) : List SpecEnd :=
  ((file.topLevel .importDeclaration).flatMap importSpecs).map fun spec =>
    ⟨file.lineOf spec.stop, spec.stop⟩

/-- The comments that a cut takes from the import section. -/
def cutComments (file : SourceFile) : List (Nat × Text) :=
  file.sectionComments (file.topLevel .importDeclaration) (file.lineStop file.clauseStop)
    file.importStop

/-- The comment ends on the line of the package clause. -/
def EndsInHead (file : SourceFile) (comment : Nat × Text) : Prop :=
  comment.1 + comment.2.length ≤ file.lineStop file.clauseStop

instance (file : SourceFile) (comment : Nat × Text) : Decidable (file.EndsInHead comment) :=
  inferInstanceAs (Decidable (_ ≤ _))

/-- The comment is put behind an import that is made with a comment before. -/
def IsHidden (file : SourceFile) (comment : Nat × Text) : Prop :=
  ∃ place ∈ file.ownerOf file.importEnds comment, ∃ earlier < place,
    file.imports[earlier]? = file.imports[place]? ∧
      ∃ first ∈ file.cutComments, file.ownerOf file.importEnds first = some earlier

instance (file : SourceFile) (comment : Nat × Text) : Decidable (file.IsHidden comment) :=
  inferInstanceAs (Decidable (∃ place ∈ file.ownerOf file.importEnds comment, _))

/-- Comments that go on behind the line of the package clause and are lost. -/
inductive IsLost (file : SourceFile) (comment : Nat × Text) : Prop where
  /-- The comment begins on the line of the package clause. -/
  | severed (further : ¬ file.EndsInHead comment)
      (leads : comment ∈ file.items.flatMap Tree.leadingComments)
      (begins : comment.1 < file.lineStop file.clauseStop)
  /-- The comment stands inside of what is no import declaration. -/
  | swallowed {item : Tree} (further : ¬ file.EndsInHead comment)
      (known : item ∈ file.items) (other : item.isA .importDeclaration = false)
      (inner : comment ∈ item.innerComments)
  | hidden (further : ¬ file.EndsInHead comment) (behind : file.IsHidden comment)

theorem isLost_iff {file : SourceFile} {comment : Nat × Text} :
    file.IsLost comment ↔ ¬ file.EndsInHead comment ∧
      ((comment ∈ file.items.flatMap Tree.leadingComments ∧
          comment.1 < file.lineStop file.clauseStop) ∨
        (∃ item ∈ file.items, item.isA .importDeclaration = false ∧
          comment ∈ item.innerComments) ∨
        file.IsHidden comment) := by
  constructor
  · intro lost
    cases lost with
    | severed further leads begins => exact ⟨further, .inl ⟨leads, begins⟩⟩
    | swallowed further known other inner => exact ⟨further, .inr (.inl ⟨_, known, other, inner⟩)⟩
    | hidden further behind => exact ⟨further, .inr (.inr behind)⟩
  · rintro ⟨further, ⟨leads, begins⟩ | ⟨item, known, other, inner⟩ | behind⟩
    · exact .severed further leads begins
    · exact .swallowed further known other inner
    · exact .hidden further behind

instance (file : SourceFile) (comment : Nat × Text) : Decidable (file.IsLost comment) :=
  decidable_of_iff _ isLost_iff.symm

/-! ## Comments where they stand -/

theorem follows_take {source : Text} {stop : Nat} {comments : List (Nat × Text)}
    (stand : ∀ comment ∈ comments, IsCommentAt source comment)
    (ordered : comments.Pairwise IsBefore)
    (inside : ∀ comment ∈ comments, comment.1 + comment.2.length ≤ stop) :
    ∀ start, (∀ comment ∈ comments, start ≤ comment.1) →
      Follows (comments.map Prod.snd) ((source.take stop).drop start) := by
  induction ordered with
  | nil => exact fun start _ => .nil _
  | @cons comment rest behind _ induction =>
      intro start later
      obtain ⟨here, others⟩ := List.forall_mem_cons.mp stand
      obtain ⟨fits, fitting⟩ := List.forall_mem_cons.mp inside
      obtain ⟨after, whole⟩ := exists_rest_of_piece? here
      have starts : comment.2 <+: (source.take stop).drop comment.1 := by
        rw [List.drop_take, whole, List.prefix_take_iff]
        exact ⟨List.prefix_append _ _, by omega⟩
      have split : (source.take stop).drop comment.1 =
          comment.2 ++ (source.take stop).drop (comment.1 + comment.2.length) := by
        obtain ⟨more, same⟩ := starts
        rw [← List.drop_drop, ← same, List.drop_left]
      have gap : (source.take stop).drop start =
          ((source.take stop).drop start).take (comment.1 - start) ++
            (source.take stop).drop comment.1 := by
        have reached : start + (comment.1 - start) = comment.1 :=
          Nat.add_sub_cancel' (later comment List.mem_cons_self)
        rw [← reached, ← List.drop_drop, reached, List.take_append_drop]
      rw [gap, split, List.map_cons, ← List.append_assoc]
      exact .cons _ (induction others fitting _ behind)

variable {file : SourceFile} {layout : FileLayout}

theorem isCommentAt_comments (read : ofText? file.source = some file) :
    (∀ comment ∈ file.comments, IsCommentAt file.source comment) ∧
      file.comments.Pairwise IsBefore := by
  obtain ⟨tokens, cut, parsed⟩ := exists_tokens_of_ofText? read
  rw [comments, tokensOfAll_of_items? parsed]
  exact isCommentAt_of_tokens? cut

theorem nodup_comments (read : ofText? file.source = some file) : file.comments.Nodup := by
  obtain ⟨stand, ordered⟩ := isCommentAt_comments read
  refine ordered.imp_of_mem fun {comment later} listed _ before same => ?_
  have something := List.length_pos_of_ne_nil (stand comment listed).isComment.ne_nil
  rw [IsBefore, ← same] at before
  omega

theorem occur_prefix (read : ofText? file.source = some file) {kept : List (Nat × Text)}
    (known : kept.Sublist file.comments) {stop : Nat}
    (inside : ∀ comment ∈ kept, comment.1 + comment.2.length ≤ stop) :
    Occur (kept.map remark) (file.source.take stop) := by
  obtain ⟨stand, ordered⟩ := isCommentAt_comments read
  have follows := follows_take (fun comment member => stand comment (known.subset member))
    (ordered.sublist known) inside 0 fun _ _ => Nat.zero_le _
  have shortened := follows.map_of_isPrefix Text.trimEnd_isPrefix
  rw [List.map_map] at shortened
  exact ⟨_, .refl _, shortened⟩

theorem stop_le_of_mem_comments (read : ofText? file.source = some file) {comment : Nat × Text}
    (member : comment ∈ file.comments) :
    comment.1 + comment.2.length ≤ file.source.length := by
  have stands := (isCommentAt_comments read).1 comment member
  obtain ⟨rest, whole⟩ := exists_rest_of_piece? stands
  have something := List.length_pos_of_ne_nil stands.isComment.ne_nil
  have sizes : file.source.length - comment.1 = comment.2.length + rest.length := by
    rw [← List.length_drop, whole, List.length_append]
    rfl
  omega

/-! ## Comments of the section -/

theorem leads_or_inner {comment : Nat × Text} (listed : comment ∈ file.comments) :
    comment ∈ file.items.flatMap Tree.leadingComments ∨
      ∃ item ∈ file.items, comment ∈ item.innerComments := by
  rw [comments, Tree.tokensOfAll_eq_flatMap, List.flatMap_assoc] at listed
  obtain ⟨item, member, within⟩ := List.mem_flatMap.mp listed
  obtain ⟨token, inside, has⟩ := List.mem_flatMap.mp within
  cases tokens : item.tokens with
  | nil => exact absurd (tokens ▸ inside) List.not_mem_nil
  | cons first rest =>
      rcases List.mem_cons.mp (tokens ▸ inside) with rfl | later
      · refine .inl (List.mem_flatMap.mpr ⟨item, member, ?_⟩)
        rwa [Tree.leadingComments, tokens]
      · refine .inr ⟨item, member, List.mem_flatMap.mpr ⟨token, ?_, has⟩⟩
        rwa [tokens]

theorem mem_cutComments {comment : Nat × Text}
    (listed : comment ∈ file.commentsBetween)
    (further : ¬ file.EndsInHead comment) (safe : ¬ file.IsLost comment) :
    comment ∈ file.cutComments := by
  obtain ⟨known, window⟩ := List.mem_filter.mp listed
  rw [Bool.and_eq_true, decide_eq_true_eq, decide_eq_true_eq] at window
  rw [cutComments, sectionComments, Sorting.mem_sort, List.mem_append, List.mem_filter]
  rcases leads_or_inner known with leads | ⟨item, member, inner⟩
  · have behind : file.lineStop file.clauseStop ≤ comment.1 :=
      Nat.le_of_not_lt fun begins => safe (.severed further leads begins)
    exact .inl ⟨leads, by simp [behind, window.2]⟩
  · refine .inr (List.mem_flatMap.mpr ⟨item, List.mem_filter.mpr ⟨member, ?_⟩, inner⟩)
    exact Bool.eq_true_of_not_eq_false fun other => safe (.swallowed further member other inner)

theorem mem_comments_of_mem_cutComments {comment : Nat × Text}
    (listed : comment ∈ file.cutComments) : comment ∈ file.comments :=
  mem_comments_of_mem_sectionComments (fun _ => List.mem_of_mem_filter) listed

theorem isSolid_of_mem_cutComments (read : ofText? file.source = some file)
    {comment : Nat × Text} (listed : comment ∈ file.cutComments) :
    IsSolid (remark comment) := by
  have known := mem_comments_of_mem_cutComments listed
  exact isSolid_remark ((isCommentAt_comments read).1 comment known).isComment

/-- A cut file with an import section. -/
structure IsSection (file : SourceFile) (layout : FileLayout) : Prop where
  head : layout.head = file.source.take (file.lineStop file.clauseStop)
  lines : ∀ index : Nat, layout.lines[index]? = file.imports[index]?.map fun spec =>
    attachAll (file.ownedBy file.importEnds (some index) file.cutComments) ⟨spec, []⟩
  comments : layout.comments =
    (file.ownedBy file.importEnds none file.cutComments).map Prod.snd

theorem imports_eq_map (file : SourceFile) :
    file.imports = ((file.topLevel .importDeclaration).flatMap importSpecs).map importOf := by
  rw [imports, List.map_flatMap]

theorem isSection_of_cut {last : Tree} (accepted : file.cut = .ok layout)
    (closed : (file.topLevel .importDeclaration).getLast? = some last) :
    file.IsSection layout := by
  unfold cut at accepted
  cases opened : file.packageClause? with
  | none => simp [opened] at accepted
  | some clause =>
      have start : file.clauseStop = clause.stop := by rw [clauseStop, opened]; rfl
      have stop : file.importStop = last.stop := by rw [importStop, closed]; rfl
      simp only [opened, closed] at accepted
      split at accepted
      · cases accepted
      · obtain rfl := Except.ok.inj accepted
        rw [← start, ← stop]
        refine ⟨rfl, fun index => ?_, alone_attachComments _ _ _ _⟩
        rw [imports_eq_map]
        refine (getElem?_attachComments _ _ _ index _).trans ?_
        rw [List.getElem?_map, List.getElem?_map, Option.map_map, Option.map_map]
        rfl

theorem commentsBetween_of_none (none : (file.topLevel .importDeclaration).getLast? = none) :
    file.commentsBetween = [] := by
  have stop : file.importStop = 0 := by rw [importStop, none]; rfl
  exact List.filter_eq_nil_iff.mpr fun comment _ => by simp [stop]

/-! ## Comments behind the imports that are written -/

/-- The import behind which a comment is put. -/
def importOwning (file : SourceFile) (comment : Nat × Text) : Option Import :=
  (file.ownerOf file.importEnds comment).bind fun index => file.imports[index]?

theorem exists_import_of_ownerOf {comment : Nat × Text} {index : Nat}
    (owned : file.ownerOf file.importEnds comment = some index) :
    ∃ spec, file.imports[index]? = some spec := by
  obtain ⟨place, known, _⟩ := exists_end_of_owner? owned
  rw [importEnds, List.getElem?_map] at known
  obtain ⟨tree, listed, _⟩ := Option.map_eq_some_iff.mp known
  exact ⟨importOf tree, by rw [imports_eq_map, List.getElem?_map, listed]; rfl⟩

theorem importOwning_eq_none_iff {comment : Nat × Text} :
    file.importOwning comment = none ↔ file.ownerOf file.importEnds comment = none := by
  rw [importOwning]
  cases owned : file.ownerOf file.importEnds comment with
  | none => simp
  | some index =>
      obtain ⟨spec, known⟩ := exists_import_of_ownerOf owned
      simp [known]

theorem importOwning_eq_some_iff {comment : Nat × Text} {spec : Import} :
    file.importOwning comment = some spec ↔
      ∃ index, file.ownerOf file.importEnds comment = some index ∧
        file.imports[index]? = some spec := by
  rw [importOwning, Option.bind_eq_some_iff]

/-- The kept comments behind an import. -/
def notesAmong (file : SourceFile) (kept : List (Nat × Text)) (spec : Import) :
    List (Nat × Text) :=
  kept.filter fun comment => file.importOwning comment == some spec

/-- Comments that a cut takes from the section and that are not lost. -/
structure AreTaken (file : SourceFile) (kept : List (Nat × Text)) :
    Prop where
  nodup : kept.Nodup
  further : ∀ comment ∈ kept, ¬ file.EndsInHead comment
  taken : ∀ comment ∈ kept, comment ∈ file.cutComments
  safe : ∀ comment ∈ kept, ¬ file.IsLost comment

namespace IsSection

variable (isSection : file.IsSection layout) (read : ofText? file.source = some file)
include isSection read

/-- The line of an import with a comment behind it has a comment. -/
theorem exists_line_of_ownerOf {comment : Nat × Text} {index : Nat} {spec : Import}
    (taken : comment ∈ file.cutComments)
    (owned : file.ownerOf file.importEnds comment = some index)
    (known : file.imports[index]? = some spec) :
    ∃ line, layout.lines[index]? = some line ∧ line.spec = spec ∧ line.comment ≠ [] := by
  refine ⟨_, by rw [isSection.lines index, known]; rfl, spec_attachAll _ _, ?_⟩
  refine comment_attachAll_ne_nil (fun other member => ?_) (mem_ownedBy.mpr ⟨taken, owned⟩)
  exact isSolid_of_mem_cutComments read (mem_ownedBy.mp member).1

/-- The kept comments behind an import are all put behind the first line about it that has
a comment. -/
theorem mem_ownedBy_of_mem_notesAmong {kept : List (Nat × Text)} (areTaken : file.AreTaken kept)
    {spec : Import} {place : Nat} (known : file.imports[place]? = some spec)
    (filled : file.ownedBy file.importEnds (some place) file.cutComments ≠ [])
    (early : ∀ index < place, ∀ line, layout.lines[index]? = some line → line.spec = spec →
      line.comment = [])
    {comment : Nat × Text} (member : comment ∈ file.notesAmong kept spec) :
    comment ∈ file.ownedBy file.importEnds (some place) file.cutComments := by
  obtain ⟨inKept, owning⟩ := List.mem_filter.mp member
  obtain ⟨index, owned, same⟩ := importOwning_eq_some_iff.mp (beq_iff_eq.mp owning)
  have taken := areTaken.taken comment inKept
  rcases Nat.lt_trichotomy index place with less | equal | more
  · obtain ⟨line, there, about, commented⟩ :=
      isSection.exists_line_of_ownerOf read taken owned same
    exact absurd (early index less line there about) commented
  · exact mem_ownedBy.mpr ⟨taken, equal ▸ owned⟩
  · -- The comment would be lost behind the import that comes with one before.
    obtain ⟨first, firstOwned⟩ := List.exists_mem_of_ne_nil _ filled
    obtain ⟨noted, ownedBefore⟩ := mem_ownedBy.mp firstOwned
    exact absurd (.hidden (areTaken.further comment inKept)
      ⟨index, owned, place, more, known.trans same.symm, first, noted, ownedBefore⟩)
      (areTaken.safe comment inKept)

/-- The kept comments behind an import occur in the comment that is written. -/
theorem occur_noteOf {kept : List (Nat × Text)} (areTaken : file.AreTaken kept)
    {added : List ImportLine} (bare : ∀ line ∈ added, line.comment = []) (spec : Import) :
    Occur ((file.notesAmong kept spec).map remark)
      (ImportBlock.noteOf (layout.lines ++ added) spec) := by
  rw [ImportBlock.noteOf]
  cases found : (layout.lines ++ added).find? fun line =>
      line.spec == spec && !line.comment.isEmpty with
  | none =>
      have nothing : file.notesAmong kept spec = [] := by
        refine List.eq_nil_iff_forall_not_mem.mpr fun comment member => ?_
        obtain ⟨listed, owning⟩ := List.mem_filter.mp member
        obtain ⟨index, owned, known⟩ := importOwning_eq_some_iff.mp (beq_iff_eq.mp owning)
        obtain ⟨line, there, about, commented⟩ :=
          isSection.exists_line_of_ownerOf read (areTaken.taken comment listed) owned known
        have passed := List.find?_eq_none.mp found line
          (List.mem_append_left _ (List.mem_of_getElem? there))
        simp [about, commented] at passed
      rw [nothing]
      exact Occur.nil _
  | some line =>
      obtain ⟨good, before, behind, whole, early⟩ := List.find?_eq_some_iff_append.mp found
      rw [Bool.and_eq_true, beq_iff_eq, Bool.not_eq_true', List.isEmpty_eq_false_iff] at good
      obtain ⟨about, commented⟩ := good
      have placed : (layout.lines ++ added)[before.length]? = some line := by simp [whole]
      have here : layout.lines[before.length]? = some line := by
        rcases Nat.lt_or_ge before.length layout.lines.length with inside | outside
        · rwa [List.getElem?_append_left inside] at placed
        · rw [List.getElem?_append_right outside] at placed
          exact absurd (bare line (List.mem_of_getElem? placed)) commented
      rw [isSection.lines] at here
      obtain ⟨known, listed, rfl⟩ := Option.map_eq_some_iff.mp here
      obtain rfl : known = spec := (spec_attachAll _ _).symm.trans about
      have solid : ∀ comment ∈ file.ownedBy file.importEnds (some before.length)
          file.cutComments, IsSolid (remark comment) := fun comment member =>
        isSolid_of_mem_cutComments read (mem_ownedBy.mp member).1
      have all := occur_attachAll solid (Occur.nil (ImportLine.comment ⟨known, []⟩))
        fun _ none => absurd none List.not_mem_nil
      refine all.map_of_subperm
        (List.subperm_of_subset (areTaken.nodup.filter _) fun comment member => ?_)
      refine isSection.mem_ownedBy_of_mem_notesAmong read areTaken listed ?_ ?_ member
      · intro nothing
        rw [nothing] at commented
        exact commented rfl
      · intro index less other there otherAbout
        have among : (layout.lines ++ added)[index]? = some other := by
          rw [List.getElem?_append_left (List.getElem?_eq_some_iff.mp there).1, there]
        rw [whole, List.getElem?_append_left less] at among
        simpa [otherAbout] using early other (List.mem_of_getElem? among)

/-- The block of the section shows the kept comments. -/
theorem occur_importBlock {kept : List (Nat × Text)} (areTaken : file.AreTaken kept)
    (module : Text) (added : List Import) :
    Occur (kept.map remark) (Merge.importBlock module layout added) := by
  have bare : ∀ line ∈ added.map fun spec => (⟨spec, []⟩ : ImportLine), line.comment = [] := by
    intro line member
    obtain ⟨spec, _, rfl⟩ := List.mem_map.mp member
    rfl
  set lines := layout.lines ++ added.map fun spec => (⟨spec, []⟩ : ImportLine)
  have each : ∀ line ∈ ImportBlock.unique lines,
      Occur ((file.notesAmong kept line.spec).map remark) line.comment := by
    intro line member
    rw [ImportBlock.comment_of_mem_unique member]
    exact isSection.occur_noteOf read areTaken bare line.spec
  have shown : Occur
      ((file.ownedBy file.importEnds none file.cutComments ++
        (ImportBlock.unique lines).flatMap fun line =>
          file.notesAmong kept line.spec).map remark)
      (Merge.importBlock module layout added) := by
    have rendered : Occur _ (ImportBlock.render module layout.comments lines) :=
      ImportBlock.occur_render (fun spec => (file.notesAmong kept spec).map remark) each
    have alone : layout.comments.map Text.trimEnd =
        (file.ownedBy file.importEnds none file.cutComments).map remark := by
      rw [isSection.comments, List.map_map]
      rfl
    rw [alone] at rendered
    rw [List.map_append, List.map_flatMap]
    exact rendered
  refine shown.map_of_subperm (List.subperm_of_subset areTaken.nodup fun comment member => ?_)
  rw [List.mem_append, mem_ownedBy, ← importOwning_eq_none_iff]
  cases owning : file.importOwning comment with
  | none => exact .inl ⟨areTaken.taken comment member, rfl⟩
  | some spec =>
      obtain ⟨index, owned, known⟩ := importOwning_eq_some_iff.mp owning
      obtain ⟨line, there, about, _⟩ := isSection.exists_line_of_ownerOf read
        (areTaken.taken comment member) owned known
      have written : line.spec ∈ (ImportBlock.unique lines).map ImportLine.spec :=
        ImportBlock.mem_map_spec_unique.mpr
          (List.mem_map_of_mem (List.mem_append_left _ (List.mem_of_getElem? there)))
      obtain ⟨other, kept, same⟩ := List.mem_map.mp written
      refine .inr (List.mem_flatMap.mpr ⟨other, kept, List.mem_filter.mpr ⟨member, ?_⟩⟩)
      rw [owning, same, about, beq_self_eq_true]

end IsSection

end SourceFile

end Go

namespace Merge

open Go (FileLayout SourceFile Tree remark)

variable {file : SourceFile} {layout : FileLayout}

/-- All comments between the package clause and the last import occur in a text, without
the blanks at their ends and as often as they stand there. -/
def KeepsComments (file : SourceFile) (text : Text) : Prop :=
  Occur (file.commentsBetween.map remark) text

/-- The head and the block of a section that is written anew show the comments that are
not lost. -/
theorem occur_framed (isSection : file.IsSection layout)
    (read : SourceFile.ofText? file.source = some file) {kept : List (Nat × Text)}
    (among : kept.Sublist file.commentsBetween)
    (safe : ∀ comment ∈ kept, ¬ file.IsLost comment)
    (module : Text) (added : List Import) (blocks : List Text) :
    Occur (kept.map remark) (framed layout blocks (importBlock module layout added)) := by
  have known : kept.Sublist file.comments := among.trans List.filter_sublist
  set early := kept.filter fun comment => decide (file.EndsInHead comment)
  set late := kept.filter fun comment => !decide (file.EndsInHead comment)
  have inHead : Occur (early.map remark) layout.head := by
    rw [isSection.head]
    refine SourceFile.occur_prefix read (List.filter_sublist.trans known) fun comment member => ?_
    exact of_decide_eq_true (List.mem_filter.mp member).2
  have areTaken : file.AreTaken late := by
    have further : ∀ comment ∈ late, ¬ file.EndsInHead comment := fun comment member => by
      simpa using (List.mem_filter.mp member).2
    refine ⟨(SourceFile.nodup_comments read).sublist (List.filter_sublist.trans known), further,
      fun comment member => ?_, fun comment member => safe comment (List.mem_of_mem_filter member)⟩
    have listed := List.mem_of_mem_filter member
    exact SourceFile.mem_cutComments (among.subset listed) (further comment member)
      (safe comment listed)
  have inBlock := isSection.occur_importBlock read areTaken module added
  have both := (inHead.append_right ['\n']).append inBlock
  obtain ⟨gap, _, text⟩ := append_eq blocks
    (layout.head ++ ['\n'] ++ importBlock module layout added ++
      (if layout.hasSection then layout.tail else '\n' :: layout.tail))
  rw [framed, text]
  refine ((both.append_right _).append_right _).of_perm ?_
  rw [← List.map_append]
  exact (List.filter_append_perm _ kept).symm.map remark

/-- A merge keeps all comments of the import section but those that are lost where the
section is written anew. -/
theorem merge_keepsComments {source : Bytes} (read : SourceFile.ofBytes source = .ok file)
    (accepted : file.cut = .ok layout) (resolver : Resolver) (path : Text)
    (implementations : List Implementation) :
    ∃ merged, merge resolver path (some source) implementations = .ok merged ∧
      Occur ((file.commentsBetween.filter fun comment => ¬ file.IsLost comment).map remark)
        merged.text ∧
      (added resolver layout implementations = [] ∨
        (∀ comment ∈ file.commentsBetween, ¬ file.IsLost comment) →
          KeepsComments file merged.text) := by
  have ofSource : FileLayout.ofSource source = .ok layout := by
    rw [FileLayout.ofSource, read]
    exact accepted
  obtain ⟨known, again, _, run⟩ := merge_of_ofSource ofSource resolver path implementations
  obtain rfl : known = file := Except.ok.inj (again.symm.trans read)
  have parsed := (SourceFile.text_of_ofBytes read).2
  refine ⟨_, run, ?_⟩
  by_cases nothing : added resolver layout implementations = []
  · have all : KeepsComments known
        (complete resolver path layout (some known.source) implementations).text := by
      rw [text_complete, nothing]
      obtain ⟨gap, _, text⟩ := append_eq (written (additions resolver layout implementations))
        (withImports resolver.module.path (some known.source) layout [])
      have whole : Occur (known.commentsBetween.map remark)
          (known.source.take known.source.length) :=
        SourceFile.occur_prefix parsed List.filter_sublist fun comment member =>
          SourceFile.stop_le_of_mem_comments parsed (List.mem_of_mem_filter member)
      rw [List.take_length] at whole
      rw [text]
      exact whole.append_right _
    exact ⟨all.map_of_subperm List.filter_sublist.subperm, fun _ => all⟩
  · rw [text_complete_of_ne_nil resolver path layout _ nothing]
    cases closed : (known.topLevel .importDeclaration).getLast? with
    | none =>
        rw [KeepsComments, SourceFile.commentsBetween_of_none closed]
        exact ⟨Occur.nil _, fun _ => Occur.nil _⟩
    | some last =>
        have shown {kept : List (Nat × Text)} :=
          @occur_framed _ _ (SourceFile.isSection_of_cut accepted closed) parsed kept
        refine ⟨shown List.filter_sublist (fun comment member => ?_) _ _ _,
          fun safe => shown (List.Sublist.refl _) (safe.resolve_left nothing) _ _ _⟩
        simpa using (List.mem_filter.mp member).2

/-- The comments of a section with two declarations are all kept when a third import is
added. -/
theorem merge_keepsComments_commented :
    ∃ file, SourceFile.ofBytes (Utf8.encode commentedSource) = .ok file ∧
      file.cut = .ok commentedLayout ∧
      (∀ comment ∈ file.commentsBetween, ¬ file.IsLost comment) ∧
      ∃ merged, merge plainResolver "f.go" (some (Utf8.encode commentedSource))
          [lineImplementation] = .ok merged ∧ KeepsComments file merged.text := by
  have accepted : FileLayout.ofSource (Utf8.encode commentedSource) = .ok commentedLayout := by
    decide +kernel
  obtain ⟨file, read, cut⟩ := FileLayout.exists_file_of_ofSource accepted
  obtain ⟨decoded, again⟩ := SourceFile.text_of_ofBytes read
  rw [Utf8.decode_encode] at decoded
  rw [← Except.ok.inj decoded] at again
  have known : ((SourceFile.ofText? commentedSource).map fun file =>
      decide (∀ comment ∈ file.commentsBetween, ¬ file.IsLost comment)) = some true := by
    decide +kernel
  rw [again, Option.map_some, Option.some.injEq, decide_eq_true_eq] at known
  obtain ⟨merged, run, _, keeps⟩ :=
    merge_keepsComments read cut plainResolver "f.go" [lineImplementation]
  exact ⟨file, read, cut, known, merged, run, keeps (.inr known)⟩

/-- A file that makes an import twice, with a comment each time. -/
def repeatedSource : Text :=
  "package p\n\nimport (\n\t\"fmt\" // one\n\t\"fmt\" // two\n)\n\ntype userRepositoryImpl int\n"

def repeatedLayout : FileLayout where
  head := "package p\n"
  tail := "\n\ntype userRepositoryImpl int\n"
  lines := [⟨⟨"fmt", []⟩, "// one"⟩, ⟨⟨"fmt", []⟩, "// two"⟩]
  hasSection := true

/-- The comment behind the second import is dropped. -/
theorem second_comment_dropped :
    ∃ file merged, SourceFile.ofBytes (Utf8.encode repeatedSource) = .ok file ∧
      merge plainResolver "f.go" (some (Utf8.encode repeatedSource)) [lineImplementation] =
        .ok merged ∧ ¬ KeepsComments file merged.text := by
  have accepted : FileLayout.ofSource (Utf8.encode repeatedSource) = .ok repeatedLayout := by
    decide +kernel
  obtain ⟨file, read, _, run⟩ :=
    merge_of_ofSource accepted plainResolver "f.go" [lineImplementation]
  refine ⟨file, _, read, run, fun keeps => ?_⟩
  obtain ⟨decoded, again⟩ := SourceFile.text_of_ofBytes read
  rw [Utf8.decode_encode] at decoded
  have source : file.source = repeatedSource := (Except.ok.inj decoded).symm
  rw [source] at again
  have between : ((SourceFile.ofText? repeatedSource).map fun file =>
      file.commentsBetween.map remark) = some (["// one", "// two"] : List Text) := by
    decide +kernel
  rw [again, Option.map_some, Option.some.injEq] at between
  rw [KeepsComments, between, source] at keeps
  have missing : ¬ ("// two" : Text) <:+:
      (complete plainResolver "f.go" repeatedLayout (some repeatedSource)
        [lineImplementation]).text := by
    decide +kernel
  exact missing (keeps.of_mem _ (by simp))

end Merge

end Scaffold
