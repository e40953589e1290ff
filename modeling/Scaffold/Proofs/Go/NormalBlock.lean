import Mathlib.Data.List.Forall2
import Mathlib.Data.List.Induction
import Scaffold.Proofs.Go.ImportBlock
import Scaffold.Proofs.Text.Order

/-!
# The normal form of an import block

The rows of a block follow from which imports there are and which comments they
have.  Neither the order of the lines nor how often a line comes leaves a trace,
unless two lines give one import different comments.
-/

namespace Scaffold

namespace ImportLine

instance : Std.TransCmp order :=
  have := Sorting.transCmp_of_key Text.order fun line : ImportLine => line.spec.path
  have := Sorting.transCmp_of_key Text.order fun line : ImportLine => line.spec.name
  inferInstanceAs (Std.TransCmp (compareLex
    (fun left right : ImportLine => Text.order left.spec.path right.spec.path)
    (fun left right => Text.order left.spec.name right.spec.name)))

theorem spec_eq_of_order {left right : ImportLine} (equal : order left right = .eq) :
    left.spec = right.spec := by
  obtain ⟨paths, names⟩ := Ordering.then_eq_eq.mp equal
  have path : left.spec.path = right.spec.path := Std.LawfulEqCmp.eq_of_compare paths
  have name : left.spec.name = right.spec.name := Std.LawfulEqCmp.eq_of_compare names
  calc
    left.spec = ⟨left.spec.path, left.spec.name⟩ := rfl
    _ = right.spec := by rw [path, name]

end ImportLine

namespace ImportBlock

variable {lines others kept group : List ImportLine} {line other present : ImportLine}

/-! ## What a block in normal form shows -/

/-- No import has two different comments. -/
def AgreeOnComments (lines : List ImportLine) : Prop :=
  ∀ left ∈ lines, ∀ right ∈ lines, left.spec = right.spec →
    left.comment ≠ [] → right.comment ≠ [] → left.comment = right.comment

/-- The kinds of paths in their order: the standard library, packages of third
parties, packages of the local module. -/
def kinds (module : Text) : List (Text → Bool) :=
  [fun path => !Import.isLocal path module && Import.isStandard path,
    fun path => !Import.isLocal path module && !Import.isStandard path,
    fun path => Import.isLocal path module]

/-- The group of a kind of paths: every import of this kind once, by path and name,
with the comment that it has on any line. -/
structure IsGroupOf (lines : List ImportLine) (kind : Text → Bool) (group : List ImportLine) :
    Prop where
  ascending : group.Pairwise fun left right => ImportLine.order left right = .lt
  imports : ∀ spec, spec ∈ group.map ImportLine.spec ↔
    spec ∈ lines.map ImportLine.spec ∧ kind spec.path = true
  listed : ∀ line ∈ group, line ∈ lines
  commented : ∀ line ∈ group, ∀ other ∈ lines, other.spec = line.spec →
    other.comment ≠ [] → line.comment = other.comment

/-- One group for each kind of paths, every import once in one of them. -/
structure AreGroupsOf (module : Text) (lines : List ImportLine)
    (groups : List (List ImportLine)) : Prop where
  sorted : List.Forall₂ (IsGroupOf lines) (kinds module) groups
  once : (groups.flatten.map ImportLine.spec).Perm (Sorting.distinct (lines.map ImportLine.spec))

/-- The block shows the comments that stand alone and then the groups that hold
something, an empty row between each two of them. -/
def IsNormalForm (module : Text) (comments : List Text) (lines : List ImportLine)
    (block : Text) : Prop :=
  ∃ groups, AreGroupsOf module lines groups ∧
    block = "import (\n" ++
      Text.join ['\n'] (comments.map (['\t'] ++ ·) ++
        List.intercalate [[]] ((groups.filter fun group => !group.isEmpty).map
          fun group => group.map ImportLine.render)) ++
      "\n)"

/-! ## The comment of a kept line -/

/-- A line that is there when another one is added is about another import, or it has
a comment if one of the lines for its import does. -/
theorem mem_add (distinct : (kept.map ImportLine.spec).Nodup) (member : present ∈ add line kept) :
    present ∈ kept ∧ present.spec ≠ line.spec ∨
      present.spec = line.spec ∧
        ∀ other ∈ line :: kept, other.spec = line.spec → other.comment ≠ [] →
          present.comment ≠ [] := by
  induction kept with
  | nil =>
      refine .inr ?_
      rw [List.mem_singleton.mp member]
      refine ⟨rfl, fun other listed _ commented => ?_⟩
      rwa [List.mem_singleton.mp listed] at commented
  | cons first rest induction =>
      obtain ⟨absent, later⟩ := List.nodup_cons.mp distinct
      rw [add] at member
      split at member
      · rename_i same
        rcases List.mem_cons.mp member with rfl | old
        · refine .inr ⟨by split <;> simp [same], fun other listed about commented => ?_⟩
          rcases List.mem_cons.mp listed with rfl | old
          · split <;> simp_all
          · rcases List.mem_cons.mp old with rfl | old
            · rw [if_neg (by simp [commented])]
              exact commented
            · exact absurd (same ▸ about ▸ List.mem_map_of_mem old) absent
        · exact .inl ⟨List.mem_cons_of_mem _ old,
            fun about => absent (same ▸ about ▸ List.mem_map_of_mem old)⟩
      · rename_i different
        rcases List.mem_cons.mp member with rfl | inside
        · exact .inl ⟨List.mem_cons_self, different⟩
        · refine (induction later inside).imp (And.imp_left (List.mem_cons_of_mem _)) ?_
          rintro ⟨about, commented⟩
          refine ⟨about, fun other listed same => ?_⟩
          rcases List.mem_cons.mp listed with rfl | old
          · exact commented _ List.mem_cons_self same
          · rcases List.mem_cons.mp old with rfl | old
            · exact absurd same different
            · exact commented other (List.mem_cons_of_mem _ old) same

theorem unique_append_singleton (lines : List ImportLine) (line : ImportLine) :
    unique (lines ++ [line]) = add line (unique lines) := by
  rw [unique, List.foldl_append]
  rfl

theorem comment_ne_nil_of_mem_unique (member : present ∈ unique lines) (listed : other ∈ lines)
    (same : other.spec = present.spec) (commented : other.comment ≠ []) :
    present.comment ≠ [] := by
  induction lines using List.reverseRecOn generalizing present with
  | nil => cases listed
  | append_singleton rest line induction =>
      rw [unique_append_singleton] at member
      rcases mem_add (nodup_map_spec_unique rest) member with ⟨old, different⟩ | ⟨about, known⟩
      · rcases List.mem_append.mp listed with earlier | last
        · exact induction old earlier same
        · rw [List.mem_singleton.mp last] at same
          exact absurd same.symm different
      · rcases List.mem_append.mp listed with earlier | last
        · -- The line that was kept for the import before already had a comment.
          obtain ⟨before, kept, shown⟩ :=
            List.mem_map.mp (mem_map_spec_unique.mpr (List.mem_map_of_mem earlier))
          exact known before (List.mem_cons_of_mem _ kept) (shown.trans (same.trans about))
            (induction kept earlier shown.symm)
        · rw [List.mem_singleton.mp last] at commented
          exact known line List.mem_cons_self rfl commented

/-! ## Groups -/

/-- The lines of one kind, each import once, form a group when they are sorted. -/
theorem isGroupOf_sort (agreed : AgreeOnComments lines) (kind : Text → Bool) :
    IsGroupOf lines kind
      (Sorting.sort ImportLine.order ((unique lines).filter fun line => kind line.spec.path)) := by
  have known : ∀ line ∈ unique lines, line ∈ lines := forall_mem_unique fun _ => id
  refine ⟨?_, fun spec => ?_, fun line member => ?_,
    fun line member other listed same commented => ?_⟩
  · have perm := Sorting.sort_perm ImportLine.order
      ((unique lines).filter fun line => kind line.spec.path)
    have different : (Sorting.sort ImportLine.order
        ((unique lines).filter fun line => kind line.spec.path)).Pairwise
          fun left right => left.spec ≠ right.spec :=
      List.pairwise_map.mp ((perm.map ImportLine.spec).nodup_iff.mpr
        ((nodup_map_spec_unique lines).sublist (List.filter_sublist.map _)))
    refine ((Sorting.pairwise_sort ImportLine.order _).and different).imp ?_
    rintro left right ⟨ordered, apart⟩
    cases compared : ImportLine.order left right with
    | lt => rfl
    | eq => exact absurd (ImportLine.spec_eq_of_order compared) apart
    | gt => rw [compared] at ordered; cases ordered
  · rw [List.mem_map, ← @mem_map_spec_unique spec lines, List.mem_map]
    constructor
    · rintro ⟨line, member, rfl⟩
      obtain ⟨present, ofKind⟩ := List.mem_filter.mp ((Sorting.mem_sort _).mp member)
      exact ⟨⟨line, present, rfl⟩, ofKind⟩
    · rintro ⟨⟨line, present, rfl⟩, ofKind⟩
      exact ⟨line, (Sorting.mem_sort _).mpr (List.mem_filter.mpr ⟨present, ofKind⟩), rfl⟩
  · exact known line (List.mem_filter.mp ((Sorting.mem_sort _).mp member)).1
  · have present := (List.mem_filter.mp ((Sorting.mem_sort _).mp member)).1
    exact agreed line (known line present) other listed same.symm
      (comment_ne_nil_of_mem_unique present listed same commented) commented

theorem IsGroupOf.of_mem_iff {kind : Text → Bool} (same : ∀ line, line ∈ others ↔ line ∈ lines)
    (grouped : IsGroupOf others kind group) : IsGroupOf lines kind group where
  ascending := grouped.ascending
  imports spec := by
    rw [grouped.imports, List.mem_map, List.mem_map]
    simp only [same]
  listed line member := (same line).mp (grouped.listed line member)
  commented line member other listed :=
    grouped.commented line member other ((same other).mpr listed)

/-- There is one group of each kind. -/
theorem rightUnique_isGroupOf (lines : List ImportLine) :
    Relator.RightUnique (IsGroupOf lines) := by
  intro kind left right one two
  -- Groups of one kind hold the same lines, for the comments are the same as well.
  have included {first second : List ImportLine} (one : IsGroupOf lines kind first)
      (two : IsGroupOf lines kind second) : first ⊆ second := by
    intro line member
    obtain ⟨other, found, about⟩ := List.mem_map.mp
      ((two.imports line.spec).mpr ((one.imports line.spec).mp (List.mem_map_of_mem member)))
    have comments : other.comment = line.comment := by
      by_cases commented : line.comment = []
      · by_contra different
        rw [commented] at different
        have shown := one.commented line member other (two.listed other found) about different
        exact different (shown ▸ commented)
      · exact two.commented other found line (one.listed line member) about.symm commented
    have equal : other = line := by
      cases other
      cases line
      simp_all
    exact equal ▸ found
  have distinct {group : List ImportLine} (grouped : IsGroupOf lines kind group) : group.Nodup :=
    grouped.ascending.imp fun {line other} ordered same => by
      have equal : ImportLine.order other other = .eq := Std.ReflCmp.compare_self
      rw [same, equal] at ordered
      cases ordered
  have perm : left.Perm right :=
    (List.perm_ext_iff_of_nodup (distinct one) (distinct two)).mpr
      fun line => ⟨(included one two ·), (included two one ·)⟩
  refine List.Perm.eq_of_pairwise (fun first second _ _ before after => ?_)
    one.ascending two.ascending perm
  have swapped : ImportLine.order first second = (ImportLine.order second first).swap :=
    Std.OrientedCmp.eq_swap
  rw [swapped, after] at before
  cases before

/-! ## Blocks -/

theorem groups_eq (module : Text) (lines : List ImportLine) :
    groups module lines = ((kinds module).map fun kind => Sorting.sort ImportLine.order
      (lines.filter fun line => kind line.spec.path)).filter fun group => !group.isEmpty :=
  rfl

theorem groupLines_eq_intercalate (groups : List (List ImportLine)) :
    groupLines groups =
      List.intercalate [[]] (groups.map fun group => group.map ImportLine.render) := by
  fun_induction groupLines groups with
  | case1 => rfl
  | case2 group => simp [List.intercalate]
  | case3 group next rest induction =>
      rw [induction]
      simp [List.intercalate]

theorem areGroupsOf_sort (agreed : AgreeOnComments lines) (module : Text) :
    AreGroupsOf module lines ((kinds module).map fun kind =>
      Sorting.sort ImportLine.order ((unique lines).filter fun line => kind line.spec.path)) where
  sorted := by
    rw [List.forall₂_map_right_iff, List.forall₂_same]
    exact fun kind _ => isGroupOf_sort agreed kind
  once := by
    have whole := flatten_groups_perm module (unique lines)
    rw [groups_eq, List.flatten_filter_not_isEmpty] at whole
    refine (whole.map ImportLine.spec).trans ?_
    rw [List.perm_ext_iff_of_nodup (nodup_map_spec_unique lines) (Sorting.nodup_distinct _)]
    exact fun spec => mem_map_spec_unique.trans Sorting.mem_distinct.symm

theorem isNormalForm_render_of_agree (agreed : AgreeOnComments lines) (module : Text)
    (comments : List Text) :
    IsNormalForm module comments lines (render module comments lines) := by
  refine ⟨_, areGroupsOf_sort agreed module, ?_⟩
  rw [← groups_eq, ← groupLines_eq_intercalate]
  rfl

theorem IsNormalForm.eq {module : Text} {comments : List Text} {block text : Text}
    (same : ∀ line, line ∈ others ↔ line ∈ lines)
    (one : IsNormalForm module comments lines block)
    (two : IsNormalForm module comments others text) : text = block := by
  obtain ⟨groups, grouped, rfl⟩ := one
  obtain ⟨otherGroups, regrouped, rfl⟩ := two
  have sorted : List.Forall₂ (IsGroupOf lines) (kinds module) otherGroups :=
    regrouped.sorted.imp fun _ _ group => group.of_mem_iff same
  rw [List.right_unique_forall₂' (rightUnique_isGroupOf lines) sorted grouped.sorted]

/-- Where no import has two different comments the block is in normal form, and the
same lines in any other order or number are rendered to the same block. -/
theorem isNormalForm_render (agreed : AgreeOnComments lines) (module : Text)
    (comments : List Text) :
    IsNormalForm module comments lines (render module comments lines) ∧
      ∀ others : List ImportLine, (∀ line, line ∈ others ↔ line ∈ lines) →
        render module comments others = render module comments lines := by
  have normal := isNormalForm_render_of_agree agreed module comments
  refine ⟨normal, fun others same => ?_⟩
  have agreedAgain : AgreeOnComments others := fun left first right second =>
    agreed left ((same left).mp first) right ((same right).mp second)
  exact IsNormalForm.eq same normal (isNormalForm_render_of_agree agreedAgain module comments)

/-- Lines that repeat an import, once without its comment. -/
def repeatedLines : List ImportLine :=
  [⟨⟨"m/api", "api"⟩, []⟩, ⟨⟨"context", []⟩, []⟩, ⟨⟨"go.uber.org/fx", []⟩, []⟩,
    ⟨⟨"context", []⟩, "// requests"⟩]

def repeatedBlock : Text :=
  "import (\n\t// own\n\t\"context\" // requests\n\n\t\"go.uber.org/fx\"\n\n" ++
    "\tapi \"m/api\"\n)"

theorem isNormalForm_render_repeated :
    AgreeOnComments repeatedLines ∧
      IsNormalForm "m" ["// own"] repeatedLines repeatedBlock ∧
      render "m" ["// own"] repeatedLines.reverse = repeatedBlock := by
  have agreed : AgreeOnComments repeatedLines := by
    unfold AgreeOnComments
    decide +kernel
  have written : render "m" ["// own"] repeatedLines = repeatedBlock := by
    decide +kernel
  obtain ⟨normal, same⟩ := isNormalForm_render agreed "m" ["// own"]
  rw [written] at normal same
  exact ⟨agreed, normal, same repeatedLines.reverse fun line => List.mem_reverse⟩

end ImportBlock

end Scaffold
