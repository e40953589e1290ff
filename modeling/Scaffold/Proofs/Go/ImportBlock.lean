import Scaffold.Go.ImportBlock
import Scaffold.Proofs.Sorting

/-!
# What an import block shows

A block writes every import of its lines on a row of its own, and every other
row is empty or one of the comments.  Lines that repeat an import are written
once.
-/

namespace Scaffold

namespace ImportBlock

/-- The row of an import, with what follows the import. -/
def row (spec : Import) (behind : Text) : Text :=
  '\t' :: spec.render ++ behind

/-- The block declares exactly the given imports. -/
def Declares (block : Text) (comments : List Text) (imports : List Import) : Prop :=
  ∃ rows, block = "import (\n" ++ Text.join ['\n'] rows ++ "\n)" ∧
    (∀ spec ∈ imports, ∃ behind, row spec behind ∈ rows) ∧
    ∀ text ∈ rows, text = [] ∨ (∃ comment ∈ comments, text = '\t' :: comment) ∨
      ∃ spec ∈ imports, ∃ behind, text = row spec behind

/-- The block holds one row for each of the imports, and otherwise empty rows. -/
def Lists (block : Text) (imports : List Import) : Prop :=
  ∃ rows, block = "import (\n" ++ Text.join ['\n'] rows ++ "\n)" ∧
    (rows.filter fun text => !text.isEmpty).Perm (imports.map fun spec => row spec [])

/-! ## Lines with each import once -/

theorem mem_map_spec_add {spec : Import} {line : ImportLine} {lines : List ImportLine} :
    spec ∈ (add line lines).map ImportLine.spec ↔
      spec = line.spec ∨ spec ∈ lines.map ImportLine.spec := by
  induction lines with
  | nil => simp [add]
  | cons present rest induction =>
      rw [add]
      split
      · rename_i same
        have kept : (if present.comment.isEmpty && !line.comment.isEmpty then line
            else present).spec = line.spec := by
          split
          · rfl
          · exact same
        rw [List.map_cons, kept, List.map_cons, same, List.mem_cons]
        exact ⟨.inr, fun member => member.elim .inl id⟩
      · rw [List.map_cons, List.mem_cons, induction, List.map_cons, List.mem_cons]
        exact or_left_comm

private theorem mem_map_spec_foldl {spec : Import} (lines : List ImportLine) :
    ∀ kept, spec ∈ (lines.foldl (fun kept line => add line kept) kept).map ImportLine.spec ↔
      spec ∈ kept.map ImportLine.spec ∨ spec ∈ lines.map ImportLine.spec := by
  induction lines with
  | nil => intro kept; simp
  | cons line rest induction =>
      intro kept
      rw [List.foldl_cons, induction, mem_map_spec_add, List.map_cons, List.mem_cons,
        or_left_comm, or_assoc]

theorem mem_map_spec_unique {spec : Import} {lines : List ImportLine} :
    spec ∈ (unique lines).map ImportLine.spec ↔ spec ∈ lines.map ImportLine.spec := by
  rw [unique, mem_map_spec_foldl]
  simp

theorem forall_mem_unique {property : ImportLine → Prop} {lines : List ImportLine}
    (all : ∀ line ∈ lines, property line) : ∀ line ∈ unique lines, property line := by
  have added {line : ImportLine} {kept : List ImportLine} (new : property line)
      (old : ∀ line ∈ kept, property line) : ∀ other ∈ add line kept, property other := by
    induction kept with
    | nil => simpa [add] using new
    | cons present rest induction =>
        obtain ⟨first, later⟩ := List.forall_mem_cons.mp old
        rw [add]
        split
        · refine List.forall_mem_cons.mpr ⟨?_, later⟩
          split
          · exact new
          · exact first
        · exact List.forall_mem_cons.mpr ⟨first, induction later⟩
  have folded : ∀ kept : List ImportLine, (∀ line ∈ kept, property line) →
      ∀ line ∈ lines.foldl (fun kept line => add line kept) kept, property line := by
    induction lines with
    | nil => exact fun kept known => known
    | cons line rest induction =>
        obtain ⟨first, later⟩ := List.forall_mem_cons.mp all
        exact fun kept known => induction later _ (added first known)
  exact folded [] (by simp)

theorem nodup_map_spec_add {line : ImportLine} {lines : List ImportLine}
    (distinct : (lines.map ImportLine.spec).Nodup) :
    ((add line lines).map ImportLine.spec).Nodup := by
  induction lines with
  | nil => simp [add]
  | cons present rest induction =>
      obtain ⟨absent, later⟩ := List.nodup_cons.mp distinct
      rw [add]
      split
      · rename_i same
        have kept : (if present.comment.isEmpty && !line.comment.isEmpty then line
            else present).spec = present.spec := by
          split
          · exact same.symm
          · rfl
        rw [List.map_cons, kept]
        exact distinct
      · rename_i other
        rw [List.map_cons, List.nodup_cons]
        refine ⟨fun member => ?_, induction later⟩
        rcases mem_map_spec_add.mp member with same | inside
        · exact other same
        · exact absent inside

theorem nodup_map_spec_unique (lines : List ImportLine) :
    ((unique lines).map ImportLine.spec).Nodup := by
  have folded (lines : List ImportLine) : ∀ kept : List ImportLine,
      (kept.map ImportLine.spec).Nodup →
        ((lines.foldl (fun kept line => add line kept) kept).map ImportLine.spec).Nodup := by
    induction lines with
    | nil => exact fun kept distinct => distinct
    | cons line rest induction =>
        exact fun kept distinct => induction _ (nodup_map_spec_add distinct)
  exact folded lines [] List.nodup_nil

theorem add_of_not_mem {line : ImportLine} {kept : List ImportLine}
    (new : line.spec ∉ kept.map ImportLine.spec) : add line kept = kept ++ [line] := by
  induction kept with
  | nil => rfl
  | cons present rest induction =>
      rw [List.map_cons, List.mem_cons, not_or] at new
      rw [add, if_neg (Ne.symm new.1), induction new.2]
      rfl

theorem unique_eq_self {lines : List ImportLine} (different : (lines.map ImportLine.spec).Nodup) :
    unique lines = lines := by
  have folded : ∀ kept : List ImportLine, ((kept ++ lines).map ImportLine.spec).Nodup →
      lines.foldl (fun kept line => add line kept) kept = kept ++ lines := by
    clear different
    induction lines with
    | nil => exact fun kept _ => (List.append_nil kept).symm
    | cons line rest induction =>
        intro kept different
        have new : line.spec ∉ kept.map ImportLine.spec := by
          rw [List.map_append, List.map_cons, List.nodup_append] at different
          exact fun old => different.2.2 _ old _ List.mem_cons_self rfl
        rw [List.append_cons] at different
        rw [List.foldl_cons, add_of_not_mem new, induction _ different, ← List.append_cons]
  exact folded [] different

/-! ## Groups -/

private theorem mem_sorted {lines : List ImportLine} {line : ImportLine}
    (keeps : List (ImportLine → Bool)) :
    (∃ group ∈ (keeps.map fun keep => Sorting.sort ImportLine.order (lines.filter keep)).filter
        fun group => !group.isEmpty, line ∈ group) ↔
      line ∈ lines ∧ ∃ keep ∈ keeps, keep line = true := by
  constructor
  · rintro ⟨group, listed, member⟩
    obtain ⟨keep, known, rfl⟩ := List.mem_map.mp (List.mem_filter.mp listed).1
    obtain ⟨present, kept⟩ := List.mem_filter.mp ((Sorting.mem_sort _).mp member)
    exact ⟨present, keep, known, kept⟩
  · rintro ⟨present, keep, known, kept⟩
    have member : line ∈ Sorting.sort ImportLine.order (lines.filter keep) :=
      (Sorting.mem_sort _).mpr (List.mem_filter.mpr ⟨present, kept⟩)
    refine ⟨_, List.mem_filter.mpr ⟨List.mem_map_of_mem known, ?_⟩, member⟩
    rw [Bool.not_eq_true', List.isEmpty_eq_false_iff]
    exact List.ne_nil_of_mem member

theorem mem_groups {module : Text} {lines : List ImportLine} {line : ImportLine} :
    (∃ group ∈ groups module lines, line ∈ group) ↔ line ∈ lines := by
  have sorted := @mem_sorted lines line
    [fun line => !Import.isLocal line.spec.path module && Import.isStandard line.spec.path,
      fun line => !Import.isLocal line.spec.path module && !Import.isStandard line.spec.path,
      fun line => Import.isLocal line.spec.path module]
  refine sorted.trans ⟨And.left, fun member => ⟨member, ?_⟩⟩
  -- Every line is local, or else standard or not.
  cases isLocal : Import.isLocal line.spec.path module <;>
    cases isStandard : Import.isStandard line.spec.path <;>
    simp [isLocal, isStandard]

/-- The groups are the lines in another order. -/
theorem flatten_groups_perm (module : Text) (lines : List ImportLine) :
    (groups module lines).flatten.Perm lines := by
  have nonempty (groups : List (List ImportLine)) :
      (groups.filter fun group => !group.isEmpty).flatten = groups.flatten := by
    induction groups with
    | nil => rfl
    | cons group rest induction =>
        cases group with
        | nil => simpa using induction
        | cons line others => simp [induction]
  have sorted (keep : ImportLine → Bool) :
      (Sorting.sort ImportLine.order (lines.filter keep)).Perm (lines.filter keep) :=
    Sorting.sort_perm _ _
  rw [groups, nonempty]
  simp only [List.flatten_cons, List.flatten_nil, List.append_nil]
  refine ((sorted _).append ((sorted _).append (sorted _))).trans ?_
  -- Every line is local, or else standard or not.
  have foreign := List.filter_append_perm (fun line : ImportLine => Import.isStandard line.spec.path)
    (lines.filter fun line => !Import.isLocal line.spec.path module)
  have whole := List.filter_append_perm
    (fun line : ImportLine => !Import.isLocal line.spec.path module) lines
  rw [List.filter_filter, List.filter_filter] at foreign
  rw [← List.append_assoc]
  refine List.Perm.trans ?_ whole
  refine List.Perm.append ?_ ?_
  · simpa [Bool.and_comm] using foreign
  · simp

theorem mem_groupLines {groups : List (List ImportLine)} {group : List ImportLine}
    {line : ImportLine} (listed : group ∈ groups) (member : line ∈ group) :
    line.render ∈ groupLines groups := by
  induction groups with
  | nil => exact absurd listed List.not_mem_nil
  | cons first rest induction =>
      cases rest with
      | nil =>
          have same : group = first := List.mem_singleton.mp listed
          exact List.mem_map_of_mem (same ▸ member)
      | cons next others =>
          rw [groupLines, List.mem_append, List.mem_cons]
          rcases List.mem_cons.mp listed with rfl | later
          · exact .inl (List.mem_map_of_mem member)
          · exact .inr (.inr (induction later))

theorem of_mem_groupLines {groups : List (List ImportLine)} {text : Text}
    (member : text ∈ groupLines groups) :
    text = [] ∨ ∃ group ∈ groups, ∃ line ∈ group, text = line.render := by
  induction groups with
  | nil => exact absurd member List.not_mem_nil
  | cons first rest induction =>
      have listed (inside : text ∈ first.map ImportLine.render) :
          ∃ group ∈ first :: rest, ∃ line ∈ group, text = line.render := by
        obtain ⟨line, known, rendered⟩ := List.mem_map.mp inside
        exact ⟨first, List.mem_cons_self, line, known, rendered.symm⟩
      cases rest with
      | nil => exact .inr (listed member)
      | cons next others =>
          rw [groupLines, List.mem_append, List.mem_cons] at member
          rcases member with inside | rfl | later
          · exact .inr (listed inside)
          · exact .inl rfl
          · rcases induction later with empty | ⟨group, known, line, inside, rendered⟩
            · exact .inl empty
            · exact .inr ⟨group, List.mem_cons_of_mem first known, line, inside, rendered⟩

theorem filter_groupLines (groups : List (List ImportLine)) :
    ((groupLines groups).filter fun text => !text.isEmpty) =
      groups.flatten.map ImportLine.render := by
  have filled (group : List ImportLine) :
      ((group.map ImportLine.render).filter fun text => !text.isEmpty) =
        group.map ImportLine.render := by
    apply List.filter_eq_self.mpr
    intro text member
    obtain ⟨line, _, rfl⟩ := List.mem_map.mp member
    rfl
  induction groups with
  | nil => rfl
  | cons first rest induction =>
      rw [List.flatten_cons, List.map_append]
      cases rest with
      | nil => exact (filled first).trans (List.append_nil _).symm
      | cons next others =>
          rw [groupLines, List.filter_append, filled, List.filter_cons_of_neg (by simp), induction]

/-! ## Blocks -/

private theorem render_line (line : ImportLine) :
    ∃ behind, line.render = row line.spec behind :=
  ⟨_, rfl⟩

theorem declares_render (module : Text) (comments : List Text) (lines : List ImportLine) :
    Declares (render module comments lines) comments (lines.map ImportLine.spec) := by
  refine ⟨_, rfl, ?_, ?_⟩
  · intro spec member
    obtain ⟨line, known, rfl⟩ := List.mem_map.mp (mem_map_spec_unique.mpr member)
    obtain ⟨group, listed, inside⟩ := mem_groups.mpr known
    obtain ⟨behind, rendered⟩ := render_line line
    refine ⟨behind, List.mem_append_right _ ?_⟩
    rw [← rendered]
    exact mem_groupLines listed inside
  · intro text member
    rcases List.mem_append.mp member with commented | written
    · obtain ⟨comment, known, rfl⟩ := List.mem_map.mp commented
      exact .inr (.inl ⟨comment, known, rfl⟩)
    · rcases of_mem_groupLines written with empty | ⟨group, listed, line, inside, rendered⟩
      · exact .inl empty
      · have known : line ∈ unique lines := mem_groups.mp ⟨group, listed, inside⟩
        obtain ⟨behind, asRow⟩ := render_line line
        exact .inr (.inr ⟨line.spec,
          mem_map_spec_unique.mp (List.mem_map_of_mem known), behind, rendered.trans asRow⟩)

theorem lists_render (module : Text) {imports : List Import} (different : imports.Nodup) :
    Lists (render module [] (imports.map fun spec => ⟨spec, []⟩)) imports := by
  have specs : (imports.map fun spec => (⟨spec, []⟩ : ImportLine)).map ImportLine.spec = imports := by
    simp [Function.comp_def]
  have rows : (imports.map fun spec => (⟨spec, []⟩ : ImportLine)).map ImportLine.render =
      imports.map fun spec => row spec [] := by
    rw [List.map_map]
    rfl
  refine ⟨_, rfl, ?_⟩
  rw [List.map_nil, List.nil_append, filter_groupLines, ← rows,
    unique_eq_self (specs.symm ▸ different)]
  exact (flatten_groups_perm module _).map ImportLine.render

end ImportBlock

end Scaffold
