import Scaffold.Proofs.Contract.GroupedTypes
import Scaffold.Proofs.Text.Marked

/-!
# Runs of spaces in the place of single ones

In a text with marked runs of spaces the depth of nesting, the commas outside of all
brackets and what stands between blanks are those of the text with a single space for
each run.
-/

namespace Scaffold

namespace Signature

open Text (IsTrimmed isBlank trim trimStart trimEnd)

/-! ## Wide spaces -/

/-- One space or more. -/
def IsRun (part : Text) : Prop :=
  ∃ width, part = Text.times (width + 1) ' '

/-- The marked parts are runs of spaces, with more than one space only between texts
between which this is allowed. -/
structure IsSpacing (loose : Text → Text → Prop) (text : Marked Char) : Prop where
  runs : ∀ part, .inr part ∈ text → IsRun part
  wide : ∀ (before : Marked Char) (part : Text) (after : Marked Char),
    text = before ++ .inr part :: after →
      part = [' '] ∨ loose (before.blanked ' ') (after.blanked ' ')

variable {loose other : Text → Text → Prop} {text head tail : Marked Char} {start : Int}

theorem IsSpacing.left (spacing : IsSpacing loose (head ++ tail)) :
    IsSpacing (fun before after => loose before (after ++ tail.blanked ' ')) head where
  runs part member := spacing.runs part (List.mem_append_left _ member)
  wide before part after split := by
    have place := spacing.wide before part (after ++ tail) (by rw [split]; simp)
    rwa [Marked.blanked_append] at place

theorem IsSpacing.right (spacing : IsSpacing loose (head ++ tail)) :
    IsSpacing (fun before after => loose (head.blanked ' ' ++ before) after) tail where
  runs part member := spacing.runs part (List.mem_append_right _ member)
  wide before part after split := by
    have place := spacing.wide (head ++ before) part after (by rw [split]; simp)
    rwa [Marked.blanked_append] at place

theorem IsSpacing.mono (spacing : IsSpacing loose text)
    (weaker : ∀ before after, text.blanked ' ' = before ++ ' ' :: after →
      loose before after → other before after) : IsSpacing other text where
  runs := spacing.runs
  wide before part after split :=
    (spacing.wide before part after split).imp_right (weaker _ _ (by rw [split]; simp))

theorem IsSpacing.whole_eq (spacing : IsSpacing loose text)
    (tight : ∀ before after, text.blanked ' ' = before ++ ' ' :: after → ¬ loose before after) :
    text.whole = text.blanked ' ' := by
  have single : ∀ part, .inr part ∈ text → part = [' '] := by
    intro part member
    obtain ⟨before, after, rfl⟩ := List.append_of_mem member
    exact (spacing.wide before part after rfl).resolve_right (tight _ _ (by simp))
  clear spacing tight
  induction text with
  | nil => rfl
  | cons item rest induction =>
      have behind := induction fun part member => single part (List.mem_cons_of_mem _ member)
      cases item with
      | inl character => rw [Marked.whole_symbol, Marked.blanked_symbol, behind]
      | inr part =>
          rw [Marked.whole_part, Marked.blanked_part, behind, single part List.mem_cons_self]
          rfl

theorem isSpacing_nil (loose : Text → Text → Prop) : IsSpacing loose [] :=
  ⟨nofun, fun _ _ _ split => by simp at split⟩

theorem isSpacing_symbol_iff {character : Char} :
    IsSpacing loose (.inl character :: text) ↔
      IsSpacing (fun before after => loose (character :: before) after) text := by
  refine ⟨fun spacing => (List.singleton_append ▸ spacing : IsSpacing _ ([_] ++ text)).right,
    fun spacing => ⟨fun part member => ?_, fun before part after split => ?_⟩⟩
  · exact spacing.runs part (by simpa using member)
  · cases before with
    | nil => cases split
    | cons item before =>
        obtain ⟨rfl, behind⟩ := List.cons.inj split
        exact spacing.wide before part after behind

theorem isSpacing_part_iff {part : Text} :
    IsSpacing loose (.inr part :: text) ↔
      IsRun part ∧ (part = [' '] ∨ loose [] (text.blanked ' ')) ∧
        IsSpacing (fun before after => loose (' ' :: before) after) text := by
  constructor
  · exact fun spacing => ⟨spacing.runs part List.mem_cons_self, spacing.wide [] part text rfl,
      (List.singleton_append ▸ spacing : IsSpacing _ ([_] ++ text)).right⟩
  · rintro ⟨run, place, spacing⟩
    refine ⟨fun other member => ?_, fun before other after split => ?_⟩
    · rcases List.mem_cons.mp member with same | later
      · exact Sum.inr.inj same ▸ run
      · exact spacing.runs other later
    · cases before with
      | nil =>
          obtain ⟨same, rfl⟩ := List.cons.inj split
          obtain rfl := Sum.inr.inj same
          exact place
      | cons item before =>
          obtain ⟨rfl, behind⟩ := List.cons.inj split
          exact spacing.wide before other after behind

theorem isRun_iff {part : Text} :
    IsRun part ↔ part ≠ [] ∧ (part.all fun character => character = ' ') = true := by
  rw [List.all_iff_forall_prop]
  constructor
  · rintro ⟨width, rfl⟩
    exact ⟨List.cons_ne_nil _ _, fun character member => List.eq_of_mem_replicate member⟩
  · rintro ⟨some, spaces⟩
    have length := List.length_pos_of_ne_nil some
    refine ⟨part.length - 1, ?_⟩
    rw [Nat.sub_add_cancel length]
    exact List.eq_replicate_of_mem spaces

instance (part : Text) : Decidable (IsRun part) :=
  decidable_of_iff _ isRun_iff.symm

/-- Spaces are allowed or not from the left to the right. -/
def decideSpacing : ∀ (text : Marked Char) (loose : Text → Text → Prop)
    (_ : ∀ before after, Decidable (loose before after)), Decidable (IsSpacing loose text)
  | [], loose, _ => .isTrue (isSpacing_nil loose)
  | .inl character :: rest, loose, decides =>
    have := decideSpacing rest (fun before after => loose (character :: before) after)
      fun before after => decides (character :: before) after
    decidable_of_iff _ isSpacing_symbol_iff.symm
  | .inr _ :: rest, loose, decides =>
    have := decides [] (Marked.blanked ' ' rest)
    have := decideSpacing rest (fun before after => loose (' ' :: before) after)
      fun before after => decides (' ' :: before) after
    decidable_of_iff _ isSpacing_part_iff.symm

instance [decides : ∀ before after, Decidable (loose before after)] (text : Marked Char) :
    Decidable (IsSpacing loose text) :=
  decideSpacing text loose decides

/-! ## What runs of spaces leave as it is -/

theorem IsRun.isBlank {part : Text} (run : IsRun part) :
    ∀ character ∈ part, isBlank character = true := by
  obtain ⟨width, rfl⟩ := run
  intro character member
  rw [List.eq_of_mem_replicate member]
  decide

theorem isBlank_space : ∀ character ∈ [' '], isBlank character = true :=
  List.forall_mem_singleton.mpr (by decide)

theorem ne_space_of_solid {character : Char} (solid : isBlank character = false) :
    character ≠ ' ' := by
  rintro rfl
  exact absurd solid (by decide)

section Runs

variable (runs : ∀ part, .inr part ∈ text → IsRun part)
include runs

theorem depth_whole : depth text.whole = depth (text.blanked ' ') := by
  induction text with
  | nil => rfl
  | cons item rest induction =>
      have later := induction fun part member => runs part (List.mem_cons_of_mem _ member)
      cases item with
      | inl character => rw [Marked.whole_symbol, Marked.blanked_symbol, depth_cons, depth_cons, later]
      | inr part =>
          rw [Marked.whole_part, Marked.blanked_part, depth_append, depth_cons,
            depth_of_isBlank (runs part List.mem_cons_self).isBlank, later]
          rfl

theorem isQuiet_whole_iff : IsQuiet start text.whole ↔ IsQuiet start (text.blanked ' ') := by
  induction text generalizing start with
  | nil => rfl
  | cons item rest induction =>
      have later {start : Int} := @induction start fun part member =>
        runs part (List.mem_cons_of_mem _ member)
      cases item with
      | inl character =>
          rw [Marked.whole_symbol, Marked.blanked_symbol, isQuiet_cons, isQuiet_cons, later]
      | inr part =>
          rw [Marked.whole_part, Marked.blanked_part, ← List.singleton_append,
            isQuiet_append_of_isBlank (runs part List.mem_cons_self).isBlank,
            isQuiet_append_of_isBlank isBlank_space, later]

theorem isBlank_whole (blank : ∀ character ∈ text.blanked ' ', isBlank character = true) :
    ∀ character ∈ text.whole, isBlank character = true := by
  induction text with
  | nil => exact nofun
  | cons item rest induction =>
      have later := induction fun part member => runs part (List.mem_cons_of_mem _ member)
      cases item with
      | inl character =>
          obtain ⟨here, behind⟩ := List.forall_mem_cons.mp blank
          exact List.forall_mem_cons.mpr ⟨here, later behind⟩
      | inr part =>
          exact List.forall_mem_append.mpr
            ⟨(runs part List.mem_cons_self).isBlank, later (List.forall_mem_cons.mp blank).2⟩

theorem whole_ne_nil (some : text.blanked ' ' ≠ []) : text.whole ≠ [] := by
  cases text with
  | nil => exact some
  | cons item rest =>
      cases item with
      | inl character => exact List.cons_ne_nil _ _
      | inr part =>
          obtain ⟨width, rfl⟩ := runs part List.mem_cons_self
          exact List.cons_ne_nil _ _

end Runs

theorem exists_ends (trimmed : IsTrimmed (text.blanked ' ')) :
    (∃ first rest, text = .inl first :: rest ∧ isBlank first = false) ∧
      ∃ front last, text = front ++ [.inl last] ∧ isBlank last = false := by
  obtain ⟨first, others, begins, solid⟩ := trimmed.begins
  obtain ⟨front, last, ends, closed⟩ := trimmed.ends
  obtain ⟨rest, same, -⟩ := Marked.exists_of_blanked_cons (ne_space_of_solid solid) begins
  obtain ⟨before, behind, split, -, single⟩ := Marked.exists_of_blanked_append ends
  obtain ⟨nothing, rfl, none⟩ := Marked.exists_of_blanked_cons (ne_space_of_solid closed) single
  obtain rfl := List.map_eq_nil_iff.mp none
  exact ⟨⟨first, rest, same, solid⟩, before, last, split, closed⟩

theorem isTrimmed_whole (trimmed : IsTrimmed (text.blanked ' ')) : IsTrimmed text.whole := by
  obtain ⟨⟨first, rest, begins, solid⟩, front, last, ends, closed⟩ := exists_ends trimmed
  exact ⟨⟨first, Marked.whole rest, by rw [begins]; rfl, solid⟩,
    Marked.whole front, last, by rw [ends, Marked.whole_append]; rfl, closed⟩

/-- The marked text between blanks. -/
theorem exists_core (runs : ∀ part, .inr part ∈ text → IsRun part)
    (some : trim (text.blanked ' ') ≠ []) :
    ∃ lead core tail : Marked Char, text = lead ++ (core ++ tail) ∧
      core.blanked ' ' = trim (text.blanked ' ') ∧ IsTrimmed (core.blanked ' ') ∧
      (∀ character ∈ lead.blanked ' ', isBlank character = true) ∧
      (∀ character ∈ tail.blanked ' ', isBlank character = true) ∧
      trim text.whole = core.whole := by
  obtain ⟨before, behind, split, trimmed, blank, blanks⟩ := Text.exists_blanks_around some
  obtain ⟨lead, others, rfl, first, rest⟩ := Marked.exists_of_blanked_append split
  obtain ⟨core, tail, rfl, same, last⟩ := Marked.exists_of_blanked_append rest
  rw [← first] at blank
  rw [← last] at blanks
  rw [← same] at trimmed
  refine ⟨lead, core, tail, rfl, same, trimmed, blank, blanks, ?_⟩
  rw [Marked.whole_append, Marked.whole_append]
  refine (isTrimmed_whole trimmed).trim_append
    (isBlank_whole (fun part member => runs part ?_) blank)
    (isBlank_whole (fun part member => runs part ?_) blanks)
  · exact List.mem_append_left _ member
  · exact List.mem_append_right _ (List.mem_append_right _ member)

end Signature

end Scaffold
