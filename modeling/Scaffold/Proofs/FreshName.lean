import Mathlib.Data.List.Nodup
import Mathlib.Data.List.Perm.Subperm
import Scaffold.FreshName

/-!
# Fresh names are fresh

Different numbers make different candidates, so a candidate among one more than
there are taken names is free.  The search stops at the first free one, and so do
two ways of looking for it without a bound: trying name after name, and counting.
-/

namespace Scaffold

namespace FreshName

theorem numbered_injective (base : Text) : Function.Injective (numbered base) := by
  intro left right same
  have digits : Nat.toDigits 10 left = Nat.toDigits 10 right :=
    List.append_cancel_left same
  calc
    left = Nat.ofDigitChars 10 (Nat.toDigits 10 left) 0 :=
      Nat.ofDigitChars_ten_toDigits.symm
    _ = Nat.ofDigitChars 10 (Nat.toDigits 10 right) 0 := by rw [digits]
    _ = right := Nat.ofDigitChars_ten_toDigits

private theorem exists_free (base : Text) (taken : List Text) (number : Nat) :
    ∃ free, number ≤ free ∧ free ≤ number + taken.length ∧ numbered base free ∉ taken := by
  by_contra none
  have covered : (List.range' number (taken.length + 1)).map (numbered base) ⊆ taken := by
    intro candidate member
    obtain ⟨index, known, rfl⟩ := List.mem_map.mp member
    obtain ⟨lower, upper⟩ := List.mem_range'_1.mp known
    by_contra free
    exact none ⟨index, lower, by omega, free⟩
  have different : ((List.range' number (taken.length + 1)).map (numbered base)).Nodup :=
    List.Nodup.map (numbered_injective base) List.nodup_range'
  have short := (List.Nodup.subperm different covered).length_le
  rw [List.length_map, List.length_range'] at short
  omega

/-! ## The first free number -/

/-- The first number, from one on, whose name is free. -/
structure IsFirstFree (base : Text) (taken : List Text) (number first : Nat) : Prop where
  reached : number ≤ first
  free : numbered base first ∉ taken
  least : ∀ smaller, number ≤ smaller → smaller < first → numbered base smaller ∈ taken

variable {base : Text} {taken : List Text} {number first last : Nat}

theorem IsFirstFree.eq (isFirst : IsFirstFree base taken number first)
    (other : IsFirstFree base taken number last) : first = last := by
  rcases Nat.lt_trichotomy first last with before | same | behind
  · exact absurd (other.least first isFirst.reached before) isFirst.free
  · exact same
  · exact absurd (isFirst.least last other.reached behind) other.free

theorem isFirstFree_self (untaken : numbered base number ∉ taken) :
    IsFirstFree base taken number number where
  reached := Nat.le_refl number
  free := untaken
  least := fun _ lower upper => absurd upper (Nat.not_lt.mpr lower)

theorem isFirstFree_succ_iff (known : numbered base number ∈ taken) :
    IsFirstFree base taken (number + 1) first ↔ IsFirstFree base taken number first := by
  constructor
  · intro isFirst
    refine ⟨Nat.le_of_succ_le isFirst.reached, isFirst.free, ?_⟩
    intro smaller lower upper
    rcases Nat.eq_or_lt_of_le lower with same | above
    · exact same ▸ known
    · exact isFirst.least smaller above upper
  · intro isFirst
    have different : number ≠ first := fun same => isFirst.free (same ▸ known)
    refine ⟨Nat.lt_of_le_of_ne isFirst.reached different, isFirst.free, ?_⟩
    intro smaller lower upper
    exact isFirst.least smaller (Nat.le_of_succ_le lower) upper

private theorem search_of_isFirstFree :
    ∀ remaining number, first ≤ number + remaining → IsFirstFree base taken number first →
      search base taken remaining number = numbered base first := by
  intro remaining
  induction remaining with
  | zero =>
      intro number bound isFirst
      have same : number = first := Nat.le_antisymm isFirst.reached bound
      rw [search, same]
  | succ remaining induction =>
      intro number bound isFirst
      rw [search]
      split
      · rename_i known
        exact induction (number + 1) (by omega) ((isFirstFree_succ_iff known).mpr isFirst)
      · rename_i untaken
        rw [isFirst.eq (isFirstFree_self untaken)]

/-! ## Counting without a bound -/

/-- Counting: as long as the base with the number is taken, the number goes up by
one. -/
inductive Counts (base : Text) (taken : List Text) : Nat → Nat → Prop where
  | free {number : Nat} (untaken : numbered base number ∉ taken) : Counts base taken number number
  | taken {number last : Nat} (known : numbered base number ∈ taken)
      (later : Counts base taken (number + 1) last) : Counts base taken number last

theorem Counts.isFirstFree (counts : Counts base taken number last) :
    IsFirstFree base taken number last := by
  induction counts with
  | free untaken => exact isFirstFree_self untaken
  | taken known later induction => exact (isFirstFree_succ_iff known).mp induction

private theorem exists_counts_of_free {free : Nat} (untaken : numbered base free ∉ taken) :
    ∀ distance number, number + distance = free → ∃ last, Counts base taken number last := by
  intro distance
  induction distance with
  | zero =>
      intro number same
      have here : number = free := same
      exact ⟨number, .free (here ▸ untaken)⟩
  | succ distance induction =>
      intro number same
      by_cases known : numbered base number ∈ taken
      · obtain ⟨last, later⟩ := induction (number + 1) (by omega)
        exact ⟨last, .taken known later⟩
      · exact ⟨number, .free known⟩

/-- Counting ends, because only finitely many names are taken. -/
theorem exists_counts (base : Text) (taken : List Text) (number : Nat) :
    ∃ last, Counts base taken number last := by
  obtain ⟨free, lower, _, untaken⟩ := exists_free base taken number
  exact exists_counts_of_free untaken (free - number) number (by omega)

theorem counts_iff : Counts base taken number last ↔ IsFirstFree base taken number last := by
  refine ⟨Counts.isFirstFree, fun isFirst => ?_⟩
  obtain ⟨reached, counts⟩ := exists_counts base taken number
  rw [isFirst.eq counts.isFirstFree]
  exact counts

/-! ## The chosen name -/

theorem choose_of_not_mem (untaken : base ∉ taken) : choose base taken = base :=
  if_neg untaken

theorem exists_isFirstFree_of_mem (known : base ∈ taken) :
    ∃ first, IsFirstFree base taken 2 first ∧ choose base taken = numbered base first := by
  obtain ⟨first, counts⟩ := exists_counts base taken 2
  have isFirst := counts.isFirstFree
  obtain ⟨free, lower, upper, untaken⟩ := exists_free base taken 2
  have bound : first ≤ 2 + taken.length := by
    by_contra beyond
    exact untaken (isFirst.least free lower (by omega))
  refine ⟨first, isFirst, ?_⟩
  rw [choose, if_pos known]
  exact search_of_isFirstFree taken.length 2 bound isFirst

theorem choose_not_mem (base : Text) (taken : List Text) : choose base taken ∉ taken := by
  by_cases known : base ∈ taken
  · obtain ⟨first, isFirst, chosen⟩ := exists_isFirstFree_of_mem known
    rw [chosen]
    exact isFirst.free
  · rw [choose_of_not_mem known]
    exact known

theorem exists_numbered_of_choose_ne {base : Text} {taken : List Text}
    (changed : choose base taken ≠ base) : ∃ index, choose base taken = numbered base index := by
  by_cases known : base ∈ taken
  · obtain ⟨first, _, chosen⟩ := exists_isFirstFree_of_mem known
    exact ⟨first, chosen⟩
  · exact absurd (choose_of_not_mem known) changed

theorem choose_ne_nil {base : Text} {taken : List Text} (changed : choose base taken ≠ base) :
    choose base taken ≠ [] := by
  obtain ⟨index, found⟩ := exists_numbered_of_choose_ne changed
  rw [found, numbered, Text.ofNat]
  exact List.append_ne_nil_of_right_ne_nil base Nat.toDigits_ne_nil

theorem isPrefix_choose (base : Text) (taken : List Text) : base <+: choose base taken := by
  by_cases changed : choose base taken = base
  · exact ⟨[], by rw [changed, List.append_nil]⟩
  · obtain ⟨index, found⟩ := exists_numbered_of_choose_ne changed
    rw [found]
    exact List.prefix_append base _

/-! ## Two ways of looking -/

/-- The base if it is free, else the base with the number that counting from two
ends at. -/
inductive Numbers (base : Text) (taken : List Text) : Text → Prop where
  | free (untaken : base ∉ taken) : Numbers base taken base
  | taken {last : Nat} (known : base ∈ taken) (counted : Counts base taken 2 last) :
      Numbers base taken (numbered base last)

theorem numbers_iff {result : Text} : Numbers base taken result ↔ result = choose base taken := by
  by_cases known : base ∈ taken
  · obtain ⟨first, isFirst, chosen⟩ := exists_isFirstFree_of_mem known
    rw [chosen]
    constructor
    · intro numbers
      cases numbers with
      | free untaken => exact absurd known untaken
      | taken _ counted => rw [counted.isFirstFree.eq isFirst]
    · rintro rfl
      exact .taken known (counts_iff.mpr isFirst)
  · rw [choose_of_not_mem known]
    constructor
    · intro numbers
      cases numbers with
      | free untaken => rfl
      | taken taken _ => exact absurd taken known
    · rintro rfl
      exact .free known

/-- Trying names: as long as the name is taken, the base is tried with the next
number. -/
inductive Tries (base : Text) (taken : List Text) : Text → Nat → Text → Prop where
  | free {name : Text} {number : Nat} (untaken : name ∉ taken) : Tries base taken name number name
  | taken {name : Text} {number : Nat} {result : Text} (known : name ∈ taken)
      (later : Tries base taken (numbered base number) (number + 1) result) :
      Tries base taken name number result

theorem tries_numbered_iff {result : Text} :
    Tries base taken (numbered base number) (number + 1) result ↔
      ∃ last, Counts base taken number last ∧ result = numbered base last := by
  constructor
  · intro tries
    -- The induction is on the run, whose first name and next number are kept as equations.
    generalize start : numbered base number = name at tries
    generalize next : number + 1 = following at tries
    induction tries generalizing number with
    | free untaken => exact ⟨number, .free (start ▸ untaken), start.symm⟩
    | taken known later induction =>
        subst next
        obtain ⟨last, counts, same⟩ := induction rfl rfl
        exact ⟨last, .taken (start ▸ known) counts, same⟩
  · rintro ⟨last, counts, rfl⟩
    induction counts with
    | free untaken => exact .free untaken
    | taken known later induction => exact .taken known induction

theorem tries_base_iff {result : Text} :
    Tries base taken base 2 result ↔ result = choose base taken := by
  rw [← numbers_iff]
  constructor
  · intro tries
    cases tries with
    | free untaken => exact .free untaken
    | taken known later =>
        obtain ⟨last, counts, rfl⟩ := tries_numbered_iff.mp later
        exact .taken known counts
  · intro numbers
    cases numbers with
    | free untaken => exact .free untaken
    | taken known counted => exact .taken known (tries_numbered_iff.mpr ⟨_, counted, rfl⟩)

end FreshName

end Scaffold
