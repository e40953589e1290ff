import Scaffold.Proofs.Implementation.Naming

/-!
# Normalized lists

A normalized list has the entries of the list that it is made from.  Contexts and
errors get names that nothing else has, so names repeat only where they did before,
and there is nothing left to do for a second pass.
-/

namespace Scaffold

namespace Naming

variable {parameter : Parameter} {parameters : List Parameter} {taken reserved : List Text}

/-! ## What normalizing a list does -/

/-- An entry keeps its type, and its name if it has one and is no context and no
error. -/
structure Keeps (before after : Parameter) : Prop where
  type : after.type = before.type
  name : isGenerated before = false → before.isNamed = true → after.name = before.name

/-- A list as it is when it has been given all the names that it needs. -/
structure IsNormalized (reserved : List Text) (parameters normal : List Parameter) : Prop where
  entries : List.Forall₂ Keeps parameters normal
  named : normal = parameters ∧ (∀ parameter ∈ parameters, parameter.isNamed = false) ∨
    ∀ parameter ∈ normal, parameter.isNamed = true
  given : ∀ parameter ∈ normal, isGenerated parameter = true →
    parameter.isNamed = true ∧ parameter.name ≠ blank ∧ parameter.name ∉ reserved
  alone : normal.Pairwise fun left right =>
    isGenerated left = true ∨ isGenerated right = true → left.name ≠ right.name
  distinct : (bindings normal).Nodup ↔
    (bindings (parameters.filter fun parameter => !isGenerated parameter)).Nodup
  settled : normalize reserved normal = normal

/-! ## Entries of a named list -/

theorem isNamed_of_mem_nameEntries (member : parameter ∈ nameEntries taken parameters) :
    parameter.isNamed = true := by
  cases isNamedFrom_of_mem member with
  | generated kind known more chosen =>
      rw [Parameter.isNamed, chosen]
      simpa using (isBinding_choose known _).1
  | kept kind named listed => exact named
  | blanked kind unnamed =>
      rw [Parameter.isNamed, unnamed]
      rfl

theorem given_of_mem_nameEntries (member : parameter ∈ nameEntries taken parameters)
    (kind : isGenerated parameter = true) :
    parameter.name ≠ blank ∧ parameter.name ∉ taken := by
  cases isNamedFrom_of_mem member with
  | generated _ known more chosen =>
      rw [chosen]
      exact ⟨(isBinding_choose known _).2, fun old => FreshName.choose_not_mem _ _ (more old)⟩
  | kept plain | blanked plain =>
      rw [kind] at plain
      cases plain

theorem kept_of_mem_nameEntries (member : parameter ∈ nameEntries taken parameters)
    (kind : isGenerated parameter = false) :
    parameter.name = blank ∨ parameter.name ∈ keptNames parameters := by
  cases isNamedFrom_of_mem member with
  | generated other =>
      rw [kind] at other
      cases other
  | kept _ named listed =>
      by_cases unseen : parameter.name = blank
      · exact .inl unseen
      · exact .inr (mem_keptNames_iff.mpr ⟨parameter, listed, named, unseen, kind, rfl⟩)
  | blanked _ unnamed => exact .inl unnamed

theorem forall₂_keeps_nameEntries (taken : List Text) (parameters : List Parameter) :
    List.Forall₂ Keeps parameters (nameEntries taken parameters) := by
  fun_induction nameEntries taken parameters with
  | case1 taken => exact .nil
  | case2 taken first rest kind name induction =>
      exact .cons ⟨rfl, fun plain => absurd (kind.symm.trans plain) (by decide)⟩ induction
  | case3 taken first rest kind named induction => exact .cons ⟨rfl, fun _ _ => rfl⟩ induction
  | case4 taken first rest kind unnamed induction =>
      exact .cons ⟨rfl, fun _ named => absurd named unnamed⟩ induction

/-- Contexts and errors share their names with no other entry. -/
theorem pairwise_nameEntries (known : keptNames parameters ⊆ taken) :
    (nameEntries taken parameters).Pairwise fun left right =>
      isGenerated left = true ∨ isGenerated right = true → left.name ≠ right.name := by
  fun_induction nameEntries taken parameters with
  | case1 taken => exact .nil
  | case2 taken first rest kind name induction =>
      have inside : keptNames rest ⊆ taken :=
        List.Subset.trans keptNames_sublist_cons.subset known
      have visible : name ≠ blank := (isBinding_choose (by split <;> decide) taken).2
      have free : name ∉ taken := FreshName.choose_not_mem _ taken
      refine .cons (fun other member _ same => ?_)
        (induction (List.Subset.trans inside (List.subset_cons_self _ _)))
      change name = other.name at same
      cases otherKind : isGenerated other with
      | true =>
          exact (given_of_mem_nameEntries member otherKind).2 (same ▸ List.mem_cons_self)
      | false =>
          rcases kept_of_mem_nameEntries member otherKind with unseen | kept
          · exact visible (same.trans unseen)
          · exact free (same ▸ inside kept)
  | case3 taken first rest kind named induction =>
      have plain : isGenerated first = false := Bool.not_eq_true _ ▸ kind
      refine .cons (fun other member either same => ?_)
        (induction (List.Subset.trans keptNames_sublist_cons.subset known))
      obtain ⟨visible, free⟩ := given_of_mem_nameEntries member (either.resolve_left kind)
      rw [← same] at visible free
      rw [keptNames_cons_of_kept named visible plain] at known
      exact free (known List.mem_cons_self)
  | case4 taken first rest kind unnamed induction =>
      refine .cons (fun other member either same => ?_)
        (induction (List.Subset.trans keptNames_sublist_cons.subset known))
      exact (given_of_mem_nameEntries member (either.resolve_left kind)).1 same.symm

theorem nameEntries_nameEntries (taken : List Text) (parameters : List Parameter) :
    nameEntries taken (nameEntries taken parameters) = nameEntries taken parameters := by
  fun_induction nameEntries taken parameters with
  | case1 taken => rfl
  | case2 taken first rest kind name induction =>
      rw [nameEntries, if_pos (show isGenerated { first with name := name } = true from kind)]
      exact congrArg ({ first with name := name } :: ·) induction
  | case3 taken first rest kind named induction =>
      rw [nameEntries, if_neg kind, if_pos named, induction]
  | case4 taken first rest kind unnamed induction =>
      rw [nameEntries, if_neg (show ¬ isGenerated { first with name := blank } = true from kind),
        if_pos (show Parameter.isNamed { first with name := blank } = true from rfl), induction]

theorem keptNames_nameEntries (taken : List Text) (parameters : List Parameter) :
    keptNames (nameEntries taken parameters) = keptNames parameters := by
  fun_induction nameEntries taken parameters with
  | case1 taken => rfl
  | case2 taken first rest kind name induction =>
      have same : isGenerated { first with name := name } = true := kind
      simpa [keptNames, kind, same] using induction
  | case3 taken first rest kind named induction =>
      simp only [keptNames] at induction
      simp only [keptNames, List.filter_cons]
      split <;> simp [induction]
  | case4 taken first rest kind unnamed induction =>
      simpa [keptNames, unnamed] using induction

/-! ## Normalized lists -/

theorem keptNames_normalize (reserved : List Text) (parameters : List Parameter) :
    keptNames (normalize reserved parameters) = keptNames parameters := by
  rw [normalize]
  split
  · exact keptNames_nameEntries _ _
  · rfl

theorem needsNames_nameEntries (needed : needsNames parameters = true) (taken : List Text) :
    needsNames (nameEntries taken parameters) = true := by
  obtain ⟨entry, listed, -⟩ := List.any_eq_true.mp needed
  have something : nameEntries taken parameters ≠ [] := by
    rw [← List.length_pos_iff, ← (forall₂_keeps_nameEntries taken parameters).length_eq]
    exact List.length_pos_of_mem listed
  obtain ⟨first, rest, split⟩ := List.exists_cons_of_ne_nil something
  have member : first ∈ nameEntries taken parameters := split ▸ List.mem_cons_self
  exact List.any_eq_true.mpr
    ⟨first, member, by rw [isNamed_of_mem_nameEntries member, Bool.or_true]⟩

theorem bindings_filter (parameters : List Parameter) :
    bindings (parameters.filter fun parameter => !isGenerated parameter) =
      keptNames parameters := by
  simp only [bindings, keptNames, List.filter_filter]

/-- Every list is normalized in one pass. -/
theorem isNormalized_normalize (reserved : List Text) (parameters : List Parameter) :
    IsNormalized reserved parameters (normalize reserved parameters) := by
  have distinct : (bindings (normalize reserved parameters)).Nodup ↔
      (bindings (parameters.filter fun parameter => !isGenerated parameter)).Nodup := by
    rw [bindings_filter]
    refine ⟨fun different => ?_, nodup_bindings_normalize⟩
    rw [← keptNames_normalize reserved parameters]
    exact different.sublist (keptNames_sublist_bindings _)
  cases needed : needsNames parameters with
  | true =>
      rw [normalize_of_needsNames needed] at distinct ⊢
      exact {
        entries := forall₂_keeps_nameEntries _ _
        named := .inr fun _ => isNamed_of_mem_nameEntries
        given := fun parameter member kind => by
          obtain ⟨visible, free⟩ := given_of_mem_nameEntries member kind
          exact ⟨isNamed_of_mem_nameEntries member, visible,
            fun old => free (List.mem_append_left _ old)⟩
        alone := pairwise_nameEntries (List.subset_append_right _ _)
        distinct := distinct
        settled := by
          rw [normalize_of_needsNames (needsNames_nameEntries needed _), keptNames_nameEntries,
            nameEntries_nameEntries] }
  | false =>
      have plain := plain_of_needsNames_eq_false needed
      have same : normalize reserved parameters = parameters := normalize_of_bare needed
      rw [same] at distinct ⊢
      exact {
        entries := List.forall₂_same.mpr fun _ _ => ⟨rfl, fun _ _ => rfl⟩
        named := .inl ⟨rfl, fun parameter member => (plain parameter member).2⟩
        given := fun parameter member kind =>
          absurd ((plain parameter member).1.symm.trans kind) (by decide)
        alone := List.pairwise_of_forall_mem_list fun left first right second either => by
          rw [(plain left first).1, (plain right second).1] at either
          cases either <;> contradiction
        distinct := distinct
        settled := same }

end Naming

end Scaffold
