import Mathlib.Data.List.Forall2
import Scaffold.Registry
import Scaffold.Proofs.Sorting
import Scaffold.Proofs.Text.Order

/-!
# Registries do not depend on the order of implementations

The place of an implementation in a registry and its entry there are decided by
its package and by the name of its contract.  Implementations that agree in these
may come in any order: they are sorted to the same entries, and the directives
are sorted without repeats.
-/

namespace Scaffold

namespace Contract

theorem qualify_eq_of_name_eq {contract other : Contract} (same : contract.name = other.name)
    (name : Text) : contract.qualify name = other.qualify name := by
  have short : contract.shortName = other.shortName := by
    unfold shortName
    rw [same]
  rw [qualify, qualify, isBare, isBare, short]

end Contract

namespace Registry

/-! ## Places -/

/-- What the place of an implementation and its entry depend on. -/
structure Place where
  packageName : Text
  packagePath : Text
  contractName : Text
  deriving Repr, DecidableEq

namespace Place

def ofImplementation (implementation : Implementation) : Place where
  packageName := implementation.packageName
  packagePath := implementation.packagePath
  contractName := implementation.contract.name

/-- Bare contracts come before the others. -/
def rank (place : Place) : Nat :=
  if place.contractName = Contract.suffix then 0 else 1

/-- Order by package name and path, then the bare contract, then by contract
name. -/
def order : Place → Place → Ordering :=
  compareLex (fun left right => Text.order left.packageName right.packageName)
    (compareLex (fun left right => Text.order left.packagePath right.packagePath)
      (compareLex (fun left right => compare left.rank right.rank)
        (fun left right => Text.order left.contractName right.contractName)))

instance : Std.TransCmp order := by
  have names := Sorting.transCmp_of_key Text.order packageName
  have paths := Sorting.transCmp_of_key Text.order packagePath
  have ranks := Sorting.transCmp_of_key Ord.compare rank
  have contracts := Sorting.transCmp_of_key Text.order contractName
  unfold order
  infer_instance

instance : Std.LawfulEqCmp order where
  compare_self := Std.ReflCmp.compare_self
  eq_of_compare {left right} same := by
    simp only [order, compareLex_eq_eq] at same
    obtain ⟨names, paths, _, contracts⟩ := same
    cases left
    cases right
    simp only [Place.mk.injEq]
    exact ⟨Std.LawfulEqCmp.eq_of_compare names, Std.LawfulEqCmp.eq_of_compare paths,
      Std.LawfulEqCmp.eq_of_compare contracts⟩

theorem order_ofImplementation (left right : Implementation) :
    Registry.order left right = order (ofImplementation left) (ofImplementation right) :=
  rfl

end Place

/-- Two implementations have one place. -/
def SamePlace (left right : Implementation) : Prop :=
  Place.ofImplementation left = Place.ofImplementation right

theorem samePlaces_sort {implementations others : List Implementation}
    (same : implementations.Perm others) :
    List.Forall₂ SamePlace (sort implementations) (sort others) := by
  have places (items : List Implementation) :
      (sort items).map Place.ofImplementation =
        Sorting.sort Place.order (items.map Place.ofImplementation) :=
    Sorting.map_sort order Place.order_ofImplementation items
  have equal : (sort implementations).map Place.ofImplementation =
      (sort others).map Place.ofImplementation := by
    rw [places, places, Sorting.sort_eq_of_perm Place.order (same.map _)]
  rwa [← List.forall₂_eq_eq_eq, List.forall₂_map_left_iff, List.forall₂_map_right_iff] at equal

namespace SamePlace

variable {left right : Implementation} (same : SamePlace left right)

include same

theorem packageName_eq : left.packageName = right.packageName :=
  congrArg Place.packageName same

theorem packagePath_eq : left.packagePath = right.packagePath :=
  congrArg Place.packagePath same

theorem optionsName_eq : left.optionsName = right.optionsName :=
  Contract.qualify_eq_of_name_eq (congrArg Place.contractName same) _

theorem entry_eq (found : List (Text × Text)) : entry found left = entry found right := by
  unfold entry
  rw [same.packagePath_eq, same.optionsName_eq]

end SamePlace

variable {resolver : Resolver} {directory : Text} {implementations others : List Implementation}

theorem references_eq (same : List.Forall₂ SamePlace implementations others) :
    ∀ known found, references resolver directory known found implementations =
      references resolver directory known found others := by
  induction same with
  | nil => exact fun _ _ => rfl
  | cons first _ induction =>
      intro known found
      simp only [references, first.packagePath_eq, first.packageName_eq, induction]

theorem packageName_eq (same : List.Forall₂ SamePlace implementations others) :
    packageName resolver directory implementations = packageName resolver directory others := by
  unfold packageName
  induction same with
  | nil => rfl
  | cons first _ induction =>
      rw [List.find?_cons, List.find?_cons, first.packagePath_eq]
      cases decide (Path.normalize _ = directory) with
      | true => exact first.packageName_eq
      | false => exact induction

theorem optionsLines_eq_of_samePlaces (found : List (Text × Text))
    (same : List.Forall₂ SamePlace implementations others) :
    optionsLines found implementations = optionsLines found others := by
  have entries : implementations.map (entry found) = others.map (entry found) := by
    rw [← List.forall₂_eq_eq_eq, List.forall₂_map_left_iff, List.forall₂_map_right_iff]
    exact same.imp fun _ _ first => first.entry_eq found
  have lines (items : List Implementation) :
      items.map (fun implementation => ['\t'] ++ entry found implementation ++ [',']) =
        (items.map (entry found)).map fun entry => ['\t'] ++ entry ++ [','] := by
    rw [List.map_map]
    rfl
  rw [optionsLines, optionsLines, lines, lines, entries]

/-! ## Directives -/

namespace Directive

instance : Std.TransCmp order := by
  have sources := Sorting.transCmp_of_key Text.order source
  have destinations := Sorting.transCmp_of_key Text.order destination
  exact inferInstanceAs (Std.TransCmp (compareLex
    (fun left right : Directive => Text.order left.source right.source)
    (fun left right : Directive => Text.order left.destination right.destination)))

instance : Std.LawfulEqCmp order where
  compare_self := Std.ReflCmp.compare_self
  eq_of_compare {left right} same := by
    obtain ⟨sources, destinations⟩ := Ordering.then_eq_eq.mp same
    cases left
    cases right
    simp only [Directive.mk.injEq]
    exact ⟨Std.LawfulEqCmp.eq_of_compare sources, Std.LawfulEqCmp.eq_of_compare destinations⟩

end Directive

theorem mapM_eq {α β : Type} (make : α → Option β) (items : List α) :
    items.mapM make =
      if items.all fun item => (make item).isSome then some (items.filterMap make) else none := by
  induction items with
  | nil => rfl
  | cons item rest induction =>
      rw [List.mapM_cons, induction, List.all_cons, List.filterMap_cons]
      cases make item with
      | none => rfl
      | some made => cases rest.all fun item => (make item).isSome <;> rfl

/-- The directives for some implementations are made one by one and sorted
without repeats, if every contract has a file. -/
theorem mockDirectives_eq (current directory : Text) (implementations : List Implementation) :
    mockDirectives current directory implementations =
      if implementations.all fun implementation =>
          (Directive.ofImplementation? current directory implementation).isSome then
        .ok (Sorting.sort Directive.order (Sorting.distinct
          (implementations.filterMap (Directive.ofImplementation? current directory))))
      else .error .noPath := by
  rw [mockDirectives, mapM_eq]
  split <;> rename_i made <;> split at made <;> simp_all

theorem mockDirectives_perm (current directory : Text) (same : implementations.Perm others) :
    mockDirectives current directory implementations =
      mockDirectives current directory others := by
  rw [mockDirectives_eq, mockDirectives_eq, same.all_eq,
    Sorting.sort_eq_of_perm Directive.order (Sorting.distinct_perm (same.filterMap _))]

/-! ## Texts -/

theorem exists_render_iff {current : Text} {packageName? : Option Text} :
    (∃ rendered, render resolver current directory packageName? implementations = .ok rendered) ↔
      ∀ implementation ∈ implementations, implementation.contract.definitionPath ≠ [] := by
  have filed (implementation : Implementation) :
      (Directive.ofImplementation? current (Path.normalize directory) implementation).isSome =
        !implementation.contract.definitionPath.isEmpty := by
    simp only [Directive.ofImplementation?]
    cases implementation.contract.definitionPath.isEmpty <;> rfl
  have all : ((sort implementations).all fun implementation =>
      (Directive.ofImplementation? current (Path.normalize directory) implementation).isSome) =
        true ↔ ∀ implementation ∈ implementations, implementation.contract.definitionPath ≠ [] := by
    simp only [List.all_eq_true, filed, sort, Sorting.mem_sort, Bool.not_eq_true',
      List.isEmpty_eq_false_iff]
  rw [← all]
  simp only [render, mockDirectives_eq]
  cases List.all (sort implementations) _ <;> simp

/-- The registry for some implementations is the one for them in any other order. -/
theorem render_perm (resolver : Resolver) (current directory : Text) (packageName? : Option Text)
    (same : implementations.Perm others) :
    render resolver current directory packageName? implementations =
      render resolver current directory packageName? others := by
  have places := samePlaces_sort same
  have sorted : (sort implementations).Perm (sort others) :=
    (Sorting.sort_perm order implementations).trans
      (same.trans (Sorting.sort_perm order others).symm)
  simp only [render, packageName_eq places, references_eq places,
    optionsLines_eq_of_samePlaces _ places, mockDirectives_perm current _ sorted]

/-- An implementation of the contract `XRepository` that a file of its package
declares. -/
def tied (fileName : Text) : Implementation where
  contract := { name := "XRepository", packagePath := "api", fileName := fileName }
  packageName := "i"
  packagePath := "i"

/-- Two implementations with one place may change places. -/
theorem render_perm_tied :
    [tied "a.go", tied "b.go"].Perm [tied "b.go", tied "a.go"] ∧
      ∃ rendered,
        render ⟨"/p", ⟨"m", "/p"⟩⟩ "/p" "i" none [tied "a.go", tied "b.go"] = .ok rendered ∧
          render ⟨"/p", ⟨"m", "/p"⟩⟩ "/p" "i" none [tied "b.go", tied "a.go"] = .ok rendered := by
  have swapped : [tied "a.go", tied "b.go"].Perm [tied "b.go", tied "a.go"] := .swap _ _ _
  obtain ⟨rendered, written⟩ : ∃ rendered,
      render ⟨"/p", ⟨"m", "/p"⟩⟩ "/p" "i" none [tied "a.go", tied "b.go"] = .ok rendered :=
    exists_render_iff.mpr (by decide)
  have same := render_perm ⟨"/p", ⟨"m", "/p"⟩⟩ "/p" "i" none swapped
  exact ⟨swapped, rendered, written, same ▸ written⟩

end Registry

end Scaffold
