import Scaffold.Module.Search
import Scaffold.Proofs.Disk.Growth

/-!
# The module stays known

The search for a module looks at manifests only, and no source file is one.
Writing source files does not change what the search finds.
-/

namespace Scaffold

namespace Module

theorem components_manifest {components : List Text}
    (proper : ∀ component ∈ components, Path.IsComponent component) :
    Path.components (Path.within (Disk.shownComponents components) Manifest.fileName) =
      components ++ [Manifest.fileName] := by
  have relative : Path.isAbsolute Manifest.fileName = false := by decide
  have name : Path.components Manifest.fileName = [Manifest.fileName] := by decide
  rw [Path.components_within relative, Disk.shownComponents, Path.components_slash_cons,
    Path.components_join_slash proper]
  exact congrArg _ name

variable {before after : Disk}

/-- No manifest appears or changes. -/
theorem ofDirectory?_eq_of_growsTo (tree : before.IsTree) (grown : before.GrowsTo after)
    (components : List Text) (proper : ∀ component ∈ components, Path.IsComponent component)
    (noUp : Path.up ∉ components) :
    ofDirectory? after components = ofDirectory? before components := by
  have manifest := components_manifest proper
  have stays : Path.up ∉ Path.components
      (Path.within (Disk.shownComponents components) Manifest.fileName) := by
    rw [manifest, List.mem_append, List.mem_singleton]
    rintro (inside | last)
    · exact noUp inside
    · exact absurd last (by decide)
  have other : ¬ Disk.IsSource (Path.components
      (Path.within (Disk.shownComponents components) Manifest.fileName)) := by
    rw [manifest]
    rintro ⟨parent, name, same, source⟩
    obtain ⟨_, last⟩ := List.append_inj' same rfl
    rw [← (List.cons.inj last).1] at source
    exact absurd source (by decide)
  unfold ofDirectory?
  dsimp only
  rw [grown.fileAt? tree stays other]

theorem search_nil (disk : Disk) (start : Text) :
    search disk start [] = (ofDirectory? disk []).getD (.error (.noManifest start)) := rfl

-- Without the seal the look at the disk would be computed as far as it goes.
seal ofDirectory? in
theorem search_cons (disk : Disk) (start last : Text) (parents : List Text) :
    search disk start (last :: parents) =
      match ofDirectory? disk (last :: parents).reverse with
      | some found => found
      | none => search disk start parents := rfl

theorem search_eq_of_growsTo (tree : before.IsTree) (grown : before.GrowsTo after)
    (start : Text) {components : List Text}
    (proper : ∀ component ∈ components, Path.IsComponent component)
    (noUp : Path.up ∉ components) :
    search after start components = search before start components := by
  induction components with
  | nil =>
      have root := ofDirectory?_eq_of_growsTo tree grown []
        (fun _ member => absurd member List.not_mem_nil) List.not_mem_nil
      simp only [search_nil, root]
  | cons last parents induction =>
      have here := ofDirectory?_eq_of_growsTo tree grown (last :: parents).reverse
        (fun component member => proper component (List.mem_reverse.mp member))
        (fun member => noUp (List.mem_reverse.mp member))
      have above := induction
        (fun component member => proper component (List.mem_cons_of_mem last member))
        (fun member => noUp (List.mem_cons_of_mem last member))
      simp only [search_cons, here, above]

theorem find_eq_of_growsTo (tree : before.IsTree) (grown : before.GrowsTo after)
    (current start : Text) : find after current start = find before current start := by
  apply search_eq_of_growsTo tree grown
  · intro component member
    exact Path.isComponent_of_mem_components component (List.mem_reverse.mp member)
  · intro member
    exact Path.up_not_mem_components_resolve current start (List.mem_reverse.mp member)

end Module

end Scaffold
