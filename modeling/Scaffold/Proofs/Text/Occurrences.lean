import Mathlib.Data.List.Perm.Subperm
import Scaffold.Text.Basic

/-!
# Texts that occur in a text

Some texts occur in a text at places apart from each other, so each of them occurs as
often as it is listed.
-/

namespace Scaffold

namespace Text

/-- The texts occur one behind the other. -/
inductive Follows : List Text → Text → Prop where
  | nil (text : Text) : Follows [] text
  | cons {first : Text} {rest : List Text} (front : Text) {behind : Text}
      (later : Follows rest behind) : Follows (first :: rest) (front ++ first ++ behind)

/-- The texts occur apart from each other, in some order. -/
def Occur (texts : List Text) (text : Text) : Prop :=
  ∃ order : List Text, order.Perm texts ∧ Follows order text

namespace Follows

variable {texts others : List Text} {text other : Text}

theorem append_left (follows : Follows texts text) (front : Text) :
    Follows texts (front ++ text) := by
  cases follows with
  | nil => exact .nil _
  | cons before later =>
      rw [← List.append_assoc, ← List.append_assoc]
      exact .cons (front ++ before) later

theorem append_right (follows : Follows texts text) (behind : Text) :
    Follows texts (text ++ behind) := by
  induction follows with
  | nil => exact .nil _
  | cons front _ induction =>
      rw [List.append_assoc]
      exact .cons front induction

theorem append (follows : Follows texts text) (also : Follows others other) :
    Follows (texts ++ others) (text ++ other) := by
  induction follows with
  | nil text => exact also.append_left text
  | cons front _ induction =>
      rw [List.append_assoc]
      exact .cons front induction

theorem of_sublist (fewer : others.Sublist texts) :
    ∀ {text}, Follows texts text → Follows others text := by
  induction fewer with
  | slnil => exact fun follows => follows
  | cons first _ induction =>
      intro text follows
      cases follows with
      | cons front later => exact (induction later).append_left (front ++ first)
  | cons_cons first _ induction =>
      intro text follows
      cases follows with
      | cons front later => exact .cons front (induction later)

theorem of_mem (follows : Follows texts text) : ∀ part ∈ texts, part <:+: text := by
  induction follows with
  | nil => simp
  | @cons first rest front behind _ induction =>
      refine List.forall_mem_cons.mpr ⟨⟨front, behind, rfl⟩, fun part member => ?_⟩
      exact (induction part member).trans (List.suffix_append _ _).isInfix

theorem map_of_isPrefix {shorten : Text → Text} (shorter : ∀ text, shorten text <+: text)
    (follows : Follows texts text) : Follows (texts.map shorten) text := by
  induction follows with
  | nil => exact .nil _
  | @cons first rest front behind _ induction =>
      obtain ⟨others, whole⟩ := shorter first
      have parts : front ++ first ++ behind = front ++ shorten first ++ (others ++ behind) := by
        conv_lhs => rw [← whole]
        simp only [List.append_assoc]
      rw [parts]
      exact .cons front (induction.append_left others)

end Follows

namespace Occur

variable {texts others : List Text} {text other : Text}

theorem nil (text : Text) : Occur [] text :=
  ⟨[], .refl [], .nil text⟩

theorem singleton (text : Text) : Occur [text] text := by
  refine ⟨[text], .refl _, ?_⟩
  have here : Follows [text] ([] ++ text ++ []) := .cons [] (.nil [])
  rwa [List.nil_append, List.append_nil] at here

theorem append_left (occur : Occur texts text) (front : Text) : Occur texts (front ++ text) :=
  occur.imp fun _ found => ⟨found.1, found.2.append_left front⟩

theorem append_right (occur : Occur texts text) (behind : Text) : Occur texts (text ++ behind) :=
  occur.imp fun _ found => ⟨found.1, found.2.append_right behind⟩

theorem append (occur : Occur texts text) (also : Occur others other) :
    Occur (texts ++ others) (text ++ other) := by
  obtain ⟨order, same, follows⟩ := occur
  obtain ⟨otherOrder, alsoSame, alsoFollows⟩ := also
  exact ⟨order ++ otherOrder, same.append alsoSame, follows.append alsoFollows⟩

theorem of_subperm (occur : Occur texts text) (fewer : others.Subperm texts) :
    Occur others text := by
  obtain ⟨order, same, follows⟩ := occur
  obtain ⟨kept, alike, sublist⟩ := fewer.trans same.symm.subperm
  exact ⟨kept, alike, follows.of_sublist sublist⟩

theorem of_perm (occur : Occur texts text) (same : others.Perm texts) : Occur others text :=
  occur.of_subperm same.subperm

theorem map_of_subperm {α : Type} {part : α → Text} {items fewer : List α}
    (occur : Occur (items.map part) text) (among : fewer.Subperm items) :
    Occur (fewer.map part) text := by
  obtain ⟨kept, same, sublist⟩ := among
  exact occur.of_subperm ⟨kept.map part, same.map part, sublist.map part⟩

theorem of_mem (occur : Occur texts text) : ∀ part ∈ texts, part <:+: text := by
  obtain ⟨order, same, follows⟩ := occur
  exact fun part member => follows.of_mem part (same.mem_iff.mpr member)

theorem map_of_isPrefix {shorten : Text → Text} (shorter : ∀ text, shorten text <+: text)
    (occur : Occur texts text) : Occur (texts.map shorten) text := by
  obtain ⟨order, same, follows⟩ := occur
  exact ⟨order.map shorten, same.map shorten, follows.map_of_isPrefix shorter⟩

theorem join {groups : List (List Text)} {rows : List Text} (separator : Text)
    (each : List.Forall₂ Occur groups rows) : Occur groups.flatten (Text.join separator rows) := by
  induction each with
  | nil => exact nil _
  | @cons group row groups rows first later induction =>
      cases later with
      | nil => simpa [Text.join] using first
      | cons second rest =>
          rw [List.flatten_cons, Text.join]
          exact (first.append_right separator).append induction

end Occur

end Text

end Scaffold
