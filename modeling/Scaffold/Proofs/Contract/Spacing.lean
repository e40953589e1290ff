import Scaffold.Proofs.Contract.Cuts
import Scaffold.Proofs.Contract.WideSpaces
import Scaffold.Proofs.Text.Classes

/-!
# Spaces that do not matter

A parameter list is read in the same way however many spaces stand between two of its
entries, or between the name and the type of one of them.  The places of such spaces
are told from the list with a single space in each.
-/

namespace Scaffold

namespace Signature

open Text (IsTrimmed isBlank trim trimStart trimEnd)

variable {text : Marked Char}

/-! ## A single entry -/

/-- Entries that show the same name and type, or the same entry. -/
structure IsLike (entry other : Text) : Prop where
  shown : named? entry = named? other
  bare : named? entry = none → entry = other

theorem IsLike.refl (entry : Text) : IsLike entry entry :=
  ⟨rfl, fun _ => rfl⟩

theorem isPrefix_append_cons_iff {beginning name rest : Text} {space : Char}
    (foreign : space ∉ beginning) : beginning <+: name ++ space :: rest ↔ beginning <+: name := by
  refine ⟨fun begins => ?_, fun begins => begins.trans (List.prefix_append _ _)⟩
  rcases List.prefix_or_prefix_of_prefix begins (List.prefix_append name _) with
    short | ⟨more, rfl⟩
  · exact short
  · cases more with
    | nil =>
        exact ⟨[], by rw [List.append_nil, List.append_nil]⟩
    | cons character more =>
        obtain ⟨rfl, -⟩ := List.cons_prefix_cons.mp ((List.prefix_append_right_inj name).mp begins)
        exact absurd (List.mem_append_right _ List.mem_cons_self) foreign

theorem isTypeExpression_append_blank {name : Text} {space : Char} (blank : isBlank space = true)
    (rest : Text) : isTypeExpression (name ++ space :: rest) = isTypeExpression name := by
  have plain : ∀ beginning ∈ typeBeginnings, (beginning.all fun letter => !isBlank letter) = true := by
    decide
  have separates : Text.isWord space = false := by
    by_contra word
    have solid := Text.isBlank_of_isWord (Bool.not_eq_false _ ▸ word)
    rw [blank] at solid
    exact Bool.noConfusion solid
  rw [Bool.eq_iff_iff, isTypeExpression, isTypeExpression, List.any_eq_true, List.any_eq_true]
  refine exists_congr fun beginning => and_congr_right fun member => ?_
  have foreign : space ∉ beginning := fun inside => by
    have solid := List.all_eq_true.mp (plain beginning member) space inside
    rw [blank] at solid
    exact Bool.noConfusion solid
  rw [Bool.and_eq_true, Bool.and_eq_true, Text.startsWith, Text.startsWith,
    List.isPrefixOf_iff_prefix, List.isPrefixOf_iff_prefix, isPrefix_append_cons_iff foreign]
  refine and_congr_right fun begins => ?_
  obtain ⟨letters, split⟩ := begins
  rw [← split, List.append_assoc, List.drop_left, List.drop_left]
  cases letters with
  | nil => simp [separates]
  | cons letter letters => rfl

section Shown

variable {entry name type : Text}

theorem Shows.words_eq {word kind : Text} (trimmed : IsTrimmed entry)
    (shows : Shows entry name type) (also : Shows entry word kind) : word = name := by
  have found := (named?_eq_some_iff trimmed).mpr also
  rw [(named?_eq_some_iff trimmed).mpr shows, Option.some.injEq, Prod.mk.injEq] at found
  exact found.1.symm

theorem Shows.respaced {gap : Text} (shows : Shows entry name type) (apart : gap ≠ [])
    (blank : ∀ character ∈ gap, isBlank character = true) :
    Shows (name ++ (gap ++ type)) name type where
  plain := by
    obtain ⟨own, rfl, some, blanks⟩ := shows.parts
    obtain ⟨space, spaces, rfl⟩ := List.exists_cons_of_ne_nil some
    obtain ⟨other, others, rfl⟩ := List.exists_cons_of_ne_nil apart
    have plain := shows.plain
    rw [List.cons_append, isTypeExpression_append_blank (blanks space List.mem_cons_self)] at plain
    rw [List.cons_append, isTypeExpression_append_blank (blank other List.mem_cons_self), plain]
  parts := ⟨gap, rfl, apart, blank⟩
  named := shows.named
  solid := shows.solid
  typed := shows.typed

end Shown

/-- In an entry only the spaces between its name and its type may be wide. -/
theorem isLike_whole (trimmed : IsTrimmed (text.blanked ' '))
    (spacing : IsSpacing (fun before _ =>
      ∃ type, Shows (text.blanked ' ') (trimEnd before) type) text) :
    IsLike text.whole (text.blanked ' ') := by
  by_cases shown : IsNamed (text.blanked ' ')
  · obtain ⟨name, type, shows⟩ := shown
    obtain ⟨gap, split, apart, blank⟩ := shows.parts
    obtain ⟨first, others, rfl, same, rest⟩ := Marked.exists_of_blanked_append split
    obtain ⟨middle, last, rfl, spaces, ends⟩ := Marked.exists_of_blanked_append rest
    have word : first.whole = name := by
      rw [← same]
      refine spacing.left.whole_eq fun before after cut _ => ?_
      have solid := shows.solid ' ' (by rw [← same, cut]; simp)
      exact absurd solid (by decide)
    have kind : last.whole = type := by
      rw [← ends]
      refine spacing.right.right.whole_eq fun before after cut => ?_
      rintro ⟨other, also⟩
      -- A name that reaches into the type is longer than the name.
      have longer := also.words_eq trimmed shows
      obtain ⟨letter, letters, begins, solid⟩ := (ends ▸ shows.typed).begins
      rw [cut] at begins
      cases before with
      | nil => exact ne_space_of_solid solid (List.cons.inj begins).1.symm
      | cons character before =>
          obtain ⟨rfl, -⟩ := List.cons.inj begins
          rw [← List.append_assoc, Text.trimEnd_append_cons solid, same] at longer
          have lengths := congrArg List.length longer
          simp only [List.length_append, List.length_cons] at lengths
          omega
    have wide : middle.whole ≠ [] := whole_ne_nil spacing.right.left.runs (spaces ▸ apart)
    have blanks := isBlank_whole spacing.right.left.runs (spaces ▸ blank)
    have also := shows.respaced wide blanks
    have whole : Marked.whole (first ++ (middle ++ last)) = name ++ (middle.whole ++ type) := by
      rw [Marked.whole_append, Marked.whole_append, word, kind]
    rw [← whole] at also
    have named := (named?_eq_some_iff (isTrimmed_whole trimmed)).mpr also
    refine ⟨named.trans ((named?_eq_some_iff trimmed).mpr shows).symm, fun none => ?_⟩
    rw [named] at none
    cases none
  · rw [spacing.whole_eq fun before after _ ⟨type, shows⟩ => shown ⟨_, type, shows⟩]
    exact .refl _

theorem exists_sides {before after : Text} (trimmed : IsTrimmed (before ++ ' ' :: after)) :
    (∃ first others, before = first :: others ∧ isBlank first = false) ∧
      ∃ front last, after = front ++ [last] ∧ isBlank last = false := by
  obtain ⟨first, others, begins, solid⟩ := trimmed.begins
  obtain ⟨front, last, ends, closed⟩ := trimmed.ends
  constructor
  · cases before with
    | nil => exact absurd (List.cons.inj begins).1.symm (ne_space_of_solid solid)
    | cons character before =>
        obtain ⟨rfl, -⟩ := List.cons.inj begins
        exact ⟨_, before, rfl, solid⟩
  · rcases List.eq_nil_or_concat' after with rfl | ⟨behind, character, rfl⟩
    · exact absurd (List.append_inj' ends rfl).2 fun same =>
        ne_space_of_solid closed (List.cons.inj same).1.symm
    · have split : before ++ ' ' :: (behind ++ [character]) =
          (before ++ ' ' :: behind) ++ [character] := by simp
      obtain ⟨-, same⟩ := List.append_inj' (split.symm.trans ends) rfl
      exact ⟨behind, character, rfl, (List.cons.inj same).1 ▸ closed⟩

/-- The two texts have nothing to be kept apart, or they are the name and the type of
an entry. -/
def IsBetween (before after : Text) : Prop :=
  trim before = [] ∨ trim after = [] ∨
    ∃ type, Shows (trim (before ++ ' ' :: after)) (trim before) type

theorem isBetween_iff {before after : Text} :
    IsBetween before after ↔ trim before = [] ∨ trim after = [] ∨
      (named? (trim (before ++ ' ' :: after))).map Prod.fst = some (trim before) := by
  by_cases none : trim before = []
  · simp [IsBetween, none]
  refine or_congr_right (or_congr_right ?_)
  have some : trim (before ++ ' ' :: after) ≠ [] := by
    rw [Text.trim_eq_nil_iff] at none
    rw [ne_eq, Text.trim_eq_nil_iff]
    exact fun blank => none fun character member => blank character (List.mem_append_left _ member)
  rw [Option.map_eq_some_iff, Prod.exists]
  simp only [named?_eq_some_iff (Text.isTrimmed_trim some)]
  constructor
  · exact fun ⟨type, shows⟩ => ⟨_, type, shows, rfl⟩
  · rintro ⟨_, type, shows, rfl⟩
    exact ⟨type, shows⟩

instance (before after : Text) : Decidable (IsBetween before after) :=
  decidable_of_iff _ isBetween_iff.symm

/-- A space that is loose between blanks and inside of an entry stands behind its name. -/
theorem exists_shows_of_isBetween {lead before after tail : Text}
    (trimmed : IsTrimmed (before ++ ' ' :: after))
    (blank : ∀ character ∈ lead, isBlank character = true)
    (blanks : ∀ character ∈ tail, isBlank character = true)
    (between : IsBetween (lead ++ before) (after ++ tail)) :
    ∃ type, Shows (before ++ ' ' :: after) (trimEnd before) type := by
  obtain ⟨⟨first, others, rfl, solid⟩, front, last, rfl, closed⟩ := exists_sides trimmed
  have word : trim (lead ++ first :: others) = trimEnd (first :: others) := by
    rw [trim, Text.trimStart_append_of_blank blank solid]
  rcases between with nothing | nothing | ⟨type, shows⟩
  · have inside := Text.trim_eq_nil_iff.mp nothing first (by simp)
    rw [solid] at inside
    exact Bool.noConfusion inside
  · have inside := Text.trim_eq_nil_iff.mp nothing last (by simp)
    rw [closed] at inside
    exact Bool.noConfusion inside
  · have same : lead ++ first :: others ++ ' ' :: (front ++ [last] ++ tail) =
        lead ++ ((first :: others ++ ' ' :: (front ++ [last])) ++ tail) := by simp
    rw [same, trimmed.trim_append blank blanks, word] at shows
    exact ⟨type, shows⟩

theorem entry_eq_nil {piece : Text} (blank : ∀ character ∈ piece, isBlank character = true) :
    entry piece = [] := by
  rw [entry, Text.trim_eq_nil_iff.mpr blank]
  rfl

theorem entry_eq_singleton {piece : Text} (some : trim piece ≠ []) : entry piece = [trim piece] :=
  List.filter_eq_self.mpr (List.forall_mem_singleton.mpr (by simpa using some))

theorem forall₂_entry (spacing : IsSpacing IsBetween text) :
    List.Forall₂ IsLike (entry text.whole) (entry (text.blanked ' ')) := by
  by_cases none : trim (text.blanked ' ') = []
  · have blank := Text.trim_eq_nil_iff.mp none
    rw [entry_eq_nil blank, entry_eq_nil (isBlank_whole spacing.runs blank)]
    exact .nil
  · obtain ⟨lead, core, tail, split, same, trimmed, blank, blanks, whole⟩ :=
      exists_core spacing.runs none
    have wholes : trim text.whole ≠ [] := whole ▸ (isTrimmed_whole trimmed).ne_nil
    rw [entry_eq_singleton none, entry_eq_singleton wholes, whole, ← same]
    refine .cons (isLike_whole trimmed ?_) .nil
    subst split
    refine spacing.right.left.mono fun before after cut between => ?_
    rw [cut] at trimmed ⊢
    exact exists_shows_of_isBetween trimmed blank blanks between

/-! ## The entries of a list -/

/-- The piece in which the front of a list ends. -/
def pieceBefore (front : Text) : Text :=
  (splitTopLevel [','] front).getLastD []

/-- The piece with which a list goes on at a depth. -/
def pieceBehind (level : Int) (behind : Text) : Text :=
  (splitFrom [','] level [] behind).headD []

/-- In the piece of a list to which a space between two texts belongs, more than one
space may stand there. -/
def IsLooseIn (before after : Text) : Prop :=
  IsBetween (pieceBefore before) (pieceBehind (depth before) after)

section Pieces

variable {front rest behind : Text} {level : Int}

theorem pieceBefore_of_isQuiet (quiet : IsQuiet 0 front) : pieceBefore front = front := by
  rw [pieceBefore, splitTopLevel, splitFrom_of_isQuiet quiet]
  rfl

theorem pieceBefore_append_comma (quiet : IsQuiet 0 front) (outside : depth front = 0) :
    pieceBefore (front ++ ',' :: rest) = pieceBefore rest := by
  obtain ⟨piece, pieces, split⟩ := List.exists_cons_of_ne_nil (splitFrom_ne_nil [','] rest 0 [])
  rw [pieceBefore, pieceBefore, splitTopLevel,
    splitFrom_append_comma quiet (by rw [outside, Int.zero_add]), splitTopLevel, split]
  rfl

theorem pieceBehind_of_isQuiet (quiet : IsQuiet level behind) :
    pieceBehind level behind = behind := by
  rw [pieceBehind, splitFrom_of_isQuiet quiet]
  rfl

theorem pieceBehind_append_comma (quiet : IsQuiet level behind)
    (outside : level + depth behind = 0) : pieceBehind level (behind ++ ',' :: rest) = behind := by
  rw [pieceBehind, splitFrom_append_comma quiet outside]
  rfl

theorem isQuiet_append : IsQuiet level (front ++ behind) ↔
    IsQuiet level front ∧ IsQuiet (level + depth front) behind := by
  induction front generalizing level with
  | nil => simp [IsQuiet]
  | cons character front induction =>
      rw [List.cons_append, isQuiet_cons, induction, isQuiet_cons, depth_cons, Int.add_assoc,
        and_assoc]

theorem isQuiet_sides (quiet : IsQuiet 0 (front ++ ' ' :: behind)) :
    IsQuiet 0 front ∧ IsQuiet (depth front) behind := by
  obtain ⟨early, late⟩ := isQuiet_append.mp quiet
  rw [← List.singleton_append, isQuiet_append_of_isBlank isBlank_space, Int.zero_add] at late
  exact ⟨early, late⟩

theorem depth_sides (front behind : Text) :
    depth (front ++ ' ' :: behind) = depth front + depth behind := by
  rw [depth_append, depth_cons]
  exact congrArg (depth front + ·) (Int.zero_add _)

end Pieces

/-- The entries of a list do not depend on how wide such spaces are. -/
theorem forall₂_segments (list : Marked Char) (spacing : IsSpacing IsLooseIn list) :
    List.Forall₂ IsLike (segments list.whole) (segments (list.blanked ' ')) := by
  induction length : list.length using Nat.strong_induction_on generalizing list with
  | _ _ induction =>
      rcases isQuiet_or_exists 0 (list.blanked ' ') with
        quiet | ⟨front, rest, split, quiet, outside⟩
      · rw [segments_of_isQuiet quiet, segments_of_isQuiet ((isQuiet_whole_iff spacing.runs).mpr quiet)]
        refine forall₂_entry (spacing.mono fun before after cut loose => ?_)
        rw [cut] at quiet
        obtain ⟨early, late⟩ := isQuiet_sides quiet
        rwa [IsLooseIn, pieceBefore_of_isQuiet early, pieceBehind_of_isQuiet late] at loose
      · rw [Int.zero_add] at outside
        obtain ⟨head, others, rfl, rfl, same⟩ := Marked.exists_of_blanked_append split
        obtain ⟨tail, rfl, rfl⟩ := Marked.exists_of_blanked_cons (by decide) same
        have runs := spacing.left.runs
        have wide := (isQuiet_whole_iff runs).mpr quiet
        have level := (depth_whole runs).trans outside
        rw [split, segments_append_comma quiet outside, Marked.whole_append, Marked.whole_symbol,
          segments_append_comma wide level]
        refine List.rel_append (forall₂_entry (spacing.left.mono fun before after cut loose => ?_))
          (induction _ ?_ tail ?_ rfl)
        · rw [cut] at quiet outside
          rw [depth_sides] at outside
          obtain ⟨early, late⟩ := isQuiet_sides quiet
          rwa [IsLooseIn, pieceBefore_of_isQuiet early, Marked.blanked_symbol,
            pieceBehind_append_comma late outside] at loose
        · rw [← length, List.length_append, List.length_cons]
          omega
        · have behind := (List.append_cons head (.inl ',') tail ▸ spacing).right
          refine behind.mono fun before after cut loose => ?_
          have flat : depthChange ',' = 0 := by decide
          have level : depth (head.blanked ' ' ++ ',' :: before) = depth before := by
            rw [depth_append, outside, Int.zero_add, depth_cons, flat, Int.zero_add]
          rw [Marked.blanked_append, List.append_assoc] at loose
          have here : IsLooseIn (head.blanked ' ' ++ ',' :: before) after := loose
          rwa [IsLooseIn, pieceBefore_append_comma quiet outside, level] at here

/-! ## Lists in parentheses -/

/-- The two sides of a space, without the blanks around both and without the parentheses
around these. -/
def opened (before after : Text) : Text × Text :=
  let front := trimStart before
  let behind := trimEnd after
  if Text.startsWith ['('] front ∧ Text.endsWith [')'] behind then
    (front.drop 1, Text.dropLast 1 behind)
  else (front, behind)

/-- More than one space may stand between two texts that are a parameter list. -/
def IsLoose (before after : Text) : Prop :=
  IsLooseIn (opened before after).1 (opened before after).2

instance (before after : Text) : Decidable (IsLoose before after) :=
  inferInstanceAs (Decidable (IsBetween _ _))

section Parentheses

variable {first last : Char} {list front others : Text}

theorem startsWith_cons_iff : Text.startsWith ['('] (first :: others) = true ↔ first = '(' := by
  rw [Text.startsWith, List.isPrefixOf_iff_prefix, List.cons_prefix_cons]
  exact ⟨fun both => both.1.symm, fun same => ⟨same.symm, List.nil_prefix⟩⟩

theorem endsWith_concat_iff : Text.endsWith [')'] (front ++ [last]) = true ↔ last = ')' := by
  rw [Text.endsWith, List.isSuffixOf_iff_suffix]
  constructor
  · rintro ⟨more, same⟩
    exact (List.cons.inj (List.append_inj' same rfl).2).1.symm
  · rintro rfl
    exact List.suffix_append _ _

theorem inner_of_trim {text : Text} (same : trim text = list) (trimmed : IsTrimmed list) :
    inner text = inner list := by
  rw [inner, inner, same, trimmed.trim_eq]

theorem inner_of_bare (trimmed : IsTrimmed list) (begins : list = first :: others)
    (ends : list = front ++ [last]) (bare : ¬ (first = '(' ∧ last = ')')) : inner list = list := by
  rw [inner, trimmed.trim_eq, if_neg]
  rintro ⟨opening, closing⟩
  rw [begins, startsWith_cons_iff] at opening
  rw [ends, endsWith_concat_iff] at closing
  exact bare ⟨opening, closing⟩

theorem opened_eq {lead tail : Text} (blank : ∀ character ∈ lead, isBlank character = true)
    (solid : isBlank first = false) (closed : isBlank last = false)
    (blanks : ∀ character ∈ tail, isBlank character = true) :
    opened (lead ++ first :: others) (front ++ [last] ++ tail) =
      if first = '(' ∧ last = ')' then (others, front) else (first :: others, front ++ [last]) := by
  have single : IsTrimmed [last] := ⟨⟨last, [], rfl, closed⟩, [], last, rfl, closed⟩
  have dropped : Text.dropLast 1 (front ++ [last]) = front := by
    simp [Text.dropLast]
  rw [opened, Text.trimStart_append_of_blank blank solid, single.trimEnd_append blanks]
  simp only [startsWith_cons_iff, endsWith_concat_iff, dropped, List.drop_one, List.tail_cons]

end Parentheses

section Blanks

variable {lead tail : Text} (blank : ∀ character ∈ lead, isBlank character = true)
  (blanks : ∀ character ∈ tail, isBlank character = true)
include blank blanks

theorem IsSpacing.of_parentheses {list : Marked Char}
    (spacing : IsSpacing (fun before after => IsLoose (lead ++ before) (after ++ tail))
      (.inl '(' :: (list ++ [.inl ')']))) : IsSpacing IsLooseIn list := by
  refine (isSpacing_symbol_iff.mp spacing).left.mono fun before after _ loose => ?_
  have sides : opened (lead ++ '(' :: before) (after ++ [')'] ++ tail) = (before, after) := by
    rw [opened_eq blank (by decide) (by decide) blanks, if_pos ⟨rfl, rfl⟩]
  have here : IsLoose (lead ++ '(' :: before) (after ++ [')'] ++ tail) := loose
  rwa [IsLoose, sides] at here

theorem IsSpacing.of_bare {first last : Char} {others front : Text}
    (trimmed : IsTrimmed (text.blanked ' ')) (begins : text.blanked ' ' = first :: others)
    (ends : text.blanked ' ' = front ++ [last]) (bare : ¬ (first = '(' ∧ last = ')'))
    (spacing : IsSpacing (fun before after => IsLoose (lead ++ before) (after ++ tail)) text) :
    IsSpacing IsLooseIn text := by
  refine spacing.mono fun before after cut loose => ?_
  rw [cut] at begins ends trimmed
  obtain ⟨⟨own, more, rfl, solid⟩, behind, closing, rfl, closed⟩ := exists_sides trimmed
  obtain ⟨rfl, -⟩ := List.cons.inj begins
  have split : own :: more ++ ' ' :: (behind ++ [closing]) =
      (own :: more ++ ' ' :: behind) ++ [closing] := by simp
  obtain ⟨-, same⟩ := List.append_inj' (split.symm.trans ends) rfl
  obtain ⟨rfl, -⟩ := List.cons.inj same
  rwa [IsLoose, opened_eq blank solid closed blanks, if_neg bare] at loose

/-- The list that a text without blanks around it holds, and the spaces in the list. -/
theorem exists_list (trimmed : IsTrimmed (text.blanked ' '))
    (spacing : IsSpacing (fun before after => IsLoose (lead ++ before) (after ++ tail)) text) :
    ∃ list : Marked Char, inner text.whole = list.whole ∧
      inner (text.blanked ' ') = list.blanked ' ' ∧ IsSpacing IsLooseIn list := by
  obtain ⟨⟨first, others, begins, -⟩, front, last, ends, -⟩ := exists_ends trimmed
  by_cases parentheses : first = '(' ∧ last = ')'
  · obtain ⟨rfl, rfl⟩ := parentheses
    obtain ⟨list, rfl⟩ : ∃ list : Marked Char, text = .inl '(' :: (list ++ [.inl ')']) := by
      cases front with
      | nil => cases begins.symm.trans ends
      | cons item list =>
          obtain ⟨rfl, rfl⟩ := List.cons.inj (begins.symm.trans ends)
          exact ⟨list, begins⟩
    refine ⟨list, ?_, ?_, spacing.of_parentheses blank blanks⟩
    · rw [Marked.whole_symbol, Marked.whole_append]
      exact inner_parenthesised list.whole
    · rw [Marked.blanked_symbol, Marked.blanked_append]
      exact inner_parenthesised (list.blanked ' ')
  · have begun : text.blanked ' ' = first :: Marked.blanked ' ' others := by
      rw [begins, Marked.blanked_symbol]
    have ended : text.blanked ' ' = Marked.blanked ' ' front ++ [last] := by
      rw [ends, Marked.blanked_append]
      rfl
    have wholeBegun : text.whole = first :: Marked.whole others := by
      rw [begins, Marked.whole_symbol]
    have wholeEnded : text.whole = Marked.whole front ++ [last] := by
      rw [ends, Marked.whole_append]
      rfl
    exact ⟨text, inner_of_bare (isTrimmed_whole trimmed) wholeBegun wholeEnded parentheses,
      inner_of_bare trimmed begun ended parentheses,
      spacing.of_bare blank blanks trimmed begun ended parentheses⟩

end Blanks

theorem exists_inner (spacing : IsSpacing IsLoose text) :
    ∃ list : Marked Char, inner text.whole = list.whole ∧
      inner (text.blanked ' ') = list.blanked ' ' ∧ IsSpacing IsLooseIn list := by
  by_cases none : trim (text.blanked ' ') = []
  · have wholes : trim text.whole = [] := by
      rw [Text.trim_eq_nil_iff] at none ⊢
      exact isBlank_whole spacing.runs none
    refine ⟨[], ?_, ?_, isSpacing_nil _⟩
    · rw [inner, wholes]
      rfl
    · rw [inner, none]
      rfl
  · obtain ⟨lead, core, tail, rfl, same, trimmed, blank, blanks, whole⟩ :=
      exists_core spacing.runs none
    rw [inner_of_trim whole (isTrimmed_whole trimmed), inner_of_trim same.symm trimmed]
    exact exists_list blank blanks trimmed spacing.right.left

/-! ## Reading -/

section Reading

variable {entries others : List Text}

theorem assignTypes_eq (like : List.Forall₂ IsLike entries others) :
    assignTypes entries = assignTypes others := by
  induction like with
  | nil => rfl
  | @cons entry other entries others same _ induction =>
      rw [assignTypes, assignTypes, induction, ← same.shown]
      cases shown : named? entry with
      | some words => rfl
      | none => rw [same.bare shown]

theorem any_named_eq (like : List.Forall₂ IsLike entries others) :
    (entries.any fun entry => (named? entry).isSome) =
      others.any fun entry => (named? entry).isSome := by
  induction like with
  | nil => rfl
  | cons same _ induction => rw [List.any_cons, List.any_cons, induction, same.shown]

theorem eq_of_bare (like : List.Forall₂ IsLike entries others)
    (bare : ∀ entry ∈ entries, named? entry = none) : entries = others := by
  induction like with
  | nil => rfl
  | cons same _ induction =>
      obtain ⟨here, later⟩ := List.forall_mem_cons.mp bare
      rw [same.bare here, induction later]

end Reading

theorem parse_whole (spacing : IsSpacing IsLoose text) :
    (parse text.whole).mapError Untyped.names =
      (parse (text.blanked ' ')).mapError Untyped.names := by
  obtain ⟨list, whole, blanked, within⟩ := exists_inner spacing
  have like := forall₂_segments list within
  rw [parse, parse, whole, blanked, any_named_eq like, assignTypes_eq like]
  split
  · cases assignTypes (segments (list.blanked ' ')) with
    | mk untyped parameters => cases untyped <;> rfl
  · rename_i unnamed
    rw [← any_named_eq like] at unnamed
    have bare : ∀ entry ∈ segments list.whole, named? entry = none := by
      simpa using unnamed
    rw [eq_of_bare like bare]

/-- Inside of a type all spaces are kept. -/
example : parse "(visit func(id  int))" ≠ parse "(visit func(id int))" := by
  decide +kernel

end Signature

end Scaffold
