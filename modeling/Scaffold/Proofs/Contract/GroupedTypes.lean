import Scaffold.Proofs.Contract.Entries

/-!
# Types that several names share

An entry of a list shows a name and a type, or it is a single word or a type.
Where some entry shows both, an entry without a type takes the type of the first
entry behind it that shows one, and a list that ends in such entries is refused.
-/

namespace Scaffold

namespace Text

/-! ## Texts without blanks around them -/

/-- Something stands in the text, and no blank at either end. -/
structure IsTrimmed (text : Text) : Prop where
  begins : ∃ first others, text = first :: others ∧ isBlank first = false
  ends : ∃ front last, text = front ++ [last] ∧ isBlank last = false

variable {text : Text}

theorem IsTrimmed.ne_nil (trimmed : IsTrimmed text) : text ≠ [] := by
  obtain ⟨first, others, rfl, -⟩ := trimmed.begins
  exact List.cons_ne_nil first others

theorem IsTrimmed.trimStart_eq (trimmed : IsTrimmed text) : trimStart text = text := by
  obtain ⟨first, others, rfl, solid⟩ := trimmed.begins
  exact trimStart_of_head? solid rfl

theorem IsTrimmed.trim_eq (trimmed : IsTrimmed text) : trim text = text := by
  obtain ⟨front, last, split, solid⟩ := trimmed.ends
  rw [trim, trimmed.trimStart_eq]
  exact trimEnd_of_getLast? solid (by rw [split, List.getLast?_concat])

theorem exists_of_trimEnd (some : trimEnd text ≠ []) :
    ∃ front last, trimEnd text = front ++ [last] ∧ isBlank last = false := by
  have turned : text.reverse.dropWhile isBlank ≠ [] := by
    simpa [trimEnd] using some
  obtain ⟨last, others, split, solid⟩ := exists_of_dropWhile_isBlank turned
  exact ⟨others.reverse, last, by rw [trimEnd, split, List.reverse_cons], solid⟩

theorem isTrimmed_trim (some : trim text ≠ []) : IsTrimmed (trim text) where
  begins := by
    have left : text.dropWhile isBlank ≠ [] := by
      intro none
      rw [trim, trimStart, none] at some
      exact some rfl
    obtain ⟨first, others, split, solid⟩ := exists_of_dropWhile_isBlank left
    refine ⟨first, trimEnd others, ?_, solid⟩
    rw [trim, trimStart, split]
    exact trimEnd_append_cons solid [] others
  ends := exists_of_trimEnd some

theorem isTrimmed_iff : IsTrimmed text ↔ text ≠ [] ∧ trim text = text := by
  constructor
  · exact fun trimmed => ⟨trimmed.ne_nil, trimmed.trim_eq⟩
  · rintro ⟨some, same⟩
    rw [← same] at some ⊢
    exact isTrimmed_trim some

variable {lead tail : Text}

theorem IsTrimmed.trimStart_append (trimmed : IsTrimmed text)
    (blank : ∀ character ∈ lead, isBlank character = true) (tail : Text) :
    trimStart (lead ++ (text ++ tail)) = text ++ tail := by
  obtain ⟨first, others, rfl, solid⟩ := trimmed.begins
  exact trimStart_append_of_blank blank solid (others ++ tail)

theorem IsTrimmed.trimEnd_append (trimmed : IsTrimmed text)
    (blank : ∀ character ∈ tail, isBlank character = true) (lead : Text) :
    trimEnd (lead ++ text ++ tail) = lead ++ text := by
  obtain ⟨front, last, rfl, solid⟩ := trimmed.ends
  have nothing : trimEnd tail = [] := by
    rw [trimEnd, List.reverse_eq_nil_iff, List.dropWhile_eq_nil_iff]
    exact fun character member => blank character (List.mem_reverse.mp member)
  have split : lead ++ (front ++ [last]) ++ tail = (lead ++ front) ++ last :: tail := by simp
  rw [split, trimEnd_append_cons solid, nothing, List.append_assoc]

theorem IsTrimmed.trim_append (trimmed : IsTrimmed text)
    (before : ∀ character ∈ lead, isBlank character = true)
    (behind : ∀ character ∈ tail, isBlank character = true) :
    trim (lead ++ (text ++ tail)) = text := by
  rw [trim, trimmed.trimStart_append before]
  exact trimmed.trimEnd_append behind []

theorem exists_blanks_around (some : trim text ≠ []) :
    ∃ lead tail, text = lead ++ (trim text ++ tail) ∧ IsTrimmed (trim text) ∧
      (∀ character ∈ lead, isBlank character = true) ∧
      ∀ character ∈ tail, isBlank character = true := by
  obtain ⟨lead, before, split⟩ := exists_blanks text
  obtain ⟨tail, cut, behind⟩ := Signature.exists_blanks_of_trimEnd (trimStart text)
  exact ⟨lead, tail, split.trans (congrArg (lead ++ ·) cut), isTrimmed_trim some, before, behind⟩

end Text

namespace Signature

open Text (IsTrimmed isBlank isTrimmed_trim trim trimStart)

/-! ## Entries that show a name and a type -/

/-- The entry is a name and, behind blanks, a type, and it does not begin like a
type itself. -/
structure Shows (entry name type : Text) : Prop where
  plain : isTypeExpression entry = false
  parts : ∃ gap, entry = name ++ (gap ++ type) ∧ gap ≠ [] ∧
    ∀ character ∈ gap, isBlank character = true
  named : name ≠ []
  solid : ∀ character ∈ name, isBlank character = false
  typed : IsTrimmed type

/-- The entry shows a name and a type. -/
def IsNamed (entry : Text) : Prop :=
  ∃ name type, Shows entry name type

variable {entry name type : Text} {entries : List Text}

/-- A word with a text behind blanks is found as such. -/
theorem firstWord?_append {gap : Text} (named : name ≠ [])
    (solid : ∀ character ∈ name, isBlank character = false) (apart : gap ≠ [])
    (blank : ∀ character ∈ gap, isBlank character = true) (typed : IsTrimmed type) :
    Text.firstWord? (name ++ (gap ++ type)) = some (name, type) := by
  have letters : ∀ character ∈ name, (!isBlank character) = true := by
    simpa using solid
  have whole : trimStart (name ++ (gap ++ type)) = name ++ (gap ++ type) := by
    obtain ⟨first, others, rfl⟩ := List.exists_cons_of_ne_nil named
    exact Text.trimStart_of_head? (solid first List.mem_cons_self) rfl
  have behind : trimStart (gap ++ type) = type := by
    rw [trimStart, List.dropWhile_append_of_pos blank]
    exact typed.trimStart_eq
  obtain ⟨space, spaces, rfl⟩ := List.exists_cons_of_ne_nil apart
  have stops : (!isBlank space) ≠ true := by
    simp [blank space List.mem_cons_self]
  have word : (name ++ (space :: spaces ++ type)).takeWhile
      (fun character => !isBlank character) = name := by
    rw [List.takeWhile_append_of_pos letters]
    exact (congrArg (name ++ ·) (List.takeWhile_cons_of_neg stops)).trans (List.append_nil name)
  have rest : (name ++ (space :: spaces ++ type)).dropWhile
      (fun character => !isBlank character) = space :: spaces ++ type := by
    rw [List.dropWhile_append_of_pos letters]
    exact List.dropWhile_cons_of_neg stops
  obtain ⟨head, tail, split, -⟩ := typed.begins
  rw [Text.firstWord?, whole, rest, behind, word, split]

theorem exists_of_firstWord? (trimmed : IsTrimmed entry)
    (found : Text.firstWord? entry = some (name, type)) :
    (∃ gap, entry = name ++ (gap ++ type) ∧ gap ≠ [] ∧
        ∀ character ∈ gap, isBlank character = true) ∧
      (∀ character ∈ name, isBlank character = false) ∧ IsTrimmed type := by
  rw [Text.firstWord?, trimmed.trimStart_eq] at found
  split at found
  · cases found
  · rename_i some
    obtain ⟨rfl, rfl⟩ := Prod.mk.inj (Option.some.inj found)
    generalize following : entry.dropWhile (fun character => !isBlank character) = rest at some
    have cut : entry = entry.takeWhile (fun character => !isBlank character) ++
        (rest.takeWhile isBlank ++ trimStart rest) := by
      rw [trimStart, List.takeWhile_append_dropWhile, ← following,
        List.takeWhile_append_dropWhile]
    have apart : rest.takeWhile isBlank ≠ [] := by
      -- The first word ends at a blank.
      have left : rest ≠ [] := by
        rintro rfl
        exact some rfl
      obtain ⟨head, others, split⟩ := List.exists_cons_of_ne_nil left
      have blank := List.head?_dropWhile_not (fun character => !isBlank character) entry
      rw [following, split] at blank
      rw [split, List.takeWhile_cons_of_pos (by simpa using blank)]
      exact List.cons_ne_nil _ _
    refine ⟨⟨_, cut, apart, fun character member => List.mem_takeWhile_imp member⟩, ?_,
      Text.exists_of_dropWhile_isBlank some, ?_⟩
    · intro character member
      simpa using List.mem_takeWhile_imp member
    · obtain ⟨front, last, split, solid⟩ := trimmed.ends
      have ends : (trimStart rest).getLast? = .some last := by
        rw [← List.getLast?_append_of_ne_nil _ some, ← List.getLast?_append_of_ne_nil _
          (List.append_ne_nil_of_right_ne_nil _ some), ← cut, split, List.getLast?_concat]
      obtain ⟨before, same⟩ := List.getLast?_eq_some_iff.mp ends
      exact ⟨before, last, same, solid⟩

theorem named?_eq_some_iff (trimmed : IsTrimmed entry) :
    named? entry = some (name, type) ↔ Shows entry name type := by
  rw [named?]
  constructor
  · intro found
    split at found
    · cases found
    · rename_i plain
      obtain ⟨words, first, same⟩ := Option.map_eq_some_iff.mp found
      obtain ⟨rfl, rfl⟩ := Prod.mk.inj same
      obtain ⟨parts, solid, typed⟩ := exists_of_firstWord? trimmed first
      rw [typed.trim_eq]
      exact ⟨Bool.not_eq_true _ ▸ plain, parts, name_ne_nil_of_firstWord? first, solid, typed⟩
  · rintro ⟨plain, ⟨gap, rfl, apart, blank⟩, named, solid, typed⟩
    rw [plain, if_neg Bool.false_ne_true, firstWord?_append named solid apart blank typed,
      Option.map_some, typed.trim_eq]

theorem isSome_named?_iff (trimmed : IsTrimmed entry) :
    (named? entry).isSome = true ↔ IsNamed entry := by
  rw [Option.isSome_iff_exists]
  exact ⟨fun ⟨words, found⟩ => ⟨words.1, words.2, (named?_eq_some_iff trimmed).mp found⟩,
    fun ⟨name, type, shows⟩ => ⟨(name, type), (named?_eq_some_iff trimmed).mpr shows⟩⟩

theorem isTrimmed_of_mem_segments {list : Text} (member : entry ∈ segments list) :
    IsTrimmed entry := by
  obtain ⟨listed, some⟩ := List.mem_filter.mp member
  obtain ⟨piece, -, rfl⟩ := List.mem_map.mp listed
  exact isTrimmed_trim (by simpa using some)

/-! ## The types of a list -/

/-- The name that an entry gives to its parameter: the one it shows, or all of it. -/
def IsNameOf (entry name : Text) : Prop :=
  (∃ type, Shows entry name type) ∨ ¬ IsNamed entry ∧ name = entry

/-- The first of the entries that shows a name shows this type. -/
def FirstShows (entries : List Text) (type : Text) : Prop :=
  ∃ before entry after name, entries = before ++ entry :: after ∧
    (∀ other ∈ before, ¬ IsNamed other) ∧ Shows entry name type

/-- One parameter for each entry, in order: with the name of the entry, and with the
type of the first entry from there on that shows one. -/
structure AreGrouped (entries : List Text) (parameters : List Parameter) : Prop where
  length : parameters.length = entries.length
  named : ∀ (place : Nat) (entry : Text) (parameter : Parameter), entries[place]? = some entry →
    parameters[place]? = some parameter → IsNameOf entry parameter.name
  typed : ∀ (place : Nat) (parameter : Parameter), parameters[place]? = some parameter →
    FirstShows (entries.drop place) parameter.type

/-- The last entry shows a name. -/
def EndsNamed (entries : List Text) : Prop :=
  ∃ front last, entries = front ++ [last] ∧ IsNamed last

variable {parameters : List Parameter} {next : Parameter}

theorem FirstShows.cons (bare : ¬ IsNamed entry) (later : FirstShows entries type) :
    FirstShows (entry :: entries) type := by
  obtain ⟨before, found, after, name, rfl, unnamed, shows⟩ := later
  exact ⟨entry :: before, found, after, name, rfl, List.forall_mem_cons.mpr ⟨bare, unnamed⟩, shows⟩

theorem areGrouped_nil : AreGrouped [] [] := by
  constructor <;> simp

theorem AreGrouped.cons (grouped : AreGrouped entries parameters) (own : IsNameOf entry name)
    (first : FirstShows (entry :: entries) type) :
    AreGrouped (entry :: entries) (⟨name, type⟩ :: parameters) where
  length := congrArg (· + 1) grouped.length
  named := by
    intro place found parameter
    cases place with
    | zero =>
        rintro ⟨⟩ ⟨⟩
        exact own
    | succ place => exact grouped.named place found parameter
  typed := by
    intro place parameter
    cases place with
    | zero =>
        rintro ⟨⟩
        exact first
    | succ place => exact grouped.typed place parameter

theorem AreGrouped.first (grouped : AreGrouped entries (next :: parameters)) :
    FirstShows entries next.type :=
  grouped.typed 0 next rfl

theorem EndsNamed.cons (ends : EndsNamed entries) : EndsNamed (entry :: entries) := by
  obtain ⟨front, last, rfl, named⟩ := ends
  exact ⟨entry :: front, last, rfl, named⟩

/-- Behind the last entry that shows a name all are left over, and those up to it get
their types. -/
theorem exists_of_assignTypes (trimmed : ∀ entry ∈ entries, IsTrimmed entry) :
    ∃ front, entries = front ++ (assignTypes entries).1 ∧
      (∀ entry ∈ (assignTypes entries).1, ¬ IsNamed entry) ∧
      (front = [] ∨ EndsNamed front) ∧ AreGrouped front (assignTypes entries).2 := by
  induction entries with
  | nil => exact ⟨[], rfl, List.forall_mem_nil _, .inl rfl, areGrouped_nil⟩
  | cons entry rest induction =>
      obtain ⟨here, later⟩ := List.forall_mem_cons.mp trimmed
      obtain ⟨front, split, bare, ends, grouped⟩ := induction later
      rw [assignTypes]
      rcases assigned : assignTypes rest with ⟨untyped, parameters⟩
      rw [assigned] at split bare grouped
      dsimp only at split bare grouped ⊢
      cases found : named? entry with
      | some words =>
          obtain ⟨name, type⟩ := words
          have shows := (named?_eq_some_iff here).mp found
          refine ⟨entry :: front, congrArg (entry :: ·) split, bare, .inr ?_, ?_⟩
          · rcases ends with rfl | ends
            · exact ⟨[], entry, rfl, name, type, shows⟩
            · exact ends.cons
          · exact grouped.cons (.inl ⟨type, shows⟩) ⟨[], entry, front, name, rfl, List.forall_mem_nil _, shows⟩
      | none =>
          have unnamed : ¬ IsNamed entry := by
            rw [← isSome_named?_iff here, found]
            exact Bool.false_ne_true
          cases parameters with
          | nil =>
              obtain rfl := List.length_eq_zero_iff.mp grouped.length.symm
              exact ⟨[], congrArg (entry :: ·) split, List.forall_mem_cons.mpr ⟨unnamed, bare⟩,
                .inl rfl, areGrouped_nil⟩
          | cons next parameters =>
              refine ⟨entry :: front, congrArg (entry :: ·) split, bare, .inr ?_, ?_⟩
              · rcases ends with rfl | ends
                · cases grouped.length
                · exact ends.cons
              · exact grouped.cons (.inr ⟨unnamed, rfl⟩) (grouped.first.cons unnamed)

theorem AreGrouped.type_ne_nil (grouped : AreGrouped entries parameters) :
    ∀ parameter ∈ parameters, parameter.type ≠ [] := by
  intro parameter member
  obtain ⟨place, found⟩ := List.mem_iff_getElem?.mp member
  obtain ⟨_, _, _, _, _, _, shows⟩ := grouped.typed place parameter found
  exact shows.typed.ne_nil

/-- What is left over of a list: the entries behind the last one that shows a name. -/
structure IsLeftOver (entries names : List Text) : Prop where
  behind : ∃ front, entries = front ++ names ∧ EndsNamed front
  bare : ∀ name ∈ names, ¬ IsNamed name
  some : names ≠ []

theorem IsLeftOver.not_endsNamed {names : List Text} (left : IsLeftOver entries names) :
    ¬ EndsNamed entries := by
  rintro ⟨front, last, split, named⟩
  obtain ⟨before, whole, -⟩ := left.behind
  refine left.bare last ?_ named
  refine List.mem_of_getLast? ?_
  rw [← List.getLast?_append_of_ne_nil before left.some, ← whole, split, List.getLast?_concat]

theorem any_isSome_named?_iff (trimmed : ∀ entry ∈ entries, IsTrimmed entry) :
    (entries.any fun entry => (named? entry).isSome) = true ↔ ∃ entry ∈ entries, IsNamed entry := by
  rw [List.any_eq_true]
  exact exists_congr fun entry => and_congr_right fun member =>
    isSome_named?_iff (trimmed entry member)

theorem parse_cases {text : Text} (some : ∃ entry ∈ segments (inner text), IsNamed entry) :
    (∃ parameters, parse text = .ok parameters ∧ EndsNamed (segments (inner text)) ∧
        AreGrouped (segments (inner text)) parameters) ∨
      ∃ names, parse text = .error ⟨inner text, names⟩ ∧
        IsLeftOver (segments (inner text)) names := by
  have trimmed : ∀ entry ∈ segments (inner text), IsTrimmed entry :=
    fun _ => isTrimmed_of_mem_segments
  obtain ⟨front, split, bare, ends, grouped⟩ := exists_of_assignTypes trimmed
  rw [parse, if_pos ((any_isSome_named?_iff trimmed).mpr some)]
  rcases assigned : assignTypes (segments (inner text)) with ⟨untyped, parameters⟩
  rw [assigned] at split bare grouped
  have named : EndsNamed front := by
    refine ends.resolve_left fun none => ?_
    obtain ⟨entry, member, isNamed⟩ := some
    rw [split, none] at member
    exact bare entry member isNamed
  cases untyped with
  | nil =>
      rw [List.append_nil] at split
      rw [← split] at named grouped
      exact .inl ⟨parameters, rfl, named, grouped⟩
  | cons name names =>
      exact .inr ⟨name :: names, rfl, ⟨front, split, named⟩, bare, List.cons_ne_nil name names⟩

/-- A list without an entry that shows a name is a list of types.  Any other list is
refused exactly if its last entry shows no name, with the entries that are left over;
else each entry becomes a parameter with its name and with the type of the first entry
from there on that shows one. -/
theorem parse_groups (text : Text) :
    ((∀ entry ∈ segments (inner text), ¬ IsNamed entry) →
      parse text = .ok ((segments (inner text)).map fun entry => ⟨[], entry⟩)) ∧
    ((∃ entry ∈ segments (inner text), IsNamed entry) →
      ((∃ fault, parse text = .error fault) ↔ ¬ EndsNamed (segments (inner text))) ∧
      (EndsNamed (segments (inner text)) → ∃ parameters, parse text = .ok parameters ∧
        AreGrouped (segments (inner text)) parameters ∧
        ∀ parameter ∈ parameters, parameter.type ≠ []) ∧
      ∀ fault, parse text = .error fault → fault.source = inner text ∧
        IsLeftOver (segments (inner text)) fault.names) := by
  constructor
  · intro none
    have unnamed : ¬ ((segments (inner text)).any fun entry => (named? entry).isSome) = true := by
      rw [any_isSome_named?_iff fun _ => isTrimmed_of_mem_segments]
      rintro ⟨entry, member, named⟩
      exact none entry member named
    rw [parse, if_neg unnamed]
  · intro some
    rcases parse_cases some with ⟨parameters, run, ends, grouped⟩ | ⟨names, run, left⟩
    · refine ⟨iff_of_false ?_ (not_not_intro ends),
        fun _ => ⟨parameters, run, grouped, grouped.type_ne_nil⟩, fun fault failed => ?_⟩
      · rintro ⟨fault, failed⟩
        cases run.symm.trans failed
      · cases run.symm.trans failed
    · refine ⟨iff_of_true ⟨_, run⟩ left.not_endsNamed, fun ends => absurd ends left.not_endsNamed,
        fun fault failed => ?_⟩
      obtain rfl := Except.error.inj (run.symm.trans failed)
      exact ⟨rfl, left⟩

/-- A list in which two names share a type. -/
theorem parse_groups_flags :
    (∃ entry ∈ segments (inner "(a, b bool, c int)"), IsNamed entry) ∧
      EndsNamed (segments (inner "(a, b bool, c int)")) ∧
      ∃ parameters, parse "(a, b bool, c int)" = .ok parameters ∧
        AreGrouped (segments (inner "(a, b bool, c int)")) parameters := by
  have entries : segments (inner "(a, b bool, c int)") = ["a", "b bool", "c int"] := by
    decide +kernel
  have last : IsNamed "c int" :=
    ⟨"c", "int", by decide +kernel,
      ⟨[' '], rfl, by decide, List.forall_mem_singleton.mpr (by decide)⟩, by decide,
      List.forall_mem_singleton.mpr (by decide), ⟨'i', ['n', 't'], rfl, by decide⟩,
      ⟨['i', 'n'], 't', rfl, by decide⟩⟩
  have some : ∃ entry ∈ segments (inner "(a, b bool, c int)"), IsNamed entry :=
    ⟨"c int", by rw [entries]; simp, last⟩
  have ends : EndsNamed (segments (inner "(a, b bool, c int)")) :=
    ⟨["a", "b bool"], "c int", entries, last⟩
  obtain ⟨parameters, run, grouped, -⟩ := ((parse_groups "(a, b bool, c int)").2 some).2.1 ends
  exact ⟨some, ends, parameters, run, grouped⟩

example : parse "(a, b bool, c int)" = .ok [⟨"a", "bool"⟩, ⟨"b", "bool"⟩, ⟨"c", "int"⟩] := by
  decide +kernel

end Signature

end Scaffold
