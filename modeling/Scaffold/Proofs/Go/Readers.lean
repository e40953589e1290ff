import Mathlib.Data.List.Basic
import Scaffold.Go.Lexer

/-!
# How far readers look

A number, a word or a mark ends at the end of its line at the latest, so its
reader does not look behind a line feed.  A string, a character literal or a
block comment has an end of its own, and its reader does not look behind that.
-/

namespace Scaffold

namespace Go

namespace Reader

/-- The reader does not look behind the end of a line. -/
def StaysInLine (reader : Reader) : Prop :=
  ∀ text rest, reader (text ++ '\n' :: rest) = (reader text).map (· ++ '\n' :: rest)

/-- The reader does not look behind what it accepts. -/
def Settles (reader : Reader) : Prop :=
  ∀ text rest, reader text = some rest →
    ∃ taken, text = taken ++ rest ∧ ∀ other, reader (taken ++ other) = some other

theorem sequence_cons (reader : Reader) (readers : List Reader) :
    sequence (reader :: readers) = andThen reader (sequence readers) := by
  have failed : ∀ others : List Reader,
      others.foldl (fun rest reader => rest.bind reader) (none : Option Text) = none := by
    intro others
    induction others with
    | nil => rfl
    | cons other others induction => exact induction
  funext text
  rw [sequence, List.foldl_cons, Option.bind_some, andThen]
  cases reader text with
  | none => exact failed readers
  | some rest => rfl

/-! ## Readers that stay in a line -/

section StaysInLine

variable {accepts : Char → Bool} {first second reader : Reader} {readers : List Reader}

theorem staysInLine_one (rejects : accepts '\n' = false) : StaysInLine (one accepts) := by
  intro text rest
  cases text with
  | nil => simp [one, rejects]
  | cons character others => cases fits : accepts character <;> simp [one, fits]

theorem staysInLine_oneOf {characters : List Char} (absent : '\n' ∉ characters) :
    StaysInLine (oneOf characters) :=
  staysInLine_one (by simpa using absent)

theorem staysInLine_andThen (one : StaysInLine first) (two : StaysInLine second) :
    StaysInLine (andThen first second) := by
  intro text rest
  rw [andThen, andThen, one]
  cases first text with
  | none => rfl
  | some behind => exact two behind rest

theorem staysInLine_sequence (all : ∀ reader ∈ readers, StaysInLine reader) :
    StaysInLine (sequence readers) := by
  induction readers with
  | nil => exact fun _ _ => rfl
  | cons reader others induction =>
      rw [sequence_cons]
      exact staysInLine_andThen (all reader List.mem_cons_self)
        (induction fun other member => all other (List.mem_cons_of_mem reader member))

theorem staysInLine_maybe (inner : StaysInLine reader) : StaysInLine (maybe reader) := by
  intro text rest
  rw [maybe, maybe, inner]
  cases reader text <;> rfl

theorem staysInLine_digits (rejects : accepts '\n' = false) (low : accepts '_' = false) :
    StaysInLine (digits accepts) := by
  have more (rest text : Text) :
      moreDigits accepts (text ++ '\n' :: rest) = moreDigits accepts text ++ '\n' :: rest := by
    induction text using moreDigits.induct accepts with
    | case1 digit others fits induction => simp [moreDigits, fits, induction]
    | case2 digit others fails => simp [moreDigits, fails]
    | case3 digit others single fits induction =>
        have other : digit ≠ '_' := by
          rintro rfl
          simp [low] at fits
        simp [moreDigits, fits, other, induction]
    | case4 digit others single fails =>
        by_cases same : digit = '_'
        · subst same
          cases others with
          | nil => simp [moreDigits, rejects, low]
          | cons next behind => exact (single next behind rfl rfl).elim
        · simp [moreDigits, fails, same]
    | case5 => simp [moreDigits, rejects]
  intro text rest
  rw [digits, digits, staysInLine_one rejects]
  cases one accepts text with
  | none => rfl
  | some behind => simp [more]

/-- What the better of two readings leaves over. -/
private def shorter (best : Option Text) (rest : Text) : Option Text :=
  best.elim (some rest) fun shortest =>
    if rest.length < shortest.length then some rest else some shortest

private theorem longest_eq (readers : List Reader) (text : Text) :
    longest readers text = (readers.filterMap fun reader => reader text).foldl shorter none := by
  apply List.foldl_ext
  intro best rest _
  cases best <;> rfl

theorem staysInLine_longest (all : ∀ reader ∈ readers, StaysInLine reader) :
    StaysInLine (longest readers) := by
  intro text rest
  have found : readers.filterMap (fun reader => reader (text ++ '\n' :: rest)) =
      (readers.filterMap fun reader => reader text).map (· ++ '\n' :: rest) := by
    rw [List.map_filterMap]
    exact List.filterMap_congr fun reader member => all reader member text rest
  -- What is left over is compared by its length, and all of it is longer by the same.
  have folded (others : List Text) (outcome : Option Text) :
      (others.map (· ++ '\n' :: rest)).foldl shorter (outcome.map (· ++ '\n' :: rest)) =
        (others.foldl shorter outcome).map (· ++ '\n' :: rest) := by
    induction others generalizing outcome with
    | nil => rfl
    | cons other others induction =>
        rw [List.map_cons, List.foldl_cons, List.foldl_cons, ← induction]
        congr 1
        cases outcome with
        | none => rfl
        | some shortest =>
            simp only [shorter, Option.map_some, Option.elim, List.length_append,
              Nat.add_lt_add_iff_right]
            split <;> rfl
  rw [longest_eq, longest_eq, found]
  exact folded _ none

end StaysInLine

end Reader

open Reader

/-! ### Numbers -/

private theorem staysInLine_classes :
    StaysInLine (digits isDecimal) ∧ StaysInLine (digits isOctal) ∧
      StaysInLine (digits isHexadecimal) ∧ StaysInLine (digits isBinary) := by
  refine ⟨?_, ?_, ?_, ?_⟩ <;> exact staysInLine_digits (by decide) (by decide)

theorem staysInLine_exponent {letters : List Char} (absent : '\n' ∉ letters) :
    StaysInLine (exponent letters) := by
  obtain ⟨decimal, _⟩ := staysInLine_classes
  apply staysInLine_sequence
  simp only [List.forall_mem_cons, List.not_mem_nil, false_implies, implies_true, and_true]
  exact ⟨staysInLine_oneOf absent, staysInLine_maybe (staysInLine_oneOf (by decide)), decimal⟩

theorem staysInLine_integer : StaysInLine integer := by
  obtain ⟨decimal, octal, hexadecimal, binary⟩ := staysInLine_classes
  have letter (characters : List Char) (absent : '\n' ∉ characters) :
      StaysInLine (oneOf characters) := staysInLine_oneOf absent
  have low : StaysInLine (maybe (oneOf ['_'])) := staysInLine_maybe (letter _ (by decide))
  apply staysInLine_longest
  simp only [List.forall_mem_cons, List.not_mem_nil, false_implies, implies_true, and_true]
  refine ⟨letter _ (by decide), ?_, ?_, ?_, ?_⟩
  · exact staysInLine_andThen (staysInLine_one (by decide))
      (staysInLine_maybe (staysInLine_andThen low decimal))
  all_goals
    apply staysInLine_sequence
    simp only [List.forall_mem_cons, List.not_mem_nil, false_implies, implies_true, and_true]
  · exact ⟨letter _ (by decide), staysInLine_maybe (letter _ (by decide)), low, octal⟩
  · exact ⟨letter _ (by decide), letter _ (by decide), low, hexadecimal⟩
  · exact ⟨letter _ (by decide), letter _ (by decide), low, binary⟩

theorem staysInLine_floating : StaysInLine floating := by
  obtain ⟨decimal, _, hexadecimal, _⟩ := staysInLine_classes
  have letter (characters : List Char) (absent : '\n' ∉ characters) :
      StaysInLine (oneOf characters) := staysInLine_oneOf absent
  have low : StaysInLine (maybe (oneOf ['_'])) := staysInLine_maybe (letter _ (by decide))
  have point : StaysInLine (oneOf ['.']) := letter _ (by decide)
  have start : StaysInLine (andThen (oneOf ['0']) (oneOf ['x', 'X'])) :=
    staysInLine_andThen (letter _ (by decide)) (letter _ (by decide))
  have ten : StaysInLine (exponent ['e', 'E']) := staysInLine_exponent (by decide)
  have two : StaysInLine (exponent ['p', 'P']) := staysInLine_exponent (by decide)
  apply staysInLine_longest
  simp only [List.forall_mem_cons, List.not_mem_nil, false_implies, implies_true, and_true]
  refine ⟨?_, ?_, ?_, ?_, ?_, ?_⟩
  all_goals
    apply staysInLine_sequence
    simp only [List.forall_mem_cons, List.not_mem_nil, false_implies, implies_true, and_true]
  · exact ⟨decimal, point, staysInLine_maybe decimal, staysInLine_maybe ten⟩
  · exact ⟨decimal, ten⟩
  · exact ⟨point, decimal, staysInLine_maybe ten⟩
  · exact ⟨start, low, hexadecimal, point, staysInLine_maybe hexadecimal, two⟩
  · exact ⟨start, low, hexadecimal, two⟩
  · exact ⟨start, point, hexadecimal, two⟩

theorem staysInLine_number : StaysInLine number := by
  obtain ⟨decimal, _⟩ := staysInLine_classes
  have imaginary {reader : Reader} (inner : StaysInLine reader) :
      StaysInLine (andThen reader (oneOf ['i'])) :=
    staysInLine_andThen inner (staysInLine_oneOf (by decide))
  apply staysInLine_longest
  simp only [List.forall_mem_cons, List.not_mem_nil, false_implies, implies_true, and_true]
  exact ⟨staysInLine_integer, staysInLine_floating, imaginary staysInLine_integer,
    imaginary staysInLine_floating, imaginary decimal⟩

/-! ## Readers that settle -/

namespace Reader

variable {accepts : Char → Bool} {first second : Reader} {readers : List Reader}

theorem longest_cons_of_none {reader : Reader} {text : Text} (failed : reader text = none) :
    longest (reader :: readers) text = longest readers text := by
  rw [longest, longest, List.filterMap_cons]
  simp only [failed]

theorem longest_cons_of_others {reader : Reader} {text : Text}
    (failed : ∀ other ∈ readers, other text = none) :
    longest (reader :: readers) text = reader text := by
  have nothing : readers.filterMap (fun reader => reader text) = [] :=
    List.filterMap_eq_nil_iff.mpr failed
  rw [longest, List.filterMap_cons, nothing]
  cases reader text <;> rfl

theorem settles_one : Settles (one accepts) := by
  intro text rest found
  cases text with
  | nil => simp [one] at found
  | cons character others =>
      cases fits : accepts character with
      | false => simp [one, fits] at found
      | true =>
          simp only [one, fits, if_true, Option.some.injEq] at found
          subst found
          exact ⟨[character], rfl, fun other => by simp [one, fits]⟩

theorem settles_andThen (one : Settles first) (two : Settles second) :
    Settles (andThen first second) := by
  intro text rest found
  obtain ⟨middle, begun, ended⟩ := Option.bind_eq_some_iff.mp found
  obtain ⟨front, rfl, ones⟩ := one text middle begun
  obtain ⟨back, rfl, twos⟩ := two middle rest ended
  refine ⟨front ++ back, by simp, fun other => ?_⟩
  rw [andThen, List.append_assoc, ones, Option.bind_some, twos]

theorem settles_sequence (all : ∀ reader ∈ readers, Settles reader) :
    Settles (sequence readers) := by
  induction readers with
  | nil =>
      intro text rest found
      exact ⟨[], Option.some.inj found, fun other => rfl⟩
  | cons reader others induction =>
      rw [sequence_cons]
      exact settles_andThen (all reader List.mem_cons_self)
        (induction fun other member => all other (List.mem_cons_of_mem reader member))

theorem settles_exactly {count : Nat} : Settles (exactly count accepts) := by
  apply settles_sequence
  intro reader member
  rw [List.eq_of_mem_replicate member]
  exact settles_one

end Reader

/-! ### Escapes

Which escape it is shows in the first character. -/

/-- The reader that the first character of an escape between double quotes
chooses. -/
def stringEscapeAt (character : Char) : Reader :=
  if character = 'x' then exactly 2 isHexadecimal
  else if character = 'u' then exactly 4 isHexadecimal
  else if character = 'U' then exactly 8 isHexadecimal
  else some

/-- The reader that the first character of an escape in a character literal
chooses. -/
def characterEscapeAt (character : Char) : Reader :=
  if character = 'x' then exactly 2 isHexadecimal
  else if character = 'u' then exactly 4 isHexadecimal
  else if character = 'U' then exactly 8 isHexadecimal
  else if isOctal character then exactly 2 isOctal
  else if ['a', 'b', 'f', 'n', 'r', 't', 'v', '\\', apostrophe, '"'].contains character then some
  else fun _ => none

private theorem andThen_oneOf_cons (wanted character : Char) (reader : Reader) (rest : Text) :
    andThen (oneOf [wanted]) reader (character :: rest) =
      if character = wanted then reader rest else none := by
  by_cases same : character = wanted <;> simp [andThen, oneOf, one, same]

theorem exactly_succ_cons {accepts : Char → Bool} (count : Nat) (character : Char) (rest : Text) :
    exactly (count + 1) accepts (character :: rest) =
      if accepts character then exactly count accepts rest else none := by
  rw [exactly, List.replicate_succ, sequence_cons, andThen, one]
  split <;> rfl

theorem stringEscape_cons (character : Char) (rest : Text) :
    stringEscape (character :: rest) = stringEscapeAt character rest := by
  have hexadecimal : sequence [oneOf ['x'], one isHexadecimal, one isHexadecimal] =
      andThen (oneOf ['x']) (exactly 2 isHexadecimal) := sequence_cons _ _
  unfold stringEscape stringEscapeAt
  rw [hexadecimal]
  split
  · rename_i same
    rw [longest_cons_of_none (by simp [one, same]), longest_cons_of_others]
    · rw [andThen_oneOf_cons, if_pos same]
    · simp [andThen_oneOf_cons, same]
  · rename_i notX
    split
    · rename_i same
      rw [longest_cons_of_none (by simp [one, same]),
        longest_cons_of_none (by rw [andThen_oneOf_cons, if_neg notX]), longest_cons_of_others]
      · rw [andThen_oneOf_cons, if_pos same]
      · simp [andThen_oneOf_cons, same]
    · rename_i notU
      split
      · rename_i same
        rw [longest_cons_of_none (by simp [one, same]),
          longest_cons_of_none (by rw [andThen_oneOf_cons, if_neg notX]),
          longest_cons_of_none (by rw [andThen_oneOf_cons, if_neg notU]), longest_cons_of_others]
        · rw [andThen_oneOf_cons, if_pos same]
        · simp
      · rename_i notLong
        rw [longest_cons_of_others]
        · simp [one, notX, notU, notLong]
        · simp [andThen_oneOf_cons, notX, notU, notLong]

theorem characterEscape_cons (character : Char) (rest : Text) :
    characterEscape (character :: rest) = characterEscapeAt character rest := by
  have none : ['a', 'b', 'f', 'n', 'r', 't', 'v', '\\', apostrophe, '"'].all
      (fun letter => !isOctal letter) = true := by decide
  have letters : ∀ letter ∈ ['a', 'b', 'f', 'n', 'r', 't', 'v', '\\', apostrophe, '"'],
      isOctal letter = false := fun letter member => by
    simpa only [Bool.not_eq_true'] using List.all_eq_true.mp none letter member
  unfold characterEscape characterEscapeAt
  split
  · rename_i same
    rw [longest_cons_of_none, longest_cons_of_none, longest_cons_of_others]
    · rw [andThen_oneOf_cons, if_pos same]
    · simp [andThen_oneOf_cons, same]
    · rw [exactly_succ_cons, same]
      rfl
    · rw [same]
      rfl
  · rename_i notX
    split
    · rename_i same
      rw [longest_cons_of_none, longest_cons_of_none, longest_cons_of_none,
        longest_cons_of_others]
      · rw [andThen_oneOf_cons, if_pos same]
      · simp [andThen_oneOf_cons, same]
      · rw [andThen_oneOf_cons, if_neg notX]
      · rw [exactly_succ_cons, same]
        rfl
      · rw [same]
        rfl
    · rename_i notU
      split
      · rename_i same
        rw [longest_cons_of_none, longest_cons_of_none, longest_cons_of_none,
          longest_cons_of_none, longest_cons_of_others]
        · rw [andThen_oneOf_cons, if_pos same]
        · simp
        · rw [andThen_oneOf_cons, if_neg notU]
        · rw [andThen_oneOf_cons, if_neg notX]
        · rw [exactly_succ_cons, same]
          rfl
        · rw [same]
          rfl
      · rename_i notLong
        split
        · rename_i octal
          rw [longest_cons_of_none, longest_cons_of_others]
          · rw [exactly_succ_cons, if_pos octal]
          · simp [andThen_oneOf_cons, notX, notU, notLong]
          · rw [oneOf, one, if_neg]
            intro contained
            have digit := letters character (by simpa using contained)
            rw [octal] at digit
            exact Bool.noConfusion digit
        · rename_i notOctal
          rw [longest_cons_of_others]
          · rw [oneOf, one]
            split <;> rfl
          · simp [andThen_oneOf_cons, exactly_succ_cons, notX, notU, notLong, notOctal]

private theorem settles_of_first {reader : Reader} {inner : Char → Reader}
    (nothing : reader [] = none)
    (first : ∀ character rest, reader (character :: rest) = inner character rest)
    (all : ∀ character, Settles (inner character)) : Settles reader := by
  intro text rest found
  cases text with
  | nil => simp [nothing] at found
  | cons character others =>
      rw [first] at found
      obtain ⟨taken, rfl, settled⟩ := all character others rest found
      refine ⟨character :: taken, rfl, fun other => ?_⟩
      rw [List.cons_append, first, settled]

private theorem settles_some : Settles some :=
  fun _ _ found => ⟨[], Option.some.inj found, fun _ => rfl⟩

theorem settles_stringEscape : Settles stringEscape := by
  refine settles_of_first rfl stringEscape_cons fun character => ?_
  unfold stringEscapeAt
  split
  · exact settles_exactly
  · split
    · exact settles_exactly
    · split
      · exact settles_exactly
      · exact settles_some

theorem settles_characterEscape : Settles characterEscape := by
  refine settles_of_first rfl characterEscape_cons fun character => ?_
  unfold characterEscapeAt
  split
  · exact settles_exactly
  · split
    · exact settles_exactly
    · split
      · exact settles_exactly
      · split
        · exact settles_exactly
        · split
          · exact settles_some
          · intro text rest found
            simp at found

/-! ### Strings, character literals and block comments -/

theorem settles_characterRest : Settles characterRest := by
  refine settles_andThen ?_ settles_one
  have chosen (character : Char) (rest : Text) :
      longest [one fun character => character != apostrophe && character != '\\',
          andThen (oneOf ['\\']) characterEscape] (character :: rest) =
        (if character = '\\' then characterEscape
          else if character = apostrophe then fun _ => none else some) rest := by
    split
    · rename_i same
      rw [longest_cons_of_none (by simp [one, same]), longest_cons_of_others (by simp),
        andThen_oneOf_cons, if_pos same]
    · rename_i other
      rw [longest_cons_of_others (by simp [andThen_oneOf_cons, other]), one]
      split <;> simp_all
  refine settles_of_first rfl chosen fun character => ?_
  split
  · exact settles_characterEscape
  · split
    · intro text rest found
      simp at found
    · exact settles_some

theorem settles_rawRest : Settles rawRest := by
  intro text
  induction text with
  | nil => intro rest found; simp [rawRest] at found
  | cons character others induction =>
      intro rest found
      rw [rawRest] at found
      split at found
      · rename_i ends
        obtain rfl := Option.some.inj found
        exact ⟨[character], rfl, fun other => by simp [rawRest, ends]⟩
      · rename_i goesOn
        obtain ⟨taken, rfl, settled⟩ := induction rest found
        exact ⟨character :: taken, rfl, fun other => by simp [rawRest, goesOn, settled]⟩

/-- The fuel only has to be as much as the string is long. -/
theorem settles_interpretedRest (fuel : Nat) :
    ∀ text rest, interpretedRest fuel text = some rest →
      ∃ taken, text = taken ++ rest ∧
        ∀ more other, taken.length ≤ more → interpretedRest more (taken ++ other) = some other := by
  induction fuel with
  | zero => intro text rest found; simp [interpretedRest] at found
  | succ fuel induction =>
      intro text rest found
      cases text with
      | nil => simp [interpretedRest] at found
      | cons character others =>
          rw [interpretedRest] at found
          split at found
          · rename_i ends
            obtain rfl := Option.some.inj found
            refine ⟨[character], rfl, fun more other enough => ?_⟩
            obtain ⟨more, rfl⟩ := Nat.exists_eq_add_of_le' enough
            simp [interpretedRest, ends]
          · rename_i goesOn
            split at found
            · simp at found
            · rename_i inLine
              split at found
              · rename_i escapes
                obtain ⟨middle, escaped, later⟩ := Option.bind_eq_some_iff.mp found
                obtain ⟨front, rfl, ones⟩ := settles_stringEscape others middle escaped
                obtain ⟨back, rfl, twos⟩ := induction middle rest later
                refine ⟨character :: (front ++ back), by simp, fun more other enough => ?_⟩
                simp only [List.length_cons, List.length_append] at enough
                obtain ⟨more, rfl⟩ : ∃ less, more = less + 1 := ⟨more - 1, by omega⟩
                rw [List.cons_append, interpretedRest, if_neg goesOn, if_neg inLine,
                  if_pos escapes, List.append_assoc, ones, Option.bind_some,
                  twos more other (by omega)]
              · rename_i plain
                obtain ⟨back, rfl, twos⟩ := induction others rest found
                refine ⟨character :: back, rfl, fun more other enough => ?_⟩
                simp only [List.length_cons] at enough
                obtain ⟨more, rfl⟩ : ∃ less, more = less + 1 := ⟨more - 1, by omega⟩
                rw [List.cons_append, interpretedRest, if_neg goesOn, if_neg inLine,
                  if_neg plain, twos more other (by omega)]

theorem settles_blockCommentRest : Settles blockCommentRest := by
  have settled (text rest : Text) (found : blockCommentRest text = some rest) :
      ∃ first taken, text = first :: taken ++ rest ∧
        ∀ other, blockCommentRest (first :: taken ++ other) = some other := by
    induction text using blockCommentRest.induct with
    | case1 => simp [blockCommentRest] at found
    | case2 behind =>
        rw [blockCommentRest, Option.some.injEq] at found
        exact ⟨'*', ['/'], by rw [← found]; rfl, fun other => rfl⟩
    | case3 character others goesOn induction =>
        rw [blockCommentRest.eq_3 _ _ goesOn] at found
        obtain ⟨first, taken, rfl, settled⟩ := induction found
        refine ⟨character, first :: taken, rfl, fun other => ?_⟩
        have still : ∀ behind, character = '*' → first :: taken ++ other = '/' :: behind → False := by
          intro behind star slash
          rw [List.cons_append, List.cons.injEq] at slash
          exact goesOn (taken ++ rest) star (by rw [slash.1]; rfl)
        rw [List.cons_append, blockCommentRest.eq_3 _ _ still]
        exact settled other
  intro text rest found
  obtain ⟨first, taken, whole, others⟩ := settled text rest found
  exact ⟨first :: taken, whole, others⟩

end Go

end Scaffold
