import Scaffold.Text.Utf8

/-!
# Encoding and decoding

Decoding gives back every text that was encoded.  The sequences of one, two,
three and four bytes are treated one after the other; what a first byte
announces is exactly what the encoder wrote behind it.  Only the shortest
encodings are read, so encoding gives back all bytes that were decoded.
-/

namespace Scaffold

namespace Utf8

private theorem toNat_byte {number : Nat} (small : number < 256) :
    (UInt8.ofNat number).toNat = number := by
  rw [UInt8.toNat_ofNat']
  exact Nat.mod_eq_of_lt small

/-- A byte within its bounds is taken into the code point. -/
private theorem continuation_step
    {following taken lowest highest code number : Nat} {rest : Bytes}
    (small : number < 256) (lower : lowest ≤ number) (upper : number ≤ highest) :
    continuation (following + 1) taken lowest highest code (UInt8.ofNat number :: rest) =
      continuation following (taken + 1) 0x80 0xBF (code * 64 + (number - 0x80)) rest := by
  rw [continuation, toNat_byte small, if_pos ⟨lower, upper⟩]

/-- What a first byte announces decides how a sequence is read. -/
private theorem decodeFrom_sequence
    {fuel position first : Nat} {lead : Lead} {code : Nat} {behind rest : Bytes}
    (small : first < 256) (announced : lead? first = some lead)
    (read : continuation lead.following 1 lead.lowest lead.highest lead.carried behind =
      .ok (code, rest)) :
    decodeFrom (fuel + 1) position (UInt8.ofNat first :: behind) =
      (decodeFrom fuel (position + 1 + lead.following) rest).map (Char.ofNat code :: ·) := by
  rw [decodeFrom, toNat_byte small, announced]
  simp only [read]
  cases decodeFrom fuel (position + 1 + lead.following) rest <;> rfl

private theorem decodeFrom_two
    {fuel position code : Nat} {rest : Bytes}
    (lower : 0x80 ≤ code) (upper : code < 0x800) :
    decodeFrom (fuel + 1) position
        (UInt8.ofNat (0xC0 + code / 64) :: UInt8.ofNat (0x80 + code / 1 % 64) :: rest) =
      (decodeFrom fuel (position + 2) rest).map (Char.ofNat code :: ·) := by
  have announced : lead? (0xC0 + code / 64) = some ⟨1, code / 64, 0x80, 0xBF⟩ := by
    rw [lead?, if_neg (by omega), if_neg (by omega), if_pos (by omega)]
    simp
  have read :
      continuation 1 1 0x80 0xBF (code / 64) (UInt8.ofNat (0x80 + code / 1 % 64) :: rest) =
        .ok (code, rest) := by
    have restored : code / 64 * 64 + (0x80 + code / 1 % 64 - 0x80) = code := by omega
    rw [continuation_step (by omega) (by omega) (by omega), continuation, restored]
  exact decodeFrom_sequence (by omega) announced read

private theorem decodeFrom_three
    {fuel position code : Nat} {rest : Bytes}
    (lower : 0x800 ≤ code) (upper : code < 0x10000)
    (noSurrogate : code < 0xD800 ∨ 0xDFFF < code) :
    decodeFrom (fuel + 1) position
        (UInt8.ofNat (0xE0 + code / 4096) :: UInt8.ofNat (0x80 + code / 64 % 64) ::
          UInt8.ofNat (0x80 + code / 1 % 64) :: rest) =
      (decodeFrom fuel (position + 3) rest).map (Char.ofNat code :: ·) := by
  have announced : lead? (0xE0 + code / 4096) =
      some ⟨2, code / 4096, if 0xE0 + code / 4096 = 0xE0 then 0xA0 else 0x80,
        if 0xE0 + code / 4096 = 0xED then 0x9F else 0xBF⟩ := by
    rw [lead?, if_neg (by omega), if_neg (by omega), if_neg (by omega), if_pos (by omega)]
    simp
  have read :
      continuation 2 1 (if 0xE0 + code / 4096 = 0xE0 then 0xA0 else 0x80)
          (if 0xE0 + code / 4096 = 0xED then 0x9F else 0xBF) (code / 4096)
          (UInt8.ofNat (0x80 + code / 64 % 64) :: UInt8.ofNat (0x80 + code / 1 % 64) :: rest) =
        .ok (code, rest) := by
    have restored : (code / 4096 * 64 + (0x80 + code / 64 % 64 - 0x80)) * 64 +
        (0x80 + code / 1 % 64 - 0x80) = code := by omega
    rw [continuation_step (by omega) (by split <;> omega) (by split <;> omega),
      continuation_step (by omega) (by omega) (by omega), continuation, restored]
  exact decodeFrom_sequence (by omega) announced read

private theorem decodeFrom_four
    {fuel position code : Nat} {rest : Bytes}
    (lower : 0x10000 ≤ code) (upper : code < 0x110000) :
    decodeFrom (fuel + 1) position
        (UInt8.ofNat (0xF0 + code / 262144) :: UInt8.ofNat (0x80 + code / 4096 % 64) ::
          UInt8.ofNat (0x80 + code / 64 % 64) :: UInt8.ofNat (0x80 + code / 1 % 64) :: rest) =
      (decodeFrom fuel (position + 4) rest).map (Char.ofNat code :: ·) := by
  have announced : lead? (0xF0 + code / 262144) =
      some ⟨3, code / 262144, if 0xF0 + code / 262144 = 0xF0 then 0x90 else 0x80,
        if 0xF0 + code / 262144 = 0xF4 then 0x8F else 0xBF⟩ := by
    rw [lead?, if_neg (by omega), if_neg (by omega), if_neg (by omega), if_neg (by omega),
      if_pos (by omega)]
    simp
  have read :
      continuation 3 1 (if 0xF0 + code / 262144 = 0xF0 then 0x90 else 0x80)
          (if 0xF0 + code / 262144 = 0xF4 then 0x8F else 0xBF) (code / 262144)
          (UInt8.ofNat (0x80 + code / 4096 % 64) :: UInt8.ofNat (0x80 + code / 64 % 64) ::
            UInt8.ofNat (0x80 + code / 1 % 64) :: rest) =
        .ok (code, rest) := by
    have restored : ((code / 262144 * 64 + (0x80 + code / 4096 % 64 - 0x80)) * 64 +
        (0x80 + code / 64 % 64 - 0x80)) * 64 + (0x80 + code / 1 % 64 - 0x80) = code := by
      omega
    rw [continuation_step (by omega) (by split <;> omega) (by split <;> omega),
      continuation_step (by omega) (by omega) (by omega),
      continuation_step (by omega) (by omega) (by omega), continuation, restored]
  exact decodeFrom_sequence (by omega) announced read

/-- The bytes of a character are read as this character. -/
theorem decodeFrom_encodeChar
    (fuel position : Nat) (character : Char) (rest : Bytes) :
    decodeFrom (fuel + 1) position (encodeChar character ++ rest) =
      (decodeFrom fuel (position + (encodeChar character).length) rest).map
        (character :: ·) := by
  have restored : Char.ofNat character.toNat = character := Char.ofNat_toNat character
  have valid : character.toNat < 0xD800 ∨
      (0xDFFF < character.toNat ∧ character.toNat < 0x110000) := character.valid
  unfold encodeChar
  generalize character.toNat = code at valid restored
  subst restored
  by_cases one : code < 0x80
  · have announced : lead? code = some ⟨0, code, 0x80, 0xBF⟩ := by
      rw [lead?, if_pos one]
    simp only [if_pos one]
    exact decodeFrom_sequence (by omega) announced rfl
  · by_cases two : code < 0x800
    · simp only [if_neg one, if_pos two]
      exact decodeFrom_two (by omega) two
    · by_cases three : code < 0x10000
      · simp only [if_neg one, if_neg two, if_pos three]
        exact decodeFrom_three (by omega) three (by omega)
      · simp only [if_neg one, if_neg two, if_neg three]
        exact decodeFrom_four (by omega) (by omega)

theorem encodeChar_ne_nil (character : Char) : encodeChar character ≠ [] := by
  unfold encodeChar
  dsimp only
  split
  · exact List.cons_ne_nil _ _
  · split
    · exact List.cons_ne_nil _ _
    · split <;> exact List.cons_ne_nil _ _

theorem encode_append (left right : Text) :
    encode (left ++ right) = encode left ++ encode right :=
  List.flatMap_append

theorem size_append (left right : Text) : size (left ++ right) = size left + size right := by
  rw [size, encode_append, List.length_append, size, size]

theorem length_le_size (text : Text) : text.length ≤ (encode text).length := by
  induction text with
  | nil => exact Nat.le_refl 0
  | cons character rest induction =>
      have positive : 0 < (encodeChar character).length :=
        List.length_pos_iff.mpr (encodeChar_ne_nil character)
      have split : encode (character :: rest) = encodeChar character ++ encode rest := rfl
      rw [split, List.length_append, List.length_cons]
      omega

private theorem decodeFrom_encode (text : Text) :
    ∀ fuel position, text.length ≤ fuel →
      decodeFrom fuel position (encode text) = .ok text := by
  induction text with
  | nil =>
      intro fuel position _
      cases fuel <;> rfl
  | cons character rest induction =>
      intro fuel position enough
      cases fuel with
      | zero => exact absurd enough (by simp)
      | succ fuel =>
          have split : encode (character :: rest) = encodeChar character ++ encode rest := rfl
          rw [split, decodeFrom_encodeChar,
            induction fuel _ (Nat.le_of_succ_le_succ enough)]
          rfl

@[simp] theorem decode_encode (text : Text) : decode (encode text) = .ok text :=
  decodeFrom_encode text _ 0 (length_le_size text)

/-! ## Encoding what was decoded -/

/-- One more byte was read, and it was within its bounds. -/
private theorem exists_byte_of_continuation
    {following taken lowest highest code last : Nat} {bytes rest : Bytes}
    (read : continuation (following + 1) taken lowest highest code bytes = .ok (last, rest)) :
    ∃ byte behind, bytes = byte :: behind ∧ lowest ≤ byte.toNat ∧ byte.toNat ≤ highest ∧
      continuation following (taken + 1) 0x80 0xBF (code * 64 + (byte.toNat - 0x80)) behind =
        .ok (last, rest) := by
  cases bytes with
  | nil => simp [continuation] at read
  | cons byte behind =>
      rw [continuation] at read
      split at read
      · rename_i bounds
        exact ⟨byte, behind, rfl, bounds.1, bounds.2, read⟩
      · simp at read

private theorem toNat_ofNat_of_valid {code : Nat} (valid : code.isValidChar) :
    (Char.ofNat code).toNat = code := by
  rw [Char.ofNat, dif_pos valid]
  rfl

private theorem ofNat_eq_of_toNat (byte : UInt8) {number : Nat} (same : number = byte.toNat) :
    UInt8.ofNat number = byte := by
  rw [same, UInt8.ofNat_toNat]

/-! The bytes of a sequence, by its length, are those of its character. -/

private theorem encodeChar_two {first second : UInt8} (low : 0xC2 ≤ first.toNat)
    (high : first.toNat ≤ 0xDF) (lower : 0x80 ≤ second.toNat) (upper : second.toNat ≤ 0xBF) :
    encodeChar (Char.ofNat ((first.toNat - 0xC0) * 64 + (second.toNat - 0x80))) =
      [first, second] := by
  have valid : ((first.toNat - 0xC0) * 64 + (second.toNat - 0x80)).isValidChar :=
    .inl (by omega)
  rw [encodeChar, toNat_ofNat_of_valid valid]
  dsimp only
  rw [if_neg (by omega), if_pos (by omega), ofNat_eq_of_toNat first (by omega),
    ofNat_eq_of_toNat second (by omega)]

private theorem encodeChar_three {first second third : UInt8} (low : 0xE0 ≤ first.toNat)
    (high : first.toNat ≤ 0xEF)
    (lower : (if first.toNat = 0xE0 then 0xA0 else 0x80) ≤ second.toNat)
    (upper : second.toNat ≤ if first.toNat = 0xED then 0x9F else 0xBF)
    (thirdLower : 0x80 ≤ third.toNat) (thirdUpper : third.toNat ≤ 0xBF) :
    encodeChar (Char.ofNat
        (((first.toNat - 0xE0) * 64 + (second.toNat - 0x80)) * 64 + (third.toNat - 0x80))) =
      [first, second, third] := by
  have valid : (((first.toNat - 0xE0) * 64 + (second.toNat - 0x80)) * 64 +
      (third.toNat - 0x80)).isValidChar := by
    by_cases surrogate : first.toNat = 0xED
    · rw [if_pos surrogate] at upper
      exact .inl (by omega)
    · by_cases below : first.toNat < 0xED
      · exact .inl (by split at upper <;> omega)
      · exact .inr ⟨by split at lower <;> omega, by split at upper <;> omega⟩
  have least : 0x800 ≤ ((first.toNat - 0xE0) * 64 + (second.toNat - 0x80)) * 64 +
      (third.toNat - 0x80) := by
    split at lower <;> omega
  have bound : second.toNat ≤ 0xBF := by
    split at upper <;> omega
  have start : 0x80 ≤ second.toNat := by
    split at lower <;> omega
  rw [encodeChar, toNat_ofNat_of_valid valid]
  dsimp only
  rw [if_neg (by omega), if_neg (by omega), if_pos (by omega), ofNat_eq_of_toNat first (by omega),
    ofNat_eq_of_toNat second (by omega), ofNat_eq_of_toNat third (by omega)]

private theorem encodeChar_four {first second third fourth : UInt8} (low : 0xF0 ≤ first.toNat)
    (high : first.toNat ≤ 0xF4)
    (lower : (if first.toNat = 0xF0 then 0x90 else 0x80) ≤ second.toNat)
    (upper : second.toNat ≤ if first.toNat = 0xF4 then 0x8F else 0xBF)
    (thirdLower : 0x80 ≤ third.toNat) (thirdUpper : third.toNat ≤ 0xBF)
    (fourthLower : 0x80 ≤ fourth.toNat) (fourthUpper : fourth.toNat ≤ 0xBF) :
    encodeChar (Char.ofNat
        ((((first.toNat - 0xF0) * 64 + (second.toNat - 0x80)) * 64 + (third.toNat - 0x80)) * 64 +
          (fourth.toNat - 0x80))) = [first, second, third, fourth] := by
  have least : 0x10000 ≤ (((first.toNat - 0xF0) * 64 + (second.toNat - 0x80)) * 64 +
      (third.toNat - 0x80)) * 64 + (fourth.toNat - 0x80) := by
    split at lower <;> omega
  have most : (((first.toNat - 0xF0) * 64 + (second.toNat - 0x80)) * 64 +
      (third.toNat - 0x80)) * 64 + (fourth.toNat - 0x80) < 0x110000 := by
    split at upper <;> omega
  have bound : second.toNat ≤ 0xBF := by
    split at upper <;> omega
  have start : 0x80 ≤ second.toNat := by
    split at lower <;> omega
  have valid : ((((first.toNat - 0xF0) * 64 + (second.toNat - 0x80)) * 64 +
      (third.toNat - 0x80)) * 64 + (fourth.toNat - 0x80)).isValidChar :=
    .inr ⟨by omega, most⟩
  rw [encodeChar, toNat_ofNat_of_valid valid]
  dsimp only
  rw [if_neg (by omega), if_neg (by omega), if_neg (by omega), ofNat_eq_of_toNat first (by omega),
    ofNat_eq_of_toNat second (by omega), ofNat_eq_of_toNat third (by omega),
    ofNat_eq_of_toNat fourth (by omega)]

/-- The bytes of a sequence are those of the character that was read. -/
private theorem encodeChar_of_continuation
    {byte : UInt8} {lead : Lead} {code : Nat} {behind rest : Bytes}
    (announced : lead? byte.toNat = some lead)
    (read : continuation lead.following 1 lead.lowest lead.highest lead.carried behind =
      .ok (code, rest)) :
    encodeChar (Char.ofNat code) ++ rest = byte :: behind := by
  have small : byte.toNat < 256 := byte.toNat_lt
  unfold lead? at announced
  split at announced
  · -- One byte.
    rename_i range
    rw [← Option.some.inj announced, continuation] at read
    obtain ⟨rfl, rfl⟩ := Prod.mk.inj (Except.ok.inj read)
    have valid : byte.toNat.isValidChar := .inl (by omega)
    simp [encodeChar, toNat_ofNat_of_valid valid, range]
  · split at announced
    · simp at announced
    · split at announced
      · -- Two bytes.
        rw [← Option.some.inj announced] at read
        obtain ⟨second, rest, rfl, lower, upper, read⟩ := exists_byte_of_continuation read
        rw [continuation] at read
        obtain ⟨rfl, rfl⟩ := Prod.mk.inj (Except.ok.inj read)
        rw [encodeChar_two (by omega) (by omega) lower upper]
        rfl
      · split at announced
        · -- Three bytes.
          rw [← Option.some.inj announced] at read
          obtain ⟨second, rest, rfl, lower, upper, read⟩ := exists_byte_of_continuation read
          obtain ⟨third, rest, rfl, thirdLower, thirdUpper, read⟩ :=
            exists_byte_of_continuation read
          rw [continuation] at read
          obtain ⟨rfl, rfl⟩ := Prod.mk.inj (Except.ok.inj read)
          rw [encodeChar_three (by omega) (by omega) lower upper thirdLower thirdUpper]
          rfl
        · split at announced
          · -- Four bytes.
            rw [← Option.some.inj announced] at read
            obtain ⟨second, rest, rfl, lower, upper, read⟩ := exists_byte_of_continuation read
            obtain ⟨third, rest, rfl, thirdLower, thirdUpper, read⟩ :=
              exists_byte_of_continuation read
            obtain ⟨fourth, rest, rfl, fourthLower, fourthUpper, read⟩ :=
              exists_byte_of_continuation read
            rw [continuation] at read
            obtain ⟨rfl, rfl⟩ := Prod.mk.inj (Except.ok.inj read)
            rw [encodeChar_four (by omega) (by omega) lower upper thirdLower thirdUpper fourthLower
              fourthUpper]
            rfl
          · simp at announced

private theorem length_continuation (following : Nat) :
    ∀ {taken lowest highest code last : Nat} {bytes rest : Bytes},
      continuation following taken lowest highest code bytes = .ok (last, rest) →
        rest.length ≤ bytes.length := by
  induction following with
  | zero =>
      intro taken lowest highest code last bytes rest read
      rw [continuation] at read
      exact Nat.le_of_eq (congrArg List.length (Prod.mk.inj (Except.ok.inj read)).2.symm)
  | succ following induction =>
      intro taken lowest highest code last bytes rest read
      obtain ⟨byte, behind, rfl, _, _, later⟩ := exists_byte_of_continuation read
      have shorter := induction later
      rw [List.length_cons]
      omega

private theorem encode_decodeFrom (fuel : Nat) :
    ∀ {position : Nat} {bytes : Bytes} {text : Text}, bytes.length ≤ fuel →
      decodeFrom fuel position bytes = .ok text → encode text = bytes := by
  induction fuel with
  | zero =>
      intro position bytes text enough decoded
      have nothing : bytes = [] := by simpa using enough
      rw [nothing, decodeFrom] at decoded
      rw [nothing, ← Except.ok.inj decoded]
      rfl
  | succ fuel induction =>
      intro position bytes text enough decoded
      cases bytes with
      | nil =>
          rw [decodeFrom] at decoded
          rw [← Except.ok.inj decoded]
          rfl
      | cons byte behind =>
          rw [decodeFrom] at decoded
          split at decoded
          · simp at decoded
          · rename_i lead announced
            split at decoded
            · simp at decoded
            · rename_i code remaining read
              split at decoded
              · simp at decoded
              · rename_i others later
                have shorter := length_continuation _ read
                rw [List.length_cons] at enough
                have rest := induction (by omega) later
                rw [← Except.ok.inj decoded]
                have split : encode (Char.ofNat code :: others) =
                    encodeChar (Char.ofNat code) ++ encode others := rfl
                rw [split, rest, encodeChar_of_continuation announced read]

theorem encode_of_decode {bytes : Bytes} {text : Text} (decoded : decode bytes = .ok text) :
    encode text = bytes :=
  encode_decodeFrom _ (Nat.le_refl _) decoded

end Utf8

end Scaffold
