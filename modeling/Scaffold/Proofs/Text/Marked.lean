import Mathlib.Data.List.Nodup
import Scaffold.Proofs.Sorting
import Scaffold.Proofs.Text.Encoding

/-!
# Texts with marked parts

A text some parts of which are marked, as its comments are, is a list of symbols and
marked parts.  Blanked out it has one symbol for each of them, and this is also what
is left of the whole text when the spans of the parts are cut out of it, each for a
space.  The bytes of such a text are marked where its characters are.
-/

namespace Scaffold

/-- A text some parts of which are marked. -/
abbrev Marked (Symbol : Type) := List (Symbol ⊕ List Symbol)

namespace Marked

variable {Symbol : Type}

/-- The text with its marked parts. -/
def whole (text : Marked Symbol) : List Symbol :=
  text.flatMap (Sum.elim (fun symbol => [symbol]) id)

/-- The text with a space for each marked part. -/
def blanked (space : Symbol) (text : Marked Symbol) : List Symbol :=
  text.map (Sum.elim id fun _ => space)

/-- The text with its marked parts left open. -/
def frame (text : Marked Symbol) : List (Option Symbol) :=
  text.map (Sum.elim some fun _ => none)

/-- The marked parts with their places, of a text that begins at a place. -/
def parts : Nat → Marked Symbol → List (Nat × List Symbol)
  | _, [] => []
  | place, .inl _ :: rest => parts (place + 1) rest
  | place, .inr part :: rest => (place, part) :: parts (place + part.length) rest

variable {space : Symbol} {text : Marked Symbol} {place : Nat}

@[simp] theorem whole_nil : whole ([] : Marked Symbol) = [] := rfl

@[simp] theorem whole_append (left right : Marked Symbol) :
    whole (left ++ right) = whole left ++ whole right :=
  List.flatMap_append

@[simp] theorem whole_symbol (symbol : Symbol) (rest : Marked Symbol) :
    whole (.inl symbol :: rest) = symbol :: whole rest := rfl

@[simp] theorem whole_part (part : List Symbol) (rest : Marked Symbol) :
    whole (.inr part :: rest) = part ++ whole rest := rfl

@[simp] theorem whole_map_inl (symbols : List Symbol) : whole (symbols.map .inl) = symbols := by
  induction symbols with
  | nil => rfl
  | cons symbol rest induction => rw [List.map_cons, whole_symbol, induction]

@[simp] theorem blanked_append (space : Symbol) (left right : Marked Symbol) :
    blanked space (left ++ right) = blanked space left ++ blanked space right :=
  List.map_append

@[simp] theorem blanked_symbol (space symbol : Symbol) (rest : Marked Symbol) :
    blanked space (.inl symbol :: rest) = symbol :: blanked space rest := rfl

@[simp] theorem blanked_part (space : Symbol) (part : List Symbol) (rest : Marked Symbol) :
    blanked space (.inr part :: rest) = space :: blanked space rest := rfl

@[simp] theorem blanked_map_inl (space : Symbol) (symbols : List Symbol) :
    blanked space (symbols.map .inl) = symbols := by
  rw [blanked, List.map_map]
  exact List.map_id symbols

theorem blanked_eq_frame (space : Symbol) (text : Marked Symbol) :
    blanked space text = text.frame.map fun symbol? => symbol?.getD space := by
  rw [blanked, frame, List.map_map]
  refine List.map_congr_left fun item _ => ?_
  cases item <;> rfl

theorem exists_of_blanked_append {front behind : List Symbol}
    (split : text.blanked space = front ++ behind) :
    ∃ left right, text = left ++ right ∧ left.blanked space = front ∧
      right.blanked space = behind := by
  obtain ⟨left, right, rfl, first, second⟩ := List.map_eq_append_iff.mp split
  exact ⟨left, right, rfl, first, second⟩

theorem exists_of_blanked_cons {symbol : Symbol} {behind : List Symbol} (solid : symbol ≠ space)
    (split : text.blanked space = symbol :: behind) :
    ∃ rest : Marked Symbol, text = .inl symbol :: rest ∧ rest.blanked space = behind := by
  obtain ⟨item, rest, rfl, first, same⟩ := List.map_eq_cons_iff.mp split
  cases item with
  | inl own =>
      have own : own = symbol := first
      exact ⟨rest, by rw [own], same⟩
  | inr part => exact absurd first.symm solid

theorem parts_append (left right : Marked Symbol) :
    ∀ place, parts place (left ++ right) =
      parts place left ++ parts (place + left.whole.length) right := by
  induction left with
  | nil => exact fun _ => rfl
  | cons item rest induction =>
      intro place
      cases item <;> simp [parts, induction, Nat.add_assoc, Nat.add_comm 1]

@[simp] theorem parts_map_inl (symbols : List Symbol) (place : Nat) :
    parts place (symbols.map .inl) = [] := by
  induction symbols generalizing place with
  | nil => rfl
  | cons symbol rest induction => exact induction (place + 1)

theorem bounds_of_mem_parts {part : Nat × List Symbol} (text : Marked Symbol) :
    ∀ place, part ∈ parts place text →
      place ≤ part.1 ∧ part.1 + part.2.length ≤ place + text.whole.length := by
  induction text with
  | nil => exact nofun
  | cons item rest induction =>
      intro place member
      cases item with
      | inl symbol =>
          obtain ⟨behind, before⟩ := induction (place + 1) member
          rw [whole_symbol, List.length_cons]
          omega
      | inr own =>
          rw [whole_part, List.length_append]
          rcases List.mem_cons.mp member with rfl | later
          · exact ⟨Nat.le_refl _, Nat.add_le_add_left (Nat.le_add_right _ _) _⟩
          · obtain ⟨behind, before⟩ := induction (place + own.length) later
            omega

theorem parts_symbol_ne (symbol : Symbol) (part : List Symbol) (rest others : Marked Symbol)
    (place : Nat) : parts place (.inl symbol :: rest) ≠ parts place (.inr part :: others) := by
  intro same
  have member : (place, part) ∈ parts (place + 1) rest := by
    rw [parts, parts] at same
    rw [same]
    exact List.mem_cons_self
  exact Nat.not_succ_le_self place (bounds_of_mem_parts rest _ member).1

/-- A text is known by its marked parts and the whole of it. -/
theorem eq_of_parts (text other : Marked Symbol) :
    ∀ place, text.whole = other.whole → parts place text = parts place other → text = other := by
  induction text generalizing other with
  | nil =>
      intro place whole same
      cases other with
      | nil => rfl
      | cons item rest => cases item <;> simp [parts] at whole same
  | cons item rest induction =>
      intro place whole same
      cases other with
      | nil => cases item <;> simp [parts] at whole same
      | cons first others =>
          cases item with
          | inl symbol =>
              cases first with
              | inl own =>
                  obtain ⟨rfl, behind⟩ := List.cons.inj whole
                  rw [induction others (place + 1) behind same]
              | inr part => exact absurd same (parts_symbol_ne symbol part rest others place)
          | inr part =>
              cases first with
              | inl own => exact absurd same.symm (parts_symbol_ne own part others rest place)
              | inr own =>
                  obtain ⟨here, later⟩ := List.cons.inj same
                  obtain ⟨-, rfl⟩ := Prod.mk.inj here
                  rw [induction others _ (List.append_cancel_left whole) later]

/-- Marked parts that are not empty begin one behind the other. -/
theorem pairwise_parts (text : Marked Symbol) :
    ∀ place, (∀ part ∈ parts place text, part.2 ≠ []) →
      (∀ part ∈ parts place text, place ≤ part.1) ∧
        (parts place text).Pairwise fun part later => part.1 < later.1 := by
  induction text with
  | nil => exact fun _ _ => ⟨nofun, .nil⟩
  | cons item rest induction =>
      intro place some
      cases item with
      | inl symbol =>
          obtain ⟨behind, ordered⟩ := induction (place + 1) some
          exact ⟨fun part member => Nat.le_of_succ_le (behind part member), ordered⟩
      | inr part =>
          obtain ⟨here, later⟩ := List.forall_mem_cons.mp some
          have length : 0 < part.length := List.length_pos_of_ne_nil here
          obtain ⟨behind, ordered⟩ := induction (place + part.length) later
          refine ⟨List.forall_mem_cons.mpr ⟨Nat.le_refl _, fun other member => ?_⟩,
            .cons (fun other member => ?_) ordered⟩ <;>
          · have := behind other member
            omega

/-! ## Stretches -/

/-- The marked text goes from one position of a longer text to another one. -/
def IsStretch (text : Marked Symbol) (start stop : Nat) (stretch : Marked Symbol) : Prop :=
  ∃ before after, text = before ++ (stretch ++ after) ∧ before.whole.length = start ∧
    start + stretch.whole.length = stop

/-- Those of some marked parts that stand between two positions. -/
def within (start stop : Nat) (parts : List (Nat × List Symbol)) : List (Nat × List Symbol) :=
  parts.filter fun part => start ≤ part.1 && part.1 + part.2.length ≤ stop

variable {start stop : Nat} {stretch : Marked Symbol}

theorem IsStretch.whole_eq (isStretch : IsStretch text start stop stretch) :
    stretch.whole = (text.whole.take stop).drop start := by
  obtain ⟨before, after, rfl, rfl, rfl⟩ := isStretch
  rw [whole_append, whole_append, ← List.append_assoc, ← List.length_append, List.take_left,
    List.drop_left]

theorem within_eq_nil (some : ∀ part ∈ parts place text, part.2 ≠ [])
    (away : place + text.whole.length ≤ start ∨ stop ≤ place) :
    within start stop (parts place text) = [] := by
  rw [within, List.filter_eq_nil_iff]
  intro part member inside
  have length := List.length_pos_of_ne_nil (some part member)
  have bounds := bounds_of_mem_parts text place member
  simp only [Bool.and_eq_true, decide_eq_true_eq] at inside
  omega

theorem within_append (start stop : Nat) (left right : List (Nat × List Symbol)) :
    within start stop (left ++ right) = within start stop left ++ within start stop right :=
  List.filter_append ..

theorem IsStretch.parts_eq (isStretch : IsStretch text start stop stretch)
    (some : ∀ part ∈ parts 0 text, part.2 ≠ []) :
    stretch.parts start = within start stop (text.parts 0) := by
  obtain ⟨before, after, rfl, rfl, rfl⟩ := isStretch
  simp only [parts_append, Nat.zero_add, List.forall_mem_append] at some ⊢
  have own : within (whole before).length ((whole before).length + (whole stretch).length)
      (parts (whole before).length stretch) = parts (whole before).length stretch := by
    rw [within, List.filter_eq_self]
    intro part member
    simpa using bounds_of_mem_parts stretch _ member
  have early : 0 + (whole before).length ≤ (whole before).length := Nat.le_of_eq (Nat.zero_add _)
  rw [within_append, within_append, own, within_eq_nil some.1 (.inl early),
    within_eq_nil some.2.2 (.inr (Nat.le_refl _)), List.nil_append, List.append_nil]

/-! ## Spans that are cut out -/

/-- Where a part begins and where it ends. -/
def span (part : Nat × List Symbol) : Nat × Nat :=
  (part.1, part.1 + part.2.length)

/-- What is left of a text behind a place when spans are cut out of it one after the
other, each for a space.  The spans are told by their places in a longer text, in
which this text begins at an origin. -/
def cutOut (space : Symbol) (origin : Nat) (text : List Symbol) :
    Nat → List (Nat × Nat) → List Symbol
  | last, [] => text.drop last
  | last, (start, stop) :: rest =>
    (text.take (start - origin)).drop last ++
      space :: cutOut space origin text (stop - origin) rest

/-- The symbols between two parts are kept: those in `run` stand behind the last cut. -/
theorem cutOut_parts (space : Symbol) (origin : Nat) (text : Marked Symbol) :
    ∀ front run : List Symbol,
      cutOut space origin (front ++ (run ++ text.whole)) front.length
          ((parts (origin + (front ++ run).length) text).map span) =
        run ++ text.blanked space := by
  induction text with
  | nil =>
      intro front run
      exact List.drop_left
  | cons item rest induction =>
      intro front run
      cases item with
      | inl symbol =>
          have next := induction front (run ++ [symbol])
          have place : origin + (front ++ (run ++ [symbol])).length =
              origin + (front ++ run).length + 1 := by
            simp only [List.length_append, List.length_singleton]
            omega
          rw [place, List.append_assoc run, List.append_assoc run] at next
          exact next
      | inr part =>
          have next := induction (front ++ run ++ part) []
          have stop : origin + (front ++ run).length + part.length - origin =
              (front ++ run ++ part).length := by
            simp only [List.length_append]
            omega
          have kept : (front ++ (run ++ (part ++ whole rest))).take (front ++ run).length =
              front ++ run := by
            rw [← List.append_assoc]
            exact List.take_left
          have place : origin + (front ++ run).length + part.length =
              origin + (front ++ run ++ part).length := by
            simp only [List.length_append]
            omega
          rw [List.append_nil, List.nil_append, List.nil_append] at next
          rw [whole_part, blanked_part, parts, List.map_cons, cutOut, span, stop,
            Nat.add_sub_cancel_left, kept, List.drop_left, place]
          rw [List.append_assoc, List.append_assoc] at next
          rw [next]

/-- Cutting the parts out, whatever the order in which they were found. -/
theorem cutOut_sort {origin : Nat} {found : List (Nat × Nat)}
    (some : ∀ part ∈ parts origin text, part.2 ≠ [])
    (same : found.Perm ((parts origin text).map span)) :
    cutOut space origin text.whole 0
        (Sorting.sort (fun left right => compare left.1 right.1) found) =
      text.blanked space := by
  have ascends : ((parts origin text).map span).Pairwise fun left right => left.1 < right.1 :=
    List.pairwise_map.mpr (pairwise_parts text origin some).2
  have sorted : Sorting.sort (fun left right => compare left.1 right.1) found =
      (parts origin text).map span := by
    refine List.Perm.eq_of_pairwise ?_ (Sorting.pairwise_sort_by Prod.fst found)
      (ascends.imp Nat.le_of_lt) ((Sorting.sort_perm _ found).trans same)
    -- No two parts begin at the same place.
    intro left right first second before after
    have once : (((parts origin text).map span).map Prod.fst).Nodup :=
      List.pairwise_map.mpr (ascends.imp Nat.ne_of_lt)
    exact List.inj_on_of_nodup_map once
      (same.mem_iff.mp ((Sorting.mem_sort _).mp first)) second (Nat.le_antisymm before after)
  rw [sorted]
  exact cutOut_parts space origin text [] []

/-! ## Bytes -/

/-- The bytes of a text with those of its marked parts. -/
def bytes (text : Marked Char) : Marked UInt8 :=
  text.flatMap (Sum.elim (fun character => (Utf8.encodeChar character).map .inl)
    fun part => [.inr (Utf8.encode part)])

theorem bytes_symbol (character : Char) (rest : Marked Char) :
    bytes (.inl character :: rest) = (Utf8.encodeChar character).map .inl ++ bytes rest := rfl

theorem bytes_part (part : Text) (rest : Marked Char) :
    bytes (.inr part :: rest) = .inr (Utf8.encode part) :: bytes rest := rfl

theorem whole_bytes (text : Marked Char) : text.bytes.whole = Utf8.encode text.whole := by
  induction text with
  | nil => rfl
  | cons item rest induction =>
      cases item with
      | inl character => rw [bytes_symbol, whole_append, whole_map_inl, induction]; rfl
      | inr part =>
          rw [bytes_part, whole_part, whole_part, induction, Utf8.encode_append]

theorem blanked_bytes (text : Marked Char) :
    text.bytes.blanked 32 = Utf8.encode (text.blanked ' ') := by
  induction text with
  | nil => rfl
  | cons item rest induction =>
      cases item with
      | inl character => rw [bytes_symbol, blanked_append, blanked_map_inl, induction]; rfl
      | inr part => rw [bytes_part, blanked_part, blanked_part, induction]; rfl

/-- A part of a text as bytes, its place counted in the bytes of a longer text. -/
def byteSpan (source : Text) (part : Nat × Text) : Nat × Bytes :=
  (Utf8.size (source.take part.1), Utf8.encode part.2)

theorem parts_bytes {source : Text} (text : Marked Char) :
    ∀ front behind, source = front ++ (text.whole ++ behind) →
      parts (Utf8.size front) text.bytes = (parts front.length text).map (byteSpan source) := by
  induction text with
  | nil => exact fun _ _ _ => rfl
  | cons item rest induction =>
      intro front behind split
      cases item with
      | inl character =>
          have next := induction (front ++ [character]) behind (by rw [split]; simp)
          have length : (Utf8.encodeChar character).length = Utf8.size [character] := by
            rw [Utf8.size, Utf8.encode, List.flatMap_singleton]
          rw [Utf8.size_append, List.length_append] at next
          rw [bytes_symbol, parts_append, parts_map_inl, whole_map_inl, length]
          exact next
      | inr part =>
          have next := induction (front ++ part) behind (by rw [split]; simp)
          have here : source.take front.length = front := by rw [split, List.take_left]
          rw [Utf8.size_append, List.length_append] at next
          rw [bytes_part, parts, parts, List.map_cons, byteSpan, here]
          exact congrArg _ next

theorem IsStretch.bytes {text stretch : Marked Char}
    (isStretch : IsStretch text start stop stretch) :
    IsStretch text.bytes (Utf8.size (text.whole.take start)) (Utf8.size (text.whole.take stop))
      stretch.bytes := by
  obtain ⟨before, after, rfl, rfl, rfl⟩ := isStretch
  refine ⟨before.bytes, after.bytes, ?_, ?_, ?_⟩
  · rw [bytes, List.flatMap_append, List.flatMap_append]
    rfl
  · rw [whole_bytes, whole_append, List.take_left, Utf8.size]
  · rw [whole_bytes, whole_append, whole_append, List.take_left, ← List.append_assoc,
      ← List.length_append, List.take_left, Utf8.size_append]
    rfl

end Marked

end Scaffold
