import Scaffold.Proofs.Path.Components
import Scaffold.Text.Lines

/-!
# Lines of generated texts

A text that is put together from lines without line feeds is cut into these
lines again.  Universal newlines change nothing in a text without carriage
returns, and nothing behind a line feed depends on what stands before it.  A line
that stands alone between two line ends is one of the lines of the whole text, and
those before it are the lines of what stands before it.
-/

namespace Scaffold

namespace Text

theorem splitOn_ofLines {lines : List Text} (whole : ∀ line ∈ lines, '\n' ∉ line) :
    splitOn '\n' (ofLines lines) = lines ++ [[]] := by
  induction lines with
  | nil => rfl
  | cons line rest induction =>
      rw [ofLines, List.flatMap_cons, List.append_assoc, List.singleton_append, splitOn_append,
        splitOn_of_not_mem (whole line List.mem_cons_self), ← ofLines,
        induction fun later member => whole later (List.mem_cons_of_mem line member)]
      rfl

theorem line_within_ofLines {line : Text} {lines : List Text} (member : line ∈ lines) :
    line <:+: ofLines lines := by
  obtain ⟨before, behind, rfl⟩ := List.append_of_mem member
  exact ⟨ofLines before, '\n' :: ofLines behind, by simp [ofLines]⟩

theorem not_mem_ofLines {mark : Char} (other : mark ≠ '\n') {lines : List Text}
    (absent : ∀ line ∈ lines, mark ∉ line) : mark ∉ ofLines lines := by
  intro member
  obtain ⟨line, listed, inside⟩ := List.mem_flatMap.mp member
  rcases List.mem_append.mp inside with own | ended
  · exact absent line listed own
  · exact other (List.mem_singleton.mp ended)

/-! ## Universal newlines -/

theorem not_mem_universalNewlines (text : Text) : '\r' ∉ universalNewlines text := by
  fun_induction universalNewlines text with
  | case1 => exact List.not_mem_nil
  | case2 rest induction => simpa using induction
  | case3 rest _ induction => simpa using induction
  | case4 character rest _ other induction =>
      rw [List.mem_cons, not_or]
      exact ⟨fun same => other same.symm, induction⟩

theorem universalNewlines_of_not_mem {text : Text} (absent : '\r' ∉ text) :
    universalNewlines text = text := by
  fun_induction universalNewlines text with
  | case1 => rfl
  | case2 rest _ => simp at absent
  | case3 rest _ _ => simp at absent
  | case4 character rest _ _ induction =>
      rw [induction fun later => absent (List.mem_cons_of_mem character later)]

@[simp] theorem universalNewlines_universalNewlines (text : Text) :
    universalNewlines (universalNewlines text) = universalNewlines text :=
  universalNewlines_of_not_mem (not_mem_universalNewlines text)

theorem exists_universalNewlines_append (front rest : Text) :
    ∃ before, universalNewlines (front ++ '\n' :: rest) =
      before ++ '\n' :: universalNewlines rest := by
  fun_induction universalNewlines front with
  | case1 => exact ⟨[], by simp [universalNewlines]⟩
  | case2 front induction =>
      obtain ⟨before, same⟩ := induction
      exact ⟨'\n' :: before, by simp [universalNewlines, same]⟩
  | case3 front single induction =>
      cases front with
      | nil =>
          -- The carriage return belongs to the line feed.
          exact ⟨[], by simp [universalNewlines]⟩
      | cons next front =>
          obtain ⟨before, same⟩ := induction
          have alone : next ≠ '\n' := fun feed => single front (by rw [feed])
          exact ⟨'\n' :: before, by simpa [universalNewlines, alone] using same⟩
  | case4 character front pair other induction =>
      obtain ⟨before, same⟩ := induction
      refine ⟨character :: before, ?_⟩
      rw [List.cons_append, universalNewlines, same, List.cons_append]
      · exact fun _ carriage => absurd carriage other
      · exact other

/-! ## Lines between line ends -/

/-- The text is empty or ends in a line end. -/
def EndsLine (text : Text) : Prop :=
  ∀ last ∈ text.getLast?, isLineEnd last = true

/-- The text is empty or begins with a line end. -/
def BeginsWithLineEnd (text : Text) : Prop :=
  ∀ first ∈ text.head?, isLineEnd first = true

/-- No line ends in the text. -/
def IsUnbroken (text : Text) : Prop :=
  ∀ character ∈ text, isLineEnd character = false

-- The instances are named, or a search would find one that runs through all characters.
instance (text : Text) : Decidable (EndsLine text) :=
  Option.decidableForallMem text.getLast?

instance (text : Text) : Decidable (BeginsWithLineEnd text) :=
  Option.decidableForallMem text.head?

instance (text : Text) : Decidable (IsUnbroken text) :=
  List.decidableBAll _ text

theorem IsUnbroken.append {front behind : Text} (first : IsUnbroken front)
    (second : IsUnbroken behind) : IsUnbroken (front ++ behind) := by
  intro character member
  rcases List.mem_append.mp member with before | after
  · exact first character before
  · exact second character after

theorem EndsLine.of_cons {character : Char} {text : Text} (ends : EndsLine (character :: text)) :
    EndsLine text := by
  intro last member
  apply ends last
  rw [List.getLast?_cons, Option.mem_def.mp member]
  rfl

namespace lines

/-- A character is handled on its own unless it begins the line end of two
characters. -/
theorem collect_cons {character : Char} {rest : Text}
    (single : character = '\r' → rest.head? ≠ some '\n') (current : Text) :
    collect current (character :: rest) =
      if isLineEnd character = true then current.reverse :: collect [] rest
      else collect (character :: current) rest := by
  rw [collect]
  intro behind carriage feed
  exact single carriage (by rw [feed]; rfl)

theorem collect_line {line : Text} (whole : IsUnbroken line) (rest : Text) :
    ∀ current, collect current (line ++ rest) = collect (line.reverse ++ current) rest := by
  induction line with
  | nil => exact fun _ => rfl
  | cons character line induction =>
      intro current
      have inside : isLineEnd character = false := whole character List.mem_cons_self
      have single : character = '\r' → (line ++ rest).head? ≠ some '\n' := by
        rintro rfl
        exact absurd inside (by decide)
      have later := induction (fun other member => whole other (List.mem_cons_of_mem _ member))
        (character :: current)
      rw [List.cons_append, collect_cons single, inside]
      simpa using later

/-- Behind a line end the lines start afresh, unless the two characters make one
line end. -/
theorem collect_append {text : Text} (single : text.head? ≠ some '\n') (front : Text) :
    ∀ current, (front = [] → current = []) → EndsLine front →
      collect current (front ++ text) = collect current front ++ collect [] text := by
  intro current
  fun_induction collect current front with
  | case1 current =>
      intro fresh _
      rw [fresh rfl]
      rfl
  | case2 current something =>
      intro fresh _
      exact absurd (fresh rfl) (by simpa using something)
  | case3 current front induction =>
      intro _ ends
      have later := induction (fun _ => rfl) ends.of_cons.of_cons
      rw [List.cons_append, List.cons_append, collect, later, List.cons_append]
  | case4 current character front pair ended induction =>
      intro _ ends
      have later := induction (fun _ => rfl) ends.of_cons
      have apart : character = '\r' → (front ++ text).head? ≠ some '\n' := by
        intro carriage
        cases front with
        | nil => exact single
        | cons next front =>
            intro feed
            exact pair front carriage (by rw [Option.some.inj feed])
      rw [List.cons_append, collect_cons apart, if_pos ended, later, List.cons_append]
  | case5 current character front pair inside induction =>
      intro _ ends
      have more : front ≠ [] := by
        rintro rfl
        exact inside (ends character rfl)
      have later := induction (fun none => absurd none more) ends.of_cons
      have apart : character = '\r' → (front ++ text).head? ≠ some '\n' := by
        rintro rfl
        exact absurd (by decide) inside
      rw [List.cons_append, collect_cons apart, if_neg inside, later]

theorem exists_collect {rest : Text} (ended : BeginsWithLineEnd rest) {current : Text}
    (something : current ≠ []) : ∃ others, collect current rest = current.reverse :: others := by
  cases rest with
  | nil => exact ⟨[], by simp [collect, something]⟩
  | cons first rest =>
      have ends : isLineEnd first = true := ended first rfl
      by_cases single : first = '\r' → rest.head? ≠ some '\n'
      · exact ⟨_, by rw [collect_cons single, if_pos ends]⟩
      · obtain ⟨rfl, feed⟩ := Classical.not_imp.mp single
        obtain ⟨behind, rfl⟩ := List.head?_eq_some_iff.mp (not_not.mp feed)
        exact ⟨_, rfl⟩

theorem collect_universalNewlines (text : Text) :
    ∀ current, collect current (universalNewlines text) = collect current text := by
  have feed : '\n' ≠ '\r' := by decide
  have feedEnds : isLineEnd '\n' = true := by decide
  have carriageEnds : isLineEnd '\r' = true := by decide
  fun_induction universalNewlines text with
  | case1 => exact fun _ => rfl
  | case2 rest induction =>
      intro current
      rw [collect_cons fun same => absurd same feed, if_pos feedEnds, induction]
      rfl
  | case3 rest single induction =>
      intro current
      have alone : '\r' = '\r' → rest.head? ≠ some '\n' := by
        intro _ first
        obtain ⟨behind, rfl⟩ := List.head?_eq_some_iff.mp first
        exact single behind rfl
      rw [collect_cons fun same => absurd same feed, if_pos feedEnds, induction,
        collect_cons alone, if_pos carriageEnds]
  | case4 character rest pair other induction =>
      intro current
      rw [collect_cons fun carriage => absurd carriage other,
        collect_cons fun carriage => absurd carriage other]
      simp only [induction]

end lines

theorem exists_lines_append {front line rest : Text} (ends : EndsLine front)
    (whole : IsUnbroken line) (something : line ≠ []) (ended : BeginsWithLineEnd rest) :
    ∃ others, lines (front ++ line ++ rest) = lines front ++ line :: others := by
  have single : (line ++ rest).head? ≠ some '\n' := by
    obtain ⟨first, behind, rfl⟩ := List.exists_cons_of_ne_nil something
    intro feed
    rw [List.cons_append, List.head?_cons, Option.some.injEq] at feed
    exact absurd (whole first List.mem_cons_self) (by rw [feed]; decide)
  have turned : line.reverse ≠ [] := fun none => something (List.reverse_eq_nil_iff.mp none)
  obtain ⟨others, collected⟩ := lines.exists_collect ended turned
  refine ⟨others, ?_⟩
  calc
    lines (front ++ line ++ rest) = lines.collect [] (front ++ (line ++ rest)) := by
      rw [List.append_assoc]
      rfl
    _ = lines front ++ lines.collect [] (line ++ rest) :=
      lines.collect_append single front [] (fun _ => rfl) ends
    _ = lines front ++ lines.collect line.reverse rest := by
      rw [lines.collect_line whole, List.append_nil]
    _ = lines front ++ line :: others := by rw [collected, List.reverse_reverse]

theorem lines_universalNewlines (text : Text) : lines (universalNewlines text) = lines text :=
  lines.collect_universalNewlines text []

end Text

end Scaffold
