import Scaffold.Proofs.Contract.Spacing
import Scaffold.Proofs.Go.BlankedCode

/-!
# Parameter lists with comments

A captured text is a stretch of the file in which each comment is blanked out to one
space and everything else stays in order, in characters as well as in bytes.  So a
parameter list is read as if there were spaces in the place of the comments between its
entries and between their names and types.
-/

namespace Scaffold

namespace Go

open Signature (IsLoose IsSpacing Untyped parse)

namespace SourceFile

variable {bytes : Bytes} {file : SourceFile} {capture : Capture} {node : Marked Char}

/-- The comments of a file in bytes. -/
def byteComments (file : SourceFile) : List (Nat × Bytes) :=
  file.comments.map (Marked.byteSpan file.source)

/-- The comments within a capture, in bytes. -/
def commentsOf (file : SourceFile) (capture : Capture) : List (Nat × Bytes) :=
  Marked.within (file.byteOffset capture.start) (file.byteOffset capture.stop) file.byteComments

/-- The captured text is a stretch of the file with one space for each comment. -/
structure Blanks (bytes : Bytes) (file : SourceFile) (capture : Capture) (node : Marked Char) :
    Prop where
  /-- The stretch goes from the start of the capture to its stop. -/
  whole : node.whole = (file.source.take capture.stop).drop capture.start
  /-- The comments of the file there are what is marked. -/
  comments : node.parts capture.start = Marked.within capture.start capture.stop file.comments
  text : node.blanked ' ' = capture.text
  wholeBytes : node.bytes.whole =
    (bytes.take (file.byteOffset capture.stop)).drop (file.byteOffset capture.start)
  commentBytes : node.bytes.parts (file.byteOffset capture.start) = file.commentsOf capture
  textBytes : node.bytes.blanked 32 = Utf8.encode capture.text
  /-- Found in any order, the comments are cut out of the bytes of the stretch. -/
  cut : ∀ found, found.Perm ((file.commentsOf capture).map Marked.span) →
    Utf8.decode (Marked.cutOut 32 (file.byteOffset capture.start)
      ((bytes.take (file.byteOffset capture.stop)).drop (file.byteOffset capture.start)) 0
      (Sorting.sort (fun left right => compare left.1 right.1) found)) = .ok capture.text

theorem ne_nil_of_mem_byteComments (read : ofText? file.source = some file) :
    ∀ comment ∈ file.byteComments, comment.2 ≠ [] := by
  intro part member
  obtain ⟨comment, listed, rfl⟩ := List.mem_map.mp member
  have characters := List.length_pos_of_ne_nil (ne_nil_of_mem_comments read comment listed)
  exact List.ne_nil_of_length_pos (Nat.lt_of_lt_of_le characters (Utf8.length_le_size comment.2))

theorem parts_bytes_marked (read : ofText? file.source = some file) :
    file.marked.bytes.parts 0 = file.byteComments := by
  have whole : file.source = [] ++ (file.marked.whole ++ []) := by
    rw [whole_marked read, List.append_nil, List.nil_append]
  have parts := Marked.parts_bytes file.marked [] [] whole
  rw [List.length_nil, parts_marked read] at parts
  exact parts

theorem blanks_of_isStretch (read : ofBytes bytes = .ok file)
    (stretch : Marked.IsStretch file.marked capture.start capture.stop node)
    (text : node.blanked ' ' = capture.text) : Blanks bytes file capture node := by
  obtain ⟨decoded, parsed⟩ := text_of_ofBytes read
  have encoded : file.marked.bytes.whole = bytes := by
    rw [Marked.whole_bytes, whole_marked parsed, Utf8.encode_of_decode decoded]
  have inBytes : Marked.IsStretch file.marked.bytes (file.byteOffset capture.start)
      (file.byteOffset capture.stop) node.bytes := by
    have stretches := stretch.bytes
    rw [whole_marked parsed] at stretches
    exact stretches
  have wholeBytes := inBytes.whole_eq
  rw [encoded] at wholeBytes
  have commentBytes : node.bytes.parts (file.byteOffset capture.start) =
      file.commentsOf capture := by
    have comments := parts_bytes_marked parsed
    rw [commentsOf, ← comments]
    exact inBytes.parts_eq (comments ▸ ne_nil_of_mem_byteComments parsed)
  have textBytes : node.bytes.blanked 32 = Utf8.encode capture.text := by
    rw [Marked.blanked_bytes, text]
  refine ⟨?_, ?_, text, wholeBytes, commentBytes, textBytes, fun found same => ?_⟩
  · rw [stretch.whole_eq, whole_marked parsed]
  · rw [← parts_marked parsed]
    exact stretch.parts_eq (parts_marked parsed ▸ ne_nil_of_mem_comments parsed)
  · rw [← commentBytes] at same
    have some : ∀ part ∈ node.bytes.parts (file.byteOffset capture.start), part.2 ≠ [] := by
      rw [commentBytes]
      exact fun part member =>
        ne_nil_of_mem_byteComments parsed part (List.mem_of_mem_filter member)
    rw [← wholeBytes, Marked.cutOut_sort some same, textBytes, Utf8.decode_encode]

/-- What is captured from a file is the stretch of a tree with each comment inside of the
tree blanked out, in characters and in bytes; and it is read as a parameter list like
every text that has spaces in the place of the comments, a single one or, between two
entries or between a name and its type, any number of them. -/
theorem captures_blank_comments (read : ofBytes bytes = .ok file)
    (member : capture ∈ file.contractCaptures ∨ capture ∈ file.implementationCaptures) :
    ∃ tree ∈ Tree.subtreesOfAll file.items,
      (∃ label, capture = Capture.ofTree label tree) ∧
      tree.innerComments = Marked.within capture.start capture.stop file.comments ∧
      Blanks bytes file capture tree.marked ∧
      ∀ spaced : Marked Char, spaced.frame = tree.marked.frame → IsSpacing IsLoose spaced →
        (parse spaced.whole).mapError Untyped.names =
          (parse capture.text).mapError Untyped.names := by
  obtain ⟨tree, inside, label, rfl⟩ := isOfTree_of_mem_captures member
  have parsed := (text_of_ofBytes read).2
  have text : tree.marked.blanked ' ' = (Capture.ofTree label tree).text := tree.blanked_marked
  refine ⟨tree, inside, ⟨label, rfl⟩, innerComments_eq parsed inside,
    blanks_of_isStretch read (isStretch_of_mem_subtrees parsed inside) text,
    fun spaced frame spacing => ?_⟩
  rw [Signature.parse_whole spacing, Marked.blanked_eq_frame, frame, ← Marked.blanked_eq_frame,
    text]

/-- A list with texts in three places: before a name, before a type and behind a comma. -/
def interspersed (first second third : Text) : Marked Char :=
  .inl '(' :: .inr first :: (" id " : Text).map .inl ++
    .inr second :: (" int, " : Text).map .inl ++
    .inr third :: ("\n\t\tname string)" : Text).map .inl

/-- A list with comments, all of which have characters of two bytes. -/
def commentedList : Marked Char :=
  interspersed "/* \u00e9 */" "/* \u00fc, x */" "// \u00f1)"

/-- The list with a space for each character of a comment. -/
def spacedList : Marked Char :=
  interspersed (Text.times 7 ' ') (Text.times 10 ' ') (Text.times 5 ' ')

/-- A contract with a method that has the list. -/
def commentedContract : Text :=
  "package p\n\ntype UserRepository interface \x7b\n\tSave" ++ commentedList.whole ++ " error\n\x7d\n"

theorem captures_blank_comments_multibyte :
    ∃ file capture, ofBytes (Utf8.encode commentedContract) = .ok file ∧
      capture ∈ file.contractCaptures ∧
      Blanks (Utf8.encode commentedContract) file capture commentedList ∧
      spacedList.frame = commentedList.frame ∧ IsSpacing IsLoose spacedList ∧
      (parse spacedList.whole).mapError Untyped.names =
        .ok [⟨"id", "int"⟩, ⟨"name", "string"⟩] := by
  have known : ((ofText? commentedContract).map fun file =>
      (file.contractCaptures.find? fun capture => capture.label == .parameters,
        Marked.within 48 96 file.comments)) =
      some (some ⟨⟨.parameters, commentedList.blanked ' '⟩, 48, 96⟩, commentedList.parts 48) := by
    decide +kernel
  obtain ⟨file, accepted, facts⟩ := Option.map_eq_some_iff.mp known
  obtain ⟨found, comments⟩ := Prod.mk.inj facts
  have read : ofBytes (Utf8.encode commentedContract) = .ok file := by
    rw [ofBytes, Utf8.decode_encode]
    simp only [accepted]
  have source : commentedContract = file.source := by
    have decoded := (text_of_ofBytes read).1
    rw [Utf8.decode_encode] at decoded
    exact Except.ok.inj decoded
  have member := List.mem_of_find?_eq_some found
  obtain ⟨tree, -, -, -, blanks, reads⟩ := captures_blank_comments read (.inl member)
  have whole : tree.marked.whole = commentedList.whole := by
    rw [blanks.whole, ← source]
    decide +kernel
  have same := Marked.eq_of_parts tree.marked commentedList 48 whole
    (blanks.comments.trans comments)
  rw [same] at blanks reads
  have frame : spacedList.frame = commentedList.frame := by decide +kernel
  have spacing : IsSpacing IsLoose spacedList := by decide +kernel
  refine ⟨file, _, read, member, blanks, frame, spacing, (reads spacedList frame spacing).trans ?_⟩
  decide +kernel

end SourceFile

end Go

end Scaffold
