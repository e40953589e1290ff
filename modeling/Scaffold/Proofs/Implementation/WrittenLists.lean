import Scaffold.Proofs.Contract.GroupedTypes
import Scaffold.Proofs.Contract.UnnamedLists
import Scaffold.Proofs.Go.Identifiers
import Scaffold.Proofs.Implementation.Naming

/-!
# Written lists are read back

Of neighbours with one type only the last shows it, and a reader looks for a type
behind the names that have none.  So a list with names is read back as it was
written, and a list without names unless one of its types looks like a name with a
type.
-/

namespace Scaffold

namespace Signature

open Text (IsTrimmed isBlank)

/-! ## Texts that can be entries -/

/-- Nothing blank stands around the text, as many brackets are closed as are opened,
and no comma stands outside of them. -/
structure IsListable (text : Text) : Prop where
  trimmed : IsTrimmed text
  level : depth text = 0
  quiet : IsQuiet 0 text

def decideIsQuiet : ∀ start text, Decidable (IsQuiet start text)
  | _, [] => isTrue fun _ _ split => by simp at split
  | start, character :: rest =>
    have := decideIsQuiet (start + depthChange character) rest
    decidable_of_iff _ isQuiet_cons.symm

instance (start : Int) (text : Text) : Decidable (IsQuiet start text) :=
  decideIsQuiet start text

instance (text : Text) : Decidable (IsListable text) :=
  decidable_of_iff ((text ≠ [] ∧ Text.trim text = text) ∧ depth text = 0 ∧ IsQuiet 0 text)
    ⟨fun ⟨trimmed, level, quiet⟩ => ⟨Text.isTrimmed_iff.mpr trimmed, level, quiet⟩,
      fun listable => ⟨Text.isTrimmed_iff.mp listable.trimmed, listable.level, listable.quiet⟩⟩

/-- A word that types do not begin with. -/
structure IsPlainWord (word : Text) : Prop where
  nonempty : word ≠ []
  letters : ∀ character ∈ word, Text.isWord character = true
  free : word ∉ typeBeginnings

variable {text word type : Text}

theorem IsListable.isEntry (listable : IsListable text) : IsEntry text where
  begins := by
    obtain ⟨first, others, rfl, solid⟩ := listable.trimmed.begins
    refine ⟨first, others, rfl, solid, ?_⟩
    rintro rfl
    exact listable.quiet [] others rfl rfl
  ends := listable.trimmed.ends

theorem stayApart_of_isListable {texts : List Text}
    (listable : ∀ text ∈ texts, IsListable text) : StayApart texts :=
  ⟨fun text member => (listable text member).quiet,
    fun text member => (listable text (List.mem_of_mem_dropLast member)).level⟩

theorem segments_join_of_isListable {texts : List Text}
    (listable : ∀ text ∈ texts, IsListable text) : segments (Text.join [',', ' '] texts) = texts :=
  (segments_join_iff fun text member => (listable text member).isEntry).mpr
    (stayApart_of_isListable listable)

namespace IsPlainWord

variable (plain : IsPlainWord word)
include plain

theorem solid : ∀ character ∈ word, isBlank character = false :=
  fun character member => Text.isBlank_of_isWord (plain.letters character member)

theorem flat : ∀ character ∈ word, depthChange character = 0 ∧ character ≠ ',' :=
  fun character member => flat_of_isWord (plain.letters character member)

theorem isListable : IsListable word where
  trimmed := by
    obtain ⟨first, others, begins⟩ := List.exists_cons_of_ne_nil plain.nonempty
    refine ⟨⟨first, others, begins, plain.solid first (by simp [begins])⟩,
      List.dropLast word, word.getLast plain.nonempty, (List.dropLast_append_getLast plain.nonempty).symm,
      plain.solid _ (List.getLast_mem plain.nonempty)⟩
  level := depth_of_flat fun character member => (plain.flat character member).1
  quiet := by
    rw [← List.append_nil word, isQuiet_append_of_flat plain.flat]
    simp [IsQuiet]

theorem isListable_append (listable : IsListable type) :
    IsListable (word ++ [' '] ++ type) where
  trimmed := by
    obtain ⟨first, others, begins, solid⟩ := plain.isListable.trimmed.begins
    obtain ⟨front, last, ends, closed⟩ := listable.trimmed.ends
    exact ⟨⟨first, others ++ [' '] ++ type, by simp [begins], solid⟩,
      word ++ [' '] ++ front, last, by simp [ends], closed⟩
  level := by
    rw [depth_append, depth_append, plain.isListable.level, listable.level]
    rfl
  quiet := by
    have gap : ∀ character ∈ [' '], isBlank character = true :=
      List.forall_mem_singleton.mpr (by decide)
    rw [List.append_assoc, isQuiet_append_of_flat plain.flat, isQuiet_append_of_isBlank gap]
    exact listable.quiet

theorem named?_eq_none : named? word = none :=
  (named?_eq_none_iff plain.isListable.isEntry).mpr (.inr plain.solid)

theorem named?_append (listable : IsListable type) :
    named? (word ++ [' '] ++ type) = some (word, type) := by
  refine (named?_eq_some_iff (plain.isListable_append listable).trimmed).mpr
    ⟨?_, ⟨[' '], List.append_assoc _ _ _, List.cons_ne_nil _ _, ?_⟩, plain.nonempty, plain.solid,
      listable.trimmed⟩
  · rw [List.append_assoc, isTypeExpression_append plain.nonempty plain.letters]
    · exact decide_eq_false plain.free
    · rintro character ⟨⟩
      decide
  · exact List.forall_mem_singleton.mpr (by decide)

end IsPlainWord

theorem assignTypes_of_bare {entries : List Text} (bare : ∀ entry ∈ entries, named? entry = none) :
    assignTypes entries = (entries, []) := by
  induction entries with
  | nil => rfl
  | cons entry rest induction =>
      obtain ⟨here, later⟩ := List.forall_mem_cons.mp bare
      rw [assignTypes, induction later, here]

theorem parse_of_assignTypes {parameters : List Parameter}
    (assigned : assignTypes (segments (inner text)) = ([], parameters)) :
    parse text = .ok parameters := by
  rw [parse]
  split
  · rw [assigned]
  · rename_i unnamed
    have bare : ∀ entry ∈ segments (inner text), named? entry = none := by
      simpa using unnamed
    obtain ⟨none, rfl⟩ := Prod.mk.inj ((assignTypes_of_bare bare).symm.trans assigned)
    rw [none]
    rfl

end Signature

namespace Naming

open Signature (IsListable IsNamed IsPlainWord assignTypes named?)

variable {parameter : Parameter} {parameters : List Parameter}

/-! ## Lists with names -/

/-- The entry has a name that no type begins with, and a type that can be listed. -/
structure IsReadable (parameter : Parameter) : Prop where
  name : IsPlainWord parameter.name
  type : IsListable parameter.type

theorem IsReadable.isNamed (readable : IsReadable parameter) : parameter.isNamed = true := by
  simpa [Parameter.isNamed] using readable.name.nonempty

/-- The last entry shows its type, any other one unless its neighbour has the same. -/
theorem exists_writeEntries_cons (named : parameter.isNamed = true) :
    (∃ next rest, parameters = next :: rest ∧ next.type = parameter.type ∧
        writeEntries (parameter :: parameters) = parameter.name :: writeEntries parameters) ∨
      writeEntries (parameter :: parameters) =
        (parameter.name ++ [' '] ++ parameter.type) :: writeEntries parameters := by
  cases parameters with
  | nil => exact .inr (by simp [writeEntries, named])
  | cons next rest =>
      by_cases shared : (next.isNamed && next.type == parameter.type) = true
      · have same := (Bool.and_eq_true_iff.mp shared).2
        exact .inl ⟨next, rest, rfl, beq_iff_eq.mp same, by
          rw [writeEntries]; simp only [named, shared]; rfl⟩
      · exact .inr (by
          rw [writeEntries]; simp only [named, Bool.eq_false_iff.mpr shared]; rfl)

theorem isListable_of_mem_writeEntries (readable : ∀ parameter ∈ parameters, IsReadable parameter) :
    ∀ entry ∈ writeEntries parameters, IsListable entry := by
  induction parameters with
  | nil => exact nofun
  | cons parameter rest induction =>
      obtain ⟨here, later⟩ := List.forall_mem_cons.mp readable
      rcases @exists_writeEntries_cons _ rest here.isNamed with
        ⟨_, _, _, _, written⟩ | written
      · rw [written]
        exact List.forall_mem_cons.mpr ⟨here.name.isListable, induction later⟩
      · rw [written]
        exact List.forall_mem_cons.mpr ⟨here.name.isListable_append here.type, induction later⟩

theorem assignTypes_writeEntries (readable : ∀ parameter ∈ parameters, IsReadable parameter) :
    assignTypes (writeEntries parameters) = ([], parameters) := by
  induction parameters with
  | nil => rfl
  | cons parameter rest induction =>
      obtain ⟨here, later⟩ := List.forall_mem_cons.mp readable
      rcases @exists_writeEntries_cons _ rest here.isNamed with
        ⟨next, others, rfl, same, written⟩ | written
      · rw [written, assignTypes, induction later, here.name.named?_eq_none]
        dsimp only
        rw [same]
      · rw [written, assignTypes, induction later, here.name.named?_append here.type]

theorem parse_write_of_isReadable (readable : ∀ parameter ∈ parameters, IsReadable parameter) :
    Signature.parse ('(' :: write parameters ++ [')']) = .ok parameters := by
  refine Signature.parse_of_assignTypes ?_
  rw [Signature.inner_parenthesised, write,
    Signature.segments_join_of_isListable (isListable_of_mem_writeEntries readable)]
  exact assignTypes_writeEntries readable

/-! ## Lists without names -/

theorem writeEntries_cons_of_unnamed (unnamed : parameter.isNamed = false) :
    writeEntries (parameter :: parameters) = parameter.type :: writeEntries parameters := by
  cases parameters <;> simp [writeEntries, unnamed]

theorem writeEntries_of_unnamed (unnamed : ∀ parameter ∈ parameters, parameter.isNamed = false) :
    writeEntries parameters = parameters.map Parameter.type := by
  induction parameters with
  | nil => rfl
  | cons parameter rest induction =>
      obtain ⟨here, later⟩ := List.forall_mem_cons.mp unnamed
      rw [writeEntries_cons_of_unnamed here, induction later, List.map_cons]

theorem map_type_of_unnamed (unnamed : ∀ parameter ∈ parameters, parameter.isNamed = false) :
    (parameters.map Parameter.type).map (fun type => ⟨[], type⟩) = parameters := by
  rw [List.map_map]
  refine (List.map_congr_left fun parameter member => ?_).trans (List.map_id parameters)
  have none : parameter.name = [] := by
    simpa [Parameter.isNamed] using unnamed parameter member
  rw [id, ← none]
  rfl

theorem parse_write_iff_of_unnamed (unnamed : ∀ parameter ∈ parameters, parameter.isNamed = false)
    (listable : ∀ parameter ∈ parameters, IsListable parameter.type) :
    Signature.parse ('(' :: write parameters ++ [')']) = .ok parameters ↔
      ∀ parameter ∈ parameters, ¬ IsNamed parameter.type := by
  have read := @Signature.parse_eq_unnamed_iff ('(' :: write parameters ++ [')'])
    (parameters.map Parameter.type)
  have each : ∀ type ∈ parameters.map Parameter.type, IsListable type :=
    List.forall_mem_map.mpr listable
  rw [map_type_of_unnamed unnamed, Signature.inner_parenthesised, write,
    writeEntries_of_unnamed unnamed, Signature.segments_join_of_isListable each,
    List.forall_mem_map] at read
  rw [write, writeEntries_of_unnamed unnamed, read]
  refine (and_iff_right rfl).trans (forall₂_congr fun parameter member => ?_)
  rw [← Signature.isSome_named?_iff (listable parameter member).trimmed,
    Option.not_isSome_iff_eq_none]

/-! ## Lists as they are rendered -/

/-- The entry has no name or an identifier, and a type that can be listed. -/
structure IsWritable (parameter : Parameter) : Prop where
  name : parameter.name = [] ∨ Go.IsIdentifier parameter.name
  type : IsListable parameter.type

instance (parameter : Parameter) : Decidable (IsWritable parameter) :=
  decidable_of_iff ((parameter.name = [] ∨ Go.IsIdentifier parameter.name) ∧
      IsListable parameter.type)
    ⟨fun ⟨name, type⟩ => ⟨name, type⟩, fun writable => ⟨writable.name, writable.type⟩⟩

theorem isPlainWord_of_isIdentifier {name : Text} (proper : Go.IsIdentifier name) :
    IsPlainWord name := by
  obtain ⟨identifier, rfl⟩ := proper
  refine ⟨List.cons_ne_nil _ _, identifier.isWord_of_mem_text, fun begins => ?_⟩
  -- What types begin with is either reserved or no word.
  have reserved : ∀ beginning ∈ Signature.typeBeginnings,
      beginning.all Text.isWord = true → ∃ entry ∈ Go.keywords, entry.1 = beginning := by
    decide
  obtain ⟨entry, listed, same⟩ :=
    reserved _ begins (List.all_eq_true.mpr identifier.isWord_of_mem_text)
  exact identifier.free entry listed same

theorem isPlainWord_blank : IsPlainWord blank where
  nonempty := List.cons_ne_nil _ _
  letters := List.forall_mem_singleton.mpr (by decide)
  free := by decide

theorem isListable_of_mem_normalize (writable : ∀ parameter ∈ parameters, IsWritable parameter)
    {reserved : List Text} (member : parameter ∈ normalize reserved parameters) :
    IsListable parameter.type := by
  have listed : parameter.type ∈ parameters.map Parameter.type := by
    rw [← map_type_normalize reserved]
    exact List.mem_map_of_mem member
  obtain ⟨source, old, same⟩ := List.mem_map.mp listed
  exact same ▸ (writable source old).type

theorem isReadable_of_mem_normalize (writable : ∀ parameter ∈ parameters, IsWritable parameter)
    {reserved : List Text} (needed : needsNames parameters = true)
    (member : parameter ∈ normalize reserved parameters) : IsReadable parameter where
  name := by
    rw [normalize_of_needsNames needed] at member
    cases isNamedFrom_of_mem member with
    | generated _ known _ chosen =>
        exact chosen ▸ isPlainWord_of_isIdentifier (isIdentifier_choose known _)
    | kept _ named old =>
        have some : parameter.name ≠ [] := by simpa [Parameter.isNamed] using named
        exact isPlainWord_of_isIdentifier ((writable parameter old).name.resolve_left some)
    | blanked _ unnamed => exact unnamed ▸ isPlainWord_blank
  type := isListable_of_mem_normalize writable member

/-- A rendered list is read back, with the names that it is given, unless it has none and
one of its types looks like a name with a type. -/
theorem parse_renderParameters_iff {parameters : List Parameter}
    (writable : ∀ parameter ∈ parameters, IsWritable parameter) :
    Signature.parse ('(' :: renderParameters parameters ++ [')']) =
        .ok (normalize [] parameters) ↔
      (∀ parameter ∈ normalize [] parameters, parameter.isNamed = true) ∨
        ∀ parameter ∈ parameters, ¬ IsNamed parameter.type := by
  rw [renderParameters]
  cases needed : needsNames parameters with
  | true =>
      have readable : ∀ parameter ∈ normalize [] parameters, IsReadable parameter :=
        fun parameter member => isReadable_of_mem_normalize writable needed member
      exact iff_of_true (parse_write_of_isReadable readable)
        (.inl fun parameter member => (readable parameter member).isNamed)
  | false =>
      have unnamed : ∀ parameter ∈ parameters, parameter.isNamed = false :=
        fun parameter member => (plain_of_needsNames_eq_false needed parameter member).2
      rw [normalize_of_bare needed,
        parse_write_iff_of_unnamed unnamed fun parameter member => (writable parameter member).type]
      refine ⟨.inr, Or.rec (fun named parameter member => ?_) id⟩
      -- Where all entries are named and none is there are none.
      exact absurd (named parameter member) (by rw [unnamed parameter member]; exact nofun)

/-- A list in which the context cannot have its usual name, two entries share a type and
another one has commas in its type. -/
def mixedParameters : List Parameter :=
  [⟨"ctx", "int"⟩, ⟨"count", "int"⟩, ⟨"c", "context.Context"⟩, ⟨"", "func(a, b int) error"⟩]

theorem parse_renderParameters_mixed :
    (∀ parameter ∈ mixedParameters, IsWritable parameter) ∧
      renderParameters mixedParameters =
        "ctx, count int, ctx2 context.Context, _ func(a, b int) error" ∧
      Signature.parse "(ctx, count int, ctx2 context.Context, _ func(a, b int) error)" =
        .ok (normalize [] mixedParameters) := by
  have writable : ∀ parameter ∈ mixedParameters, IsWritable parameter := by
    decide +kernel
  have written : renderParameters mixedParameters =
      "ctx, count int, ctx2 context.Context, _ func(a, b int) error" := by
    decide +kernel
  have read := (parse_renderParameters_iff writable).mpr (.inl (by decide +kernel))
  rw [written] at read
  exact ⟨writable, written, read⟩

end Naming

end Scaffold
