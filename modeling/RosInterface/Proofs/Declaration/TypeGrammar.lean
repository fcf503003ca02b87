/-
# RosInterface.Proofs.Declaration.TypeGrammar -- which texts are types, and which types they are

A type is a sequence of tokens with gaps between them: one to three words with slashes, a bound,
brackets.  No two words stand side by side, so every word is as long as it can be.
`TypeSpec.Spells` says which type such a sequence spells, one rule for each form: a word alone is
a keyword or the name of another definition, two words name a message, the bound belongs to one
of the two string keywords, and no digit run is longer than the limit.

`FieldType.ofText_grammar` is the main result: a text is accepted exactly when it is written so,
as the type that it spells.  The text of an accepted type is accepted as the same type; it is
seldom the text that has been read, since gaps and leading zeros are gone from it.
-/
import RosInterface.Proofs.Declaration.ReadBack

set_option autoImplicit false

namespace RosInterface

open Text (Spaced)

/-! ## What a written type spells -/

/-- The element type that words name, where no bound follows. -/
inductive WordSpec.Names : WordSpec → ElementType → Prop
  | basic (type : BasicType) : Names (.bare type.text) (.primitive (.basic type))
  | string (wide : Bool) :
      Names (.bare (StringType.keyword ⟨wide, none⟩)) (.primitive (.string ⟨wide, none⟩))
  | other {name : Text} (free : name ∉ Primitive.keywords) : Names (.bare name) (.named name)
  | inPackage (package name : Text) :
      Names (.inPackage package name) (.qualified ⟨package, .message, name⟩)
  | full (package : Text) (kind : Kind) (name : Text) :
      Names (.full package kind.text name) (.qualified ⟨package, kind, name⟩)

/-- The element type that words and a bound spell.  A bound stands behind a string keyword and
nowhere else. -/
inductive WordSpec.NamesBounded : WordSpec → Option Text → ElementType → Prop
  | unbounded {words : WordSpec} {element : ElementType} (names : words.Names element) :
      NamesBounded words none element
  | bounded (wide : Bool) {digits : Text} (short : digits.length ≤ maximalDigits) :
      NamesBounded (.bare (StringType.keyword ⟨wide, none⟩)) (some digits)
        (.primitive (.string ⟨wide, some (digits.value 10)⟩))

/-- The type that brackets make of an element type. -/
inductive ShapeSpec.Makes (element : ElementType) : ShapeSpec → FieldType → Prop
  | single : Makes element .single (.single element)
  | sequence : Makes element .sequence (.sequence element)
  | array {digits : Text} (short : digits.length ≤ maximalDigits) :
      Makes element (.array digits) (.array element (digits.value 10))
  | boundedSequence {digits : Text} (short : digits.length ≤ maximalDigits) :
      Makes element (.boundedSequence digits) (.boundedSequence element (digits.value 10))

/-- The type that a written type spells. -/
def TypeSpec.Spells (spec : TypeSpec) (type : FieldType) : Prop :=
  ∃ element, spec.words.NamesBounded spec.bound element ∧ spec.shape.Makes element type

/-! ## What is resolved is what is spelled -/

/-- A keyword names the type that it is looked up as. -/
theorem Primitive.names_of_ofKeyword? {word : Text} {type : Primitive}
    (found : ofKeyword? word = some type) : (WordSpec.bare word).Names (.primitive type) := by
  rw [ofKeyword?] at found
  split_ifs at found with narrow wide
  · cases found
    rw [narrow]
    exact .string false
  · cases found
    rw [wide]
    exact .string true
  · obtain ⟨basic, named, rfl⟩ := Option.map_eq_some_iff.1 found
    have same : basic.text = word := by simpa using List.find?_some named
    rw [← same]
    exact .basic basic

namespace TypeSpec

variable {e : Text}

theorem resolveWords_eq_ok_iff {words : WordSpec} {element : ElementType} :
    resolveWords e words = .ok element ↔ words.Names element := by
  constructor
  · intro read
    cases words with
    | bare name =>
        cases found : Primitive.ofKeyword? name with
        | none =>
            simp only [resolveWords, found] at read
            cases read
            exact .other (Primitive.ofKeyword?_eq_none_iff.1 found)
        | some type =>
            simp only [resolveWords, found] at read
            cases read
            exact Primitive.names_of_ofKeyword? found
    | inPackage package name =>
        cases read
        exact .inPackage package name
    | full package kind name =>
        cases known : Kind.ofText? kind with
        | none =>
            simp only [resolveWords, known] at read
            cases read
        | some found =>
            simp only [resolveWords, known] at read
            cases read
            have same : found.text = kind := by simpa using List.find?_some known
            rw [← same]
            exact .full package found name
  · intro names
    cases names with
    | basic type => simp only [resolveWords, Primitive.ofKeyword?_basic]
    | string wide => simp only [resolveWords, Primitive.ofKeyword?_keyword]
    | other free => simp only [resolveWords, Primitive.ofKeyword?_eq_none_iff.2 free]
    | inPackage package name => rfl
    | full package kind name => simp only [resolveWords, Kind.ofText?_text]

/-- The string types without a bound are what the string keywords name. -/
theorem names_string_iff {words : WordSpec} {type : StringType} :
    words.Names (.primitive (.string type)) ↔
      type.bound = none ∧ words = .bare (StringType.keyword ⟨type.wide, none⟩) := by
  constructor
  · rintro ⟨⟩
    exact ⟨rfl, rfl⟩
  · obtain ⟨wide, bound⟩ := type
    rintro ⟨rfl, rfl⟩
    exact .string wide

/-- A bound is counted, and then only a string keyword may have it. -/
theorem bounded_eq_ok_iff {words : WordSpec} {bound : Option Text} {element : ElementType} :
    (∃ base n, resolveWords e words = .ok base ∧ resolveBound bound = .ok n ∧
      bounded e base n = .ok element) ↔ words.NamesBounded bound element := by
  simp only [resolveWords_eq_ok_iff]
  constructor
  · rintro ⟨base, n, names, counted, read⟩
    cases bound with
    | none =>
        cases counted
        cases read
        exact .unbounded names
    | some digits =>
        obtain ⟨count, sized, rfl⟩ := Outcome.map_eq_ok_iff.1 counted
        obtain ⟨short, rfl⟩ := size_eq_ok_iff.1 sized
        match base with
        | .primitive (.string type) =>
            obtain ⟨-, rfl⟩ := names_string_iff.1 names
            cases read
            exact .bounded type.wide short
        | .primitive (.basic type) => cases read
        | .named name => cases read
        | .qualified name => cases read
  · rintro (⟨names⟩ | ⟨wide, short⟩)
    · exact ⟨element, none, names, rfl, rfl⟩
    · refine ⟨_, _, .string wide, Outcome.map_eq_ok_iff.2 ⟨_, ?_, rfl⟩, rfl⟩
      exact size_eq_ok_iff.2 ⟨short, rfl⟩

theorem resolveShape_eq_ok_iff {written : ShapeSpec} {element : ElementType} {type : FieldType} :
    (∃ shape, resolveShape written = .ok shape ∧ shape element = type) ↔
      written.Makes element type := by
  constructor
  · rintro ⟨shape, read, rfl⟩
    cases written with
    | single =>
        cases read
        exact .single
    | sequence =>
        cases read
        exact .sequence
    | array digits =>
        obtain ⟨n, sized, rfl⟩ := Outcome.map_eq_ok_iff.1 read
        obtain ⟨short, rfl⟩ := size_eq_ok_iff.1 sized
        exact .array short
    | boundedSequence digits =>
        obtain ⟨n, sized, rfl⟩ := Outcome.map_eq_ok_iff.1 read
        obtain ⟨short, rfl⟩ := size_eq_ok_iff.1 sized
        exact .boundedSequence short
  · rintro (⟨⟩ | ⟨⟩ | ⟨short⟩ | ⟨short⟩)
    · exact ⟨_, rfl, rfl⟩
    · exact ⟨_, rfl, rfl⟩
    · exact ⟨_, Outcome.map_eq_ok_iff.2 ⟨_, size_eq_ok_iff.2 ⟨short, rfl⟩, rfl⟩, rfl⟩
    · exact ⟨_, Outcome.map_eq_ok_iff.2 ⟨_, size_eq_ok_iff.2 ⟨short, rfl⟩, rfl⟩, rfl⟩

/-- **The meaning of a written type is the type that it spells.** -/
theorem resolve_eq_ok_iff_spells {spec : TypeSpec} {type : FieldType} :
    spec.resolve e = .ok type ↔ spec.Spells type := by
  simp only [Spells, ← bounded_eq_ok_iff (e := e), ← resolveShape_eq_ok_iff, resolve_eq_ok_iff]
  constructor
  · rintro ⟨base, bound, shape, element, words, readBound, readShape, read, whole⟩
    exact ⟨element, ⟨base, bound, words, readBound, read⟩, shape, readShape, whole⟩
  · rintro ⟨element, ⟨base, bound, words, readBound, read⟩, shape, readShape, whole⟩
    exact ⟨base, bound, shape, element, words, readBound, readShape, read, whole⟩

end TypeSpec

/-! ## Texts -/

namespace FieldType

variable {text : Text} {type : FieldType}

theorem ofText_eq_ok_iff_spells :
    ofText text = .ok type ↔
      ∃ spec : TypeSpec, spec.Lexical ∧ Spaced spec.tokens text.trim [] ∧ spec.Spells type := by
  rw [← ofText_trim, ofText_eq_ok_iff (Text.bareEnds_trim text)]
  refine exists_congr fun spec => ?_
  rw [TypeSpec.read?_eq_some_iff, TypeSpec.resolve_eq_ok_iff_spells, and_assoc, and_assoc,
    and_iff_right spec.ends_nil]

/-- An accepted type can be written: its words are identifiers and its numbers are within the
limit. -/
theorem wellFormed_of_ofText (read : ofText text = .ok type) : type.WellFormed := by
  obtain ⟨spec, lexical, -, spells⟩ := ofText_eq_ok_iff_spells.1 read
  exact TypeSpec.wellFormed_of_resolve lexical
    (TypeSpec.resolve_eq_ok_iff_spells (e := text).2 spells)

/-- **A text is accepted as a type exactly when it is a sequence of tokens that spells the type,
and the text of every accepted type is accepted as the same type.**  The text counts without the
white space at its ends. -/
theorem ofText_grammar (text : Text) (type : FieldType) :
    (ofText text = .ok type ↔
      ∃ spec : TypeSpec, spec.Lexical ∧ Spaced spec.tokens text.trim [] ∧ spec.Spells type) ∧
    (ofText text = .ok type → ofText type.text = .ok type) :=
  ⟨ofText_eq_ok_iff_spells, fun read => ofText_text (wellFormed_of_ofText read)⟩

/-- Gaps and a leading zero are read over, and are not written again. -/
theorem ofText_grammar_padded :
    ofText " string <= 05 [ <=\t3 ]" =
        .ok (.boundedSequence (.primitive (.string ⟨false, some 5⟩)) 3) ∧
      ofText "string<=5[<=3]" =
        .ok (.boundedSequence (.primitive (.string ⟨false, some 5⟩)) 3) :=
  ⟨rfl, (ofText_grammar " string <= 05 [ <=\t3 ]" _).2 rfl⟩

end FieldType

end RosInterface
