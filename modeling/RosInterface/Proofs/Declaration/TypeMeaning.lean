/-
# RosInterface.Proofs.Declaration.TypeMeaning -- what written types mean

`TypeSpec.resolve` gives a written type its meaning in four steps that depend on
each other only through their results (`TypeSpec.resolve_eq_ok_iff`).  What comes
out is a well-formed type, and it does not depend on the text that is kept for
diagnostics.

The other way round every well-formed type is written in one canonical way
(`FieldType.spec`), whose tokens side by side are its text and whose meaning is
the type again.
-/
import RosInterface.Proofs.Declaration.TypeSyntax
import RosInterface.Proofs.Outcome
import RosInterface.Proofs.WellFormed

set_option autoImplicit false

namespace RosInterface

open Text (Spaced Stops IsIdentifier IsGap)

/-! ## Keywords -/

namespace Primitive

theorem ofKeyword?_eq_none_iff {word : Text} : ofKeyword? word = none ↔ word ∉ keywords := by
  rw [keywords, List.mem_cons, List.mem_cons, ofKeyword?, BasicType.ofText?]
  by_cases narrow : word = "string"
  · simp [narrow]
  · by_cases wide : word = "wstring"
    · rw [if_neg narrow, if_pos wide]
      simp [wide]
    · simp only [if_neg narrow, if_neg wide, Option.map_eq_none_iff, List.find?_eq_none,
        decide_eq_true_eq, List.mem_map, not_or]
      constructor
      · rintro absent
        exact ⟨narrow, wide, fun ⟨type, member, same⟩ => absent type member same⟩
      · rintro ⟨-, -, absent⟩ type member same
        exact absent ⟨type, member, same⟩

/-- A keyword names no bounded string. -/
theorem bound_of_ofKeyword? {word : Text} {type : StringType}
    (found : ofKeyword? word = some (.string type)) : type.bound = none := by
  rw [ofKeyword?] at found
  split_ifs at found
  · cases found
    rfl
  · cases found
    rfl
  · obtain ⟨basic, -, same⟩ := Option.map_eq_some_iff.1 found
    cases same

theorem ofKeyword?_keyword (wide : Bool) :
    ofKeyword? (StringType.keyword ⟨wide, none⟩) = some (.string ⟨wide, none⟩) := by
  cases wide <;> decide

theorem ofKeyword?_basic (type : BasicType) : ofKeyword? type.text = some (.basic type) := by
  cases type with
  | bool => decide
  | integer type => cases type <;> decide
  | float type => cases type <;> decide

end Primitive

theorem BasicType.isIdentifier_text (type : BasicType) : IsIdentifier type.text := by
  refine Text.isIdentifier_of_forall (Text.first_iff.1 ?_) (List.all_eq_true.1 ?_) <;>
  · cases type with
    | bool => decide
    | integer type => cases type <;> decide
    | float type => cases type <;> decide

theorem StringType.isIdentifier_keyword (type : StringType) : IsIdentifier type.keyword := by
  rw [StringType.keyword]
  refine Text.isIdentifier_of_forall (Text.first_iff.1 ?_) (List.all_eq_true.1 ?_) <;>
    cases type.wide <;> decide

theorem Kind.ofText?_text (kind : Kind) : ofText? kind.text = some kind := by
  cases kind <;> decide

theorem Kind.isIdentifier_text (kind : Kind) : IsIdentifier kind.text := by
  refine Text.isIdentifier_of_forall (Text.first_iff.1 ?_) (List.all_eq_true.1 ?_) <;>
    cases kind <;> decide

/-! ## From written types to types -/

namespace TypeSpec

theorem size_eq_ok_iff {digits : Text} {n : Nat} :
    size digits = .ok n ↔ digits.length ≤ maximalDigits ∧ digits.value 10 = n := by
  rw [size]
  by_cases long : maximalDigits < digits.length
  · rw [if_pos long]
    exact ⟨fun read => (by cases read), fun ⟨short, _⟩ => absurd long (Nat.not_lt.2 short)⟩
  · rw [if_neg long, Except.ok.injEq]
    exact (and_iff_right (Nat.not_lt.1 long)).symm

theorem withinDigits_of_size {digits : Text} {n : Nat} (read : size digits = .ok n) :
    WithinDigits n := by
  obtain ⟨short, rfl⟩ := size_eq_ok_iff.1 read
  rw [WithinDigits, Text.length_ofNat_le_iff (by decide)]
  exact (Text.value_lt_pow (by decide) digits).trans_le
    (Nat.pow_le_pow_right (by decide) short)

theorem size_ofNat {n : Nat} (within : WithinDigits n) : size (Text.ofNat n) = .ok n :=
  size_eq_ok_iff.2 ⟨within, Text.value_ofNat n⟩

variable {e e' : Text} {spec : TypeSpec} {type : FieldType}

theorem resolve_eq_ok_iff :
    spec.resolve e = .ok type ↔
      ∃ base bound shape element, resolveWords e spec.words = .ok base ∧
        resolveBound spec.bound = .ok bound ∧ resolveShape spec.shape = .ok shape ∧
        bounded e base bound = .ok element ∧ shape element = type := by
  rw [resolve, Outcome.bind_eq_ok_iff]
  constructor
  · rintro ⟨base, words, later⟩
    obtain ⟨bound, readBound, later⟩ := Outcome.bind_eq_ok_iff.1 later
    obtain ⟨shape, readShape, later⟩ := Outcome.bind_eq_ok_iff.1 later
    obtain ⟨element, readElement, whole⟩ := Outcome.bind_eq_ok_iff.1 later
    exact ⟨base, bound, shape, element, words, readBound, readShape, readElement,
      Except.ok.inj whole⟩
  · rintro ⟨base, bound, shape, element, words, readBound, readShape, readElement, rfl⟩
    refine ⟨base, words, ?_⟩
    rw [readBound, readShape, Outcome.ok_bind, Outcome.ok_bind, readElement]
    rfl

theorem resolveWords_excerpt {words : WordSpec} {element : ElementType}
    (read : resolveWords e words = .ok element) : resolveWords e' words = .ok element := by
  cases words with
  | bare => exact read
  | inPackage => exact read
  | full package kind name =>
      cases known : Kind.ofText? kind with
      | none =>
          simp only [resolveWords, known] at read
          cases read
      | some found =>
          simp only [resolveWords, known] at read ⊢
          exact read

theorem bounded_excerpt {base element : ElementType} {bound : Option Nat}
    (read : bounded e base bound = .ok element) : bounded e' base bound = .ok element := by
  cases bound with
  | none => exact read
  | some bound =>
      match base with
      | .primitive (.string type) => exact read
      | .primitive (.basic type) => cases read
      | .named name => cases read
      | .qualified name => cases read

/-- A meaning does not depend on the text that is kept for diagnostics. -/
theorem resolve_excerpt (read : spec.resolve e = .ok type) : spec.resolve e' = .ok type := by
  obtain ⟨base, bound, shape, element, words, readBound, readShape, readElement, whole⟩ :=
    resolve_eq_ok_iff.1 read
  exact resolve_eq_ok_iff.2 ⟨base, bound, shape, element, resolveWords_excerpt words, readBound,
    readShape, bounded_excerpt readElement, whole⟩

theorem wellFormed_of_resolveWords {words : WordSpec} {element : ElementType}
    (lexical : words.Lexical) (read : resolveWords e words = .ok element) :
    element.WellFormed := by
  cases words with
  | bare name =>
      cases found : Primitive.ofKeyword? name with
      | none =>
          simp only [resolveWords, found] at read
          cases read
          exact ⟨lexical, Primitive.ofKeyword?_eq_none_iff.1 found⟩
      | some primitive =>
          simp only [resolveWords, found] at read
          cases read
          cases primitive with
          | basic => trivial
          | string type =>
              intro bound bounded
              rw [Primitive.bound_of_ofKeyword? found] at bounded
              cases bounded
  | inPackage package name =>
      cases read
      exact lexical
  | full package kind name =>
      cases known : Kind.ofText? kind with
      | none =>
          simp only [resolveWords, known] at read
          cases read
      | some found =>
          simp only [resolveWords, known] at read
          cases read
          exact ⟨lexical.1, lexical.2.2⟩

theorem wellFormed_of_bounded {base element : ElementType} {bound : Option Nat}
    (wellFormed : base.WellFormed) (within : ∀ n, bound = some n → WithinDigits n)
    (read : bounded e base bound = .ok element) : element.WellFormed := by
  cases bound with
  | none =>
      cases read
      exact wellFormed
  | some n =>
      match base with
      | .primitive (.string type) =>
          cases read
          intro m same
          cases same
          exact within n rfl
      | .primitive (.basic type) => cases read
      | .named name => cases read
      | .qualified name => cases read

theorem wellFormed_of_resolveShape {written : ShapeSpec} {shape : ElementType → FieldType}
    {element : ElementType} (wellFormed : element.WellFormed)
    (read : resolveShape written = .ok shape) : (shape element).WellFormed := by
  cases written with
  | single =>
      cases read
      exact wellFormed
  | sequence =>
      cases read
      exact wellFormed
  | array digits =>
      obtain ⟨n, sized, rfl⟩ := Outcome.map_eq_ok_iff.1 read
      exact ⟨wellFormed, withinDigits_of_size sized⟩
  | boundedSequence digits =>
      obtain ⟨n, sized, rfl⟩ := Outcome.map_eq_ok_iff.1 read
      exact ⟨wellFormed, withinDigits_of_size sized⟩

/-- **What a written type means is a well-formed type.** -/
theorem wellFormed_of_resolve (lexical : spec.Lexical) (read : spec.resolve e = .ok type) :
    type.WellFormed := by
  obtain ⟨base, bound, shape, element, words, readBound, readShape, readElement, rfl⟩ :=
    resolve_eq_ok_iff.1 read
  have within : ∀ n, bound = some n → WithinDigits n := by
    rintro n rfl
    cases written : spec.bound with
    | none =>
        rw [written] at readBound
        cases readBound
    | some digits =>
        rw [written] at readBound
        obtain ⟨m, sized, same⟩ := Outcome.map_eq_ok_iff.1 readBound
        cases same
        exact withinDigits_of_size sized
  have base_wf := wellFormed_of_resolveWords lexical.words words
  exact wellFormed_of_resolveShape (wellFormed_of_bounded base_wf within readElement) readShape

end TypeSpec

/-! ## From types to written types -/

namespace ElementType

/-- The words of an element type. -/
def words : ElementType → WordSpec
  | .primitive (.basic type) => .bare type.text
  | .primitive (.string type) => .bare type.keyword
  | .named name => .bare name
  | .qualified type => .full type.package type.kind.text type.name

/-- The bound of an element type, in digits. -/
def boundDigits : ElementType → Option Text
  | .primitive (.string type) => type.bound.map Text.ofNat
  | _ => none

variable {element : ElementType}

theorem flatten_tokens (element : ElementType) :
    (element.words.tokens ++ TypeSpec.boundTokens element.boundDigits).flatten = element.text := by
  match element with
  | .primitive (.basic type) =>
      show type.text ++ [] = type.text
      exact List.append_nil _
  | .primitive (.string ⟨wide, none⟩) =>
      show StringType.keyword ⟨wide, none⟩ ++ [] = StringType.keyword ⟨wide, none⟩
      exact List.append_nil _
  | .primitive (.string ⟨wide, some bound⟩) =>
      show StringType.keyword ⟨wide, some bound⟩ ++
          (Text.ofString "<=" ++ (Text.ofNat bound ++ [])) =
        StringType.keyword ⟨wide, some bound⟩ ++ Text.ofString "<=" ++ Text.ofNat bound
      rw [List.append_nil, List.append_assoc]
  | .named name =>
      show name ++ [] = name
      exact List.append_nil _
  | .qualified type =>
      show type.package ++ (Text.ofString "/" ++
          (type.kind.text ++ (Text.ofString "/" ++ (type.name ++ [])))) =
        type.package ++ Text.ofString "/" ++ type.kind.text ++ Text.ofString "/" ++ type.name
      simp only [List.append_nil, List.append_assoc]

theorem lexical_words (wellFormed : element.WellFormed) : element.words.Lexical := by
  match element, wellFormed with
  | .primitive (.basic type), _ => exact type.isIdentifier_text
  | .primitive (.string type), _ => exact type.isIdentifier_keyword
  | .named name, ⟨identifier, _⟩ => exact identifier
  | .qualified type, ⟨package, name⟩ => exact ⟨package, type.kind.isIdentifier_text, name⟩

theorem isDigits_boundDigits (element : ElementType) :
    ∀ digits, element.boundDigits = some digits → IsDigits digits := by
  intro digits found
  match element, found with
  | .primitive (.string type), found =>
      obtain ⟨n, -, rfl⟩ := Option.map_eq_some_iff.1 found
      exact ⟨Text.ofNat_ne_nil n, fun _ => Text.isDigit_of_mem_ofNat⟩
  | .primitive (.basic _), found => cases found
  | .named _, found => cases found
  | .qualified _, found => cases found

/-- The words and the bound of an element type mean the type again. -/
theorem resolve_words (wellFormed : element.WellFormed) (e : Text) :
    ∃ base bound, TypeSpec.resolveWords e element.words = .ok base ∧
      TypeSpec.resolveBound element.boundDigits = .ok bound ∧
      TypeSpec.bounded e base bound = .ok element := by
  match element, wellFormed with
  | .primitive (.basic type), _ =>
      refine ⟨.primitive (.basic type), none, ?_, rfl, rfl⟩
      simp only [words, TypeSpec.resolveWords, Primitive.ofKeyword?_basic]
  | .primitive (.string ⟨wide, none⟩), _ =>
      refine ⟨.primitive (.string ⟨wide, none⟩), none, ?_, rfl, rfl⟩
      simp only [words, TypeSpec.resolveWords, Primitive.ofKeyword?_keyword]
  | .primitive (.string ⟨wide, some n⟩), within =>
      refine ⟨.primitive (.string ⟨wide, none⟩), some n, ?_, ?_, rfl⟩
      · have keyword := Primitive.ofKeyword?_keyword wide
        rw [show StringType.keyword ⟨wide, none⟩ = StringType.keyword ⟨wide, some n⟩ from rfl]
          at keyword
        simp only [words, TypeSpec.resolveWords, keyword]
      · exact Outcome.map_eq_ok_iff.2 ⟨n, TypeSpec.size_ofNat (within n rfl), rfl⟩
  | .named name, ⟨_, free⟩ =>
      refine ⟨.named name, none, ?_, rfl, rfl⟩
      simp only [words, TypeSpec.resolveWords, Primitive.ofKeyword?_eq_none_iff.2 free]
  | .qualified type, _ =>
      refine ⟨.qualified type, none, ?_, rfl, rfl⟩
      simp only [words, TypeSpec.resolveWords, Kind.ofText?_text]

end ElementType

namespace FieldType

/-- The brackets of a type. -/
def brackets : FieldType → ShapeSpec
  | .single _ => .single
  | .array _ size => .array (Text.ofNat size)
  | .sequence _ => .sequence
  | .boundedSequence _ capacity => .boundedSequence (Text.ofNat capacity)

/-- The canonical way to write a type. -/
def spec (type : FieldType) : TypeSpec :=
  ⟨type.element.words, type.element.boundDigits, type.brackets⟩

variable {type : FieldType}

theorem flatten_tokens (type : FieldType) : type.spec.tokens.flatten = type.text := by
  rw [TypeSpec.tokens, ← List.append_assoc, List.flatten_append, spec,
    type.element.flatten_tokens]
  cases type with
  | single element => exact List.append_nil _
  | array element size =>
      show element.text ++ (Text.ofString "[" ++ (Text.ofNat size ++ (Text.ofString "]" ++ []))) = _
      rw [List.append_nil, FieldType.text, List.append_assoc, List.append_assoc]
  | sequence element => rfl
  | boundedSequence element capacity =>
      show element.text ++ (Text.ofString "[" ++
        (Text.ofString "<=" ++ (Text.ofNat capacity ++ (Text.ofString "]" ++ [])))) = _
      rw [List.append_nil, FieldType.text, List.append_assoc, List.append_assoc]
      rfl

theorem element_wellFormed (wellFormed : type.WellFormed) : type.element.WellFormed := by
  cases type with
  | single => exact wellFormed
  | array => exact wellFormed.1
  | sequence => exact wellFormed
  | boundedSequence => exact wellFormed.1

theorem lexical_spec (wellFormed : type.WellFormed) : type.spec.Lexical := by
  have digits (n : Nat) : IsDigits (Text.ofNat n) :=
    ⟨Text.ofNat_ne_nil n, fun _ => Text.isDigit_of_mem_ofNat⟩
  refine ⟨ElementType.lexical_words (element_wellFormed wellFormed),
    ElementType.isDigits_boundDigits _, ?_⟩
  cases type with
  | single => trivial
  | array element size => exact digits size
  | sequence => trivial
  | boundedSequence element capacity => exact digits capacity

/-- **What the canonical spelling of a type means is the type.** -/
theorem resolve_spec (wellFormed : type.WellFormed) (e : Text) :
    type.spec.resolve e = .ok type := by
  obtain ⟨base, bound, words, readBound, readElement⟩ :=
    ElementType.resolve_words (element_wellFormed wellFormed) e
  have shaped : ∃ shape, TypeSpec.resolveShape type.brackets = .ok shape ∧
      shape type.element = type := by
    cases type with
    | single element => exact ⟨_, rfl, rfl⟩
    | array element size =>
        exact ⟨_, Outcome.map_eq_ok_iff.2 ⟨size, TypeSpec.size_ofNat wellFormed.2, rfl⟩, rfl⟩
    | sequence element => exact ⟨_, rfl, rfl⟩
    | boundedSequence element capacity =>
        exact ⟨_, Outcome.map_eq_ok_iff.2 ⟨capacity, TypeSpec.size_ofNat wellFormed.2, rfl⟩, rfl⟩
  obtain ⟨shape, readShape, whole⟩ := shaped
  exact TypeSpec.resolve_eq_ok_iff.2
    ⟨base, bound, shape, type.element, words, readBound, readShape, readElement, whole⟩

/-- The text of a well-formed type is read as its canonical spelling. -/
theorem read?_text (wellFormed : type.WellFormed) :
    TypeSpec.read? type.text = some (type.spec, []) := by
  have spaced := Spaced.flatten type.spec.tokens []
  rw [flatten_tokens, List.append_nil] at spaced
  exact TypeSpec.read?_eq_some_iff.2 ⟨lexical_spec wellFormed, spaced, type.spec.ends_nil⟩

/-! ## Whole texts -/

theorem ofText_trim (s : Text) : ofText s.trim = ofText s := by
  rw [ofText, ofText, Text.trim_trim]

/-- Nothing but a gap behind a written type would end the text in white space. -/
theorem skipGap_eq_nil_iff {s rest : Text} {spec : TypeSpec} (bare : Text.BareEnds s)
    (read : TypeSpec.read? s = some (spec, rest)) : rest.skipGap = [] ↔ rest = [] := by
  obtain ⟨taken, whole, -⟩ := TypeSpec.read?_whole read
  rw [whole] at bare
  rw [← List.isEmpty_iff, Text.isEmpty_skipGap_iff]
  constructor
  · exact bare.eq_nil_of_isGap
  · rintro rfl
    exact Text.isGap_nil

/-- A text with bare ends that is a written type means what the type means. -/
theorem ofText_of_read {s : Text} {spec : TypeSpec} (bare : Text.BareEnds s)
    (read : TypeSpec.read? s = some (spec, [])) : ofText s = spec.resolve s := by
  simp only [ofText, Text.trim_of_bareEnds bare, read]
  rfl

/-- Every other text with bare ends is malformed. -/
theorem ofText_of_not_read {s : Text} (bare : Text.BareEnds s)
    (unread : ∀ spec, TypeSpec.read? s ≠ some (spec, [])) :
    ofText s = .faultIn s (.grammar .malformed) := by
  simp only [ofText, Text.trim_of_bareEnds bare]
  cases read : TypeSpec.read? s with
  | none => rfl
  | some result =>
      obtain ⟨spec, rest⟩ := result
      have unused : rest.skipGap ≠ [] := by
        rw [Ne, skipGap_eq_nil_iff bare read]
        rintro rfl
        exact unread spec read
      simp only
      rw [if_neg (by simpa using unused)]

/-- A text with bare ends spells a type when nothing of it is left over. -/
theorem ofText_eq_ok_iff {s : Text} (bare : Text.BareEnds s) :
    ofText s = .ok type ↔
      ∃ spec, TypeSpec.read? s = some (spec, []) ∧ spec.resolve s = .ok type := by
  constructor
  · intro found
    by_contra absent
    have unread : ∀ spec, TypeSpec.read? s ≠ some (spec, []) := by
      intro spec read
      rw [ofText_of_read bare read] at found
      exact absent ⟨spec, read, found⟩
    rw [ofText_of_not_read bare unread] at found
    cases found
  · rintro ⟨spec, read, resolved⟩
    rw [ofText_of_read bare read]
    exact resolved

end FieldType

end RosInterface
