/-
# RosInterface.Proofs.Value.Limits -- values past the limits of the reader

Two kinds of value end a reading without a diagnostic: a decimal literal with more
digits than the reader takes, leading zeros counted, and a quoted literal in which
an escape names a number past the last code point.  `Primitive.Exceeds` says so
without the reader, and `Value.aborts_forType_iff` says that it is exactly these.  An
array is read up to its first element that fails, so an element counts only if all
before it have been read.
-/
import RosInterface.Proofs.Failure
import RosInterface.Proofs.Text.Escape
import RosInterface.Proofs.Value.Integer
import RosInterface.Proofs.Value.StringLiteral
import RosInterface.Value.Array

set_option autoImplicit false

namespace RosInterface

open Text (Guarded NamesNoCodePoint Stops)

/-! ## The limits -/

/-- More decimal digits than the reader takes, with a sign or without. -/
def LongDecimal (s : Text) : Prop :=
  ∃ mark digits, s = mark ++ digits ∧ IsSign mark ∧ IsDigits digits ∧ maximalDigits < digits.length

/-- A quoted literal with an escape that names no code point. -/
def EscapesBeyond (s : Text) : Prop :=
  ∃ quote body, s = quote :: (body ++ [quote]) ∧ quote.isQuote = true ∧ Guarded quote body ∧
    NamesNoCodePoint quote body

/-- The source of a value runs into a limit of the reader. -/
def Primitive.Exceeds : Primitive → Text → Prop
  | .basic (.integer _), source => LongDecimal source.trim
  | .basic _, _ => False
  | .string _, source => EscapesBeyond source.trim

/-- An element is read as a value; only strings may be quoted. -/
def ArrayElement.Exceeds (type : Primitive) : ArrayElement → Prop
  | .quoted source => type.isString = true ∧ type.Exceeds source
  | .bare source => type.Exceeds source

/-- The source of the values of a type runs into a limit; in an array all elements
before have been read. -/
def FieldType.Exceeds (type : FieldType) (source : Text) : Prop :=
  ∃ element, type.element = .primitive element ∧
    if type.isSingle = true then element.Exceeds source
    else ∃ before e after, ArrayElement.split? source.trim = some (before ++ e :: after) ∧
      (∀ b ∈ before, ∃ value, Value.element element b = .ok value) ∧ e.Exceeds element

namespace Value

variable {text : Text}

/-! ## Single values -/

theorem structured_boolean : (boolean text).Structured := by
  simp only [boolean]
  split
  · exact Outcome.structured_ok _
  · exact Outcome.structured_refuse _ _ _

theorem structured_floating {type : FloatType} : (floating type text).Structured := by
  simp only [floating]
  split
  · exact Outcome.structured_ok _
  · exact Outcome.structured_refuse _ _ _

theorem longDecimal_iff {s : Text} :
    LongDecimal s ↔ ∃ literal, IntegerLiteral.read? s = some literal ∧
      literal.radix = 10 ∧ maximalDigits < literal.digits.length := by
  constructor
  · rintro ⟨mark, digits, whole, isSign, run, many⟩
    obtain ⟨negative, found⟩ := IntegerLiteral.decimal_iff.2 ⟨mark, whole, isSign, run⟩
    exact ⟨_, found, rfl, many⟩
  · rintro ⟨⟨negative, radix, digits⟩, read, rfl, many⟩
    obtain ⟨mark, whole, isSign, run⟩ := IntegerLiteral.decimal_iff.1 ⟨negative, read⟩
    exact ⟨mark, digits, whole, isSign, run, many⟩

theorem aborts_integer_iff {type : IntegerType} :
    (integer type text).Aborts ↔ LongDecimal text.trim := by
  have short {literal : IntegerLiteral} (read : IntegerLiteral.read? text.trim = some literal)
      (short : ¬ (literal.radix = 10 ∧ maximalDigits < literal.digits.length)) :
      ¬ LongDecimal text.trim := by
    rw [longDecimal_iff, read]
    rintro ⟨_, ⟨⟩, long⟩
    exact short long
  have reading := integer_reading type text
  generalize integer type text = outcome at reading ⊢
  cases reading with
  | unreadable read =>
      refine iff_of_false (Outcome.not_aborts_refuse _ _ _) ?_
      rw [longDecimal_iff, read]
      rintro ⟨_, ⟨⟩, -⟩
  | long read long => exact iff_of_true (Outcome.aborts_abort _) (longDecimal_iff.2 ⟨_, read, long⟩)
  | inRange read few => exact iff_of_false (Outcome.not_aborts_ok _) (short read few)
  | outOfRange read few => exact iff_of_false (Outcome.not_aborts_refuse _ _ _) (short read few)

theorem escapesBeyond_iff {quote : CodePoint} {body s : Text}
    (literal : s = quote :: (body ++ [quote])) (isQuote : quote.isQuote = true)
    (guarded : Guarded quote body) :
    EscapesBeyond s ↔ ∃ fault, Text.unescape body = .error fault := by
  rw [Text.unescape_eq_error_iff guarded, literal]
  constructor
  · rintro ⟨quote, body, whole, -, -, beyond⟩
    obtain ⟨rfl, same⟩ := List.cons.inj whole
    rwa [List.append_cancel_right same]
  · intro beyond
    exact ⟨quote, body, rfl, isQuote, guarded, beyond⟩

theorem not_aborts_fitting {type : StringType} {content : Text} :
    ¬ (fitting type text content).Aborts := by
  rintro ⟨a, aborted⟩
  rw [fitting] at aborted
  split at aborted
  · cases aborted
  · split at aborted <;> cases aborted

/-- A string aborts only where a quoted literal fails to decode. -/
theorem aborts_string_iff {type : StringType} {mustQuote : Bool} :
    (string type mustQuote text).Aborts ↔ EscapesBeyond text.trim := by
  have unquoted : Stops CodePoint.isQuote text.trim → ¬ EscapesBeyond text.trim := by
    rintro noQuote ⟨quote, body, whole, isQuote, -⟩
    rw [whole, Text.stops_cons, isQuote] at noQuote
    cases noQuote
  have reading := string_reading type mustQuote text
  generalize string type mustQuote text = outcome at reading ⊢
  cases reading with
  | unterminated unclosed =>
      refine iff_of_false (Outcome.not_aborts_refuse _ _ _) ?_
      rintro ⟨quote, body, whole, isQuote, guarded, -⟩
      exact unclosed.2 ⟨quote, body, whole, isQuote, guarded⟩
  | undecodable literal isQuote guarded failed =>
      exact iff_of_true (Outcome.aborts_abort _)
        ((escapesBeyond_iff literal isQuote guarded).2 ⟨_, failed⟩)
  | quoted literal isQuote guarded decoded =>
      refine iff_of_false not_aborts_fitting ?_
      rw [escapesBeyond_iff literal isQuote guarded, decoded]
      rintro ⟨fault, never⟩
      cases never
  | unquoted noQuote =>
      exact iff_of_false (Outcome.not_aborts_refuse _ _ _) (unquoted noQuote)
  | bare literal noQuote =>
      exact iff_of_false not_aborts_fitting (unquoted (literal ▸ noQuote))

theorem aborts_primitive_iff {type : Primitive} :
    (primitive type text).Aborts ↔ type.Exceeds text := by
  match type with
  | .basic .bool =>
      exact ⟨fun aborts => absurd aborts structured_boolean.not_aborts, fun never => never.elim⟩
  | .basic (.integer _) => exact aborts_integer_iff
  | .basic (.float _) =>
      exact ⟨fun aborts => absurd aborts structured_floating.not_aborts, fun never => never.elim⟩
  | .string _ => exact aborts_string_iff

/-! ## Arrays -/

theorem aborts_element_iff {type : Primitive} {e : ArrayElement} :
    (element type e).Aborts ↔ e.Exceeds type := by
  cases e with
  | bare source => exact aborts_primitive_iff
  | quoted source =>
      rw [element, ArrayElement.Exceeds]
      by_cases isString : type.isString = true
      · rw [if_pos isString, aborts_primitive_iff]
        exact (and_iff_right isString).symm
      · rw [if_neg isString]
        exact ⟨fun aborts => absurd aborts (Outcome.not_aborts_refuse _ _ _),
          fun quoted => absurd quoted.1 isString⟩

theorem aborts_array_iff {type : Primitive} :
    (array type text).Aborts ↔
      ∃ before e after, ArrayElement.split? text.trim = some (before ++ e :: after) ∧
        (∀ b ∈ before, ∃ value, element type b = .ok value) ∧ e.Exceeds type := by
  rw [array]
  cases split : ArrayElement.split? text.trim with
  | none =>
      refine ⟨fun aborts => absurd aborts (Outcome.not_aborts_refuse _ _ _), ?_⟩
      rintro ⟨before, e, after, same, -⟩
      cases same
  | some elements =>
      simp only [Outcome.aborts_mapM_iff, aborts_element_iff, Option.some.injEq]

theorem structured_checkCount {type : FieldType} {count : Nat} :
    (checkCount type text count).Structured := by
  cases type with
  | single => exact Outcome.structured_ok _
  | array element size =>
      rw [checkCount]
      split
      · exact Outcome.structured_ok _
      · exact Outcome.structured_refuse _ _ _
  | sequence => exact Outcome.structured_ok _
  | boundedSequence element capacity =>
      rw [checkCount]
      split
      · exact Outcome.structured_ok _
      · exact Outcome.structured_refuse _ _ _

/-- **The reader of values aborts exactly past its limits.** -/
theorem aborts_forType_iff {type : FieldType} : (forType type text).Aborts ↔ type.Exceeds text := by
  rw [FieldType.Exceeds, forType]
  cases primitive : type.element with
  | named name =>
      exact ⟨fun aborts => absurd aborts (Outcome.not_aborts_fault _),
        fun ⟨_, same, _⟩ => by cases same⟩
  | qualified name =>
      exact ⟨fun aborts => absurd aborts (Outcome.not_aborts_fault _),
        fun ⟨_, same, _⟩ => by cases same⟩
  | primitive element =>
      simp only [ElementType.primitive.injEq, exists_eq_left']
      by_cases isSingle : type.isSingle = true
      · rw [if_pos isSingle, if_pos isSingle, Outcome.aborts_map_iff, aborts_primitive_iff]
      · rw [if_neg isSingle, if_neg isSingle, Outcome.aborts_bind_iff, aborts_array_iff,
          or_iff_left]
        rintro ⟨values, -, aborts⟩
        rcases Outcome.aborts_bind_iff.1 aborts with counting | ⟨_, _, done⟩
        · exact structured_checkCount.not_aborts counting
        · exact Outcome.not_aborts_ok _ done

/-! ## Diagnostics -/

/-- The diagnostic refuses a text as a value of a type.  It misses a closing quote only where the
text begins with a quote and is no literal. -/
def Refusal (type : Primitive) (text : Text) (d : Diagnostic) : Prop :=
  ∃ detail, d = (Diagnostic.ofFault (.value ⟨text, .single (.primitive type), detail⟩)).withExcerpt
      text ∧
    (detail = some .unterminated → text.trim.Unclosed)

theorem Refusal.ofText {type : Primitive} {d : Diagnostic} (refusal : Refusal type text d) :
    d.fault.OfText := by
  obtain ⟨detail, rfl, -⟩ := refusal
  trivial

theorem diagnoses_refuse {type : Primitive} {detail : Option ValueDetail}
    (allowed : detail = some .unterminated → text.trim.Unclosed) :
    (Outcome.refuse text (.single (.primitive type)) detail : Outcome Text).Diagnoses
      (Refusal type text) := by
  rintro d ⟨⟩
  exact ⟨detail, rfl, allowed⟩

theorem diagnoses_integer (type : IntegerType) :
    (integer type text).Diagnoses (Refusal (.basic (.integer type)) text) := by
  have reading := integer_reading type text
  generalize integer type text = outcome at reading ⊢
  cases reading with
  | long => exact Outcome.diagnoses_abort _
  | inRange => exact Outcome.diagnoses_ok _
  | unreadable | outOfRange => exact diagnoses_refuse fun never => (by cases never)

theorem diagnoses_basic (type : BasicType) :
    (basic type text).Diagnoses (Refusal (.basic type) text) := by
  cases type with
  | bool =>
      simp only [basic, boolean]
      split
      · exact Outcome.diagnoses_ok _
      · exact diagnoses_refuse fun never => (by cases never)
  | integer type => exact diagnoses_integer type
  | float type =>
      simp only [basic, floating]
      split
      · exact Outcome.diagnoses_ok _
      · exact diagnoses_refuse fun never => (by cases never)

theorem diagnoses_fitting {type : StringType} {content : Text} :
    (fitting type text content).Diagnoses (Refusal (.string type) text) := by
  rw [fitting]
  split
  · exact Outcome.diagnoses_ok _
  · split
    · exact Outcome.diagnoses_ok _
    · exact diagnoses_refuse fun never => (by cases never)

theorem diagnoses_string (type : StringType) (mustQuote : Bool) :
    (string type mustQuote text).Diagnoses (Refusal (.string type) text) := by
  have reading := string_reading type mustQuote text
  generalize string type mustQuote text = outcome at reading ⊢
  cases reading with
  | unterminated unclosed => exact diagnoses_refuse fun _ => unclosed
  | undecodable => exact Outcome.diagnoses_abort _
  | unquoted => exact diagnoses_refuse fun never => (by cases never)
  | quoted | bare => exact diagnoses_fitting

/-- **A value is refused by itself**, and for want of a closing quote only where it has none. -/
theorem diagnoses_primitive (type : Primitive) :
    (primitive type text).Diagnoses (Refusal type text) := by
  cases type with
  | basic type => exact diagnoses_basic type
  | string type => exact diagnoses_string type false

theorem diagnoses_element (type : Primitive) (e : ArrayElement) :
    (element type e).Diagnoses (Refusal type e.source) := by
  cases e with
  | bare source => exact diagnoses_primitive type
  | quoted source =>
      rw [element]
      split
      · exact diagnoses_primitive type
      · exact diagnoses_refuse fun never => (by cases never)

/-- An array is refused as a whole where it is no list of elements, and otherwise for one of
them. -/
theorem diagnoses_array (type : Primitive) :
    (array type text).Diagnoses fun d =>
      (d.fault = .value ⟨text, .sequence (.primitive type), some .notAnArray⟩) ∨
        ∃ elements e, ArrayElement.split? text.trim = some elements ∧ e ∈ elements ∧
          Refusal type e.source d := by
  rw [array]
  cases split : ArrayElement.split? text.trim with
  | none =>
      rintro d ⟨⟩
      exact .inl rfl
  | some elements =>
      refine Outcome.diagnoses_mapM fun e member d failed => .inr ?_
      exact ⟨elements, e, rfl, member, diagnoses_element type e d failed⟩

theorem tame_primitive (type : Primitive) : (primitive type text).Tame :=
  fun d failed => (diagnoses_primitive type d failed).ofText

theorem tame_array (type : Primitive) : (array type text).Tame := by
  intro d failed
  rcases diagnoses_array type d failed with same | ⟨_, _, -, -, refusal⟩
  · rw [same]
    trivial
  · exact refusal.ofText

/-- Every diagnostic about a value is one about the text. -/
theorem tame_forType (type : FieldType) : (forType type text).Tame := by
  rw [forType]
  cases type.element with
  | named name => exact Outcome.tame_fault trivial
  | qualified name => exact Outcome.tame_fault trivial
  | primitive element =>
      simp only
      split
      · exact (tame_primitive element).map _
      · exact (tame_array element).bind fun values =>
          structured_checkCount.tame.bind fun _ => Outcome.diagnoses_ok values

end Value

end RosInterface
