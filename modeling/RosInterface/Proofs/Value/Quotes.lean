/-
# RosInterface.Proofs.Value.Quotes -- quotes in the spelling of a value

A value that is read is spelled without quotes, or every quote in it belongs to a literal: a
bool, a number and the elements of an array without quotes hold none at all, and a quoted string
is one literal.  Its spelling is therefore closed.  The exception is a string that is written
without quotes, which stands for itself and may hold any quote but at its beginning;
`Value.closed_of_forType` says so for the values of every type.
-/
import RosInterface.Proofs.Text.OpenQuote
import RosInterface.Proofs.Value.ArraySyntax
import RosInterface.Proofs.Value.Canonical
import RosInterface.Proofs.Value.StringLiteral

set_option autoImplicit false

namespace RosInterface

open Text (Closed IsGap Spaced Stops)

/-! ## Code points that are no quotes -/

namespace CodePoint

theorem not_isQuote_of_isWord {c : CodePoint} (word : c.isWord = true) : c.isQuote = false :=
  (Text.isPlain_of_isWord word).2.1

theorem not_isQuote_of_isSpace {c : CodePoint} (space : c.isSpace = true) : c.isQuote = false := by
  rw [Bool.eq_false_iff]
  intro quote
  rcases isQuote_iff.1 quote with rfl | rfl <;> exact absurd space (by decide)

theorem not_isQuote_of_inFloat {c : CodePoint} (inFloat : c.InFloat) : c.isQuote = false := by
  rcases inFloat with digit | mark
  · exact not_isQuote_of_isWord (isWord_of_isDigit digit)
  · exact (show ∀ c ∈ floatMarks, c.isQuote = false by decide) c mark

end CodePoint

theorem CodePoint.lower_of_isQuote {c : CodePoint} (isQuote : c.isQuote = true) :
    c ≠ capitalSigma ∧ c ≠ dottedCapitalI ∧ c.lower = c := by
  rcases isQuote_iff.1 isQuote with rfl | rfl <;> decide

/-- A quote is its own lower case. -/
theorem Text.mem_lowerAfter {c : CodePoint} (isQuote : c.isQuote = true) {s : Text}
    (member : c ∈ s) (before : Text) : c ∈ lowerAfter before s := by
  induction s generalizing before with
  | nil => cases member
  | cons d rest ih =>
      rw [lowerAfter]
      rcases List.mem_cons.1 member with rfl | later
      · obtain ⟨noSigma, noI, same⟩ := CodePoint.lower_of_isQuote isQuote
        refine List.mem_append_left _ ?_
        rw [if_neg noSigma, if_neg noI, same]
        exact List.mem_singleton_self c
      · exact List.mem_append_right _ (ih later _)

/-! ## Single values -/

namespace IntegerLiteral

/-- The mark of a radix is a word: nothing, or a zero and a letter. -/
theorem RadixMark.isWord {mark : Text} {radix : Nat} (isMark : RadixMark mark radix) :
    ∀ c ∈ mark, c.isWord = true := by
  cases isMark with
  | decimal => exact fun c member => absurd member List.not_mem_nil
  | hexadecimal isLetter | binary isLetter | octal isLetter =>
      rcases isLetter with rfl | rfl <;> decide

theorem not_isQuote_of_read? {s : Text} {literal : IntegerLiteral}
    (read : read? s = some literal) : ∀ c ∈ s, c.isQuote = false := by
  obtain ⟨sign, mark, rfl, isSign, isMark, numeral, -⟩ := read?_eq_some_iff.1 read
  rw [Text.isNumeral, Bool.and_eq_true] at numeral
  intro c member
  rw [List.mem_append, List.mem_append] at member
  rcases member with inSign | inMark | inDigits
  · exact CodePoint.not_isQuote_of_inFloat (isSign.inFloat c inSign)
  · exact CodePoint.not_isQuote_of_isWord (isMark.isWord c inMark)
  · exact CodePoint.not_isQuote_of_isWord (Text.isWord_of_isDigitOf isMark.le_sixteen
      (List.all_eq_true.1 numeral.2 c inDigits))

end IntegerLiteral

namespace Value

variable {text value : Text}

theorem not_isQuote_of_boolean (read : boolean text = .ok value) :
    ∀ c ∈ text.trim, c.isQuote = false := by
  intro c member
  rw [Bool.eq_false_iff]
  intro isQuote
  have inside := Text.mem_lowerAfter isQuote member []
  simp only [boolean] at read
  split at read
  case isTrue word =>
    have plain : ∀ word : Text, word = "true" ∨ word = "false" → c ∉ word := by
      rintro word (rfl | rfl) <;> rcases CodePoint.isQuote_iff.1 isQuote with rfl | rfl <;> decide
    exact plain _ word inside
  case isFalse => cases read

theorem not_isQuote_of_basic {type : BasicType} (read : basic type text = .ok value) :
    ∀ c ∈ text.trim, c.isQuote = false := by
  cases type with
  | bool => exact not_isQuote_of_boolean read
  | integer type =>
      rw [basic] at read
      have reading := integer_reading type text
      generalize integer type text = outcome at reading read
      cases reading with
      | unreadable | long | outOfRange => cases read
      | inRange found => exact IntegerLiteral.not_isQuote_of_read? found
  | float type =>
      rw [basic, floating] at read
      split at read
      case isTrue found =>
        have isFloat := Scientific.read?_isSome_iff.1 found
        exact fun c member => CodePoint.not_isQuote_of_inFloat (isFloat.inFloat.2 c member)
      case isFalse => cases read

theorem eq_of_string {type : StringType} (noQuote : Stops CodePoint.isQuote text.trim)
    (read : string type false text = .ok value) : value = text.trim := by
  rw [string_of_bare noQuote] at read
  exact (fitting_eq_ok_iff.1 read).1

/-- A string is one literal, or it begins with no quote and stands for itself. -/
theorem closed_or_bare_of_string {type : StringType} (read : string type false text = .ok value) :
    Closed text.trim ∨ (value = text.trim ∧ Stops CodePoint.isQuote text.trim) := by
  have reading := string_reading type false text
  generalize string type false text = outcome at reading read
  cases reading with
  | unterminated | undecodable | unquoted => cases read
  | quoted literal isQuote guarded =>
      rw [literal]
      exact .inl (.single isQuote guarded)
  | bare literal noQuote =>
      obtain ⟨rfl, -⟩ := fitting_eq_ok_iff.1 read
      exact .inr ⟨literal.symm, literal ▸ noQuote⟩

end Value

/-! ## Arrays -/

theorem Text.IsGap.closed {gap : Text} (isGap : IsGap gap) : Closed gap :=
  .of_forall fun c member =>
    CodePoint.not_isQuote_of_isSpace (CodePoint.isSpace_of_isGap (isGap c member))

/-- Tokens that are closed are so with gaps between them. -/
theorem Text.Spaced.closed {tokens : List Text} {s tail : Text} (spaced : Spaced tokens s tail)
    (each : ∀ token ∈ tokens, Closed token) (atEnd : Closed tail) : Closed s := by
  induction spaced with
  | nil => exact atEnd
  | cons isGap _ ih =>
      rw [List.forall_mem_cons] at each
      exact isGap.closed.append (each.1.append (ih each.2 atEnd))

namespace ArrayElement

theorem WellWritten.closed {element : ArrayElement} (wellWritten : element.WellWritten) :
    Closed element.source := by
  cases element with
  | quoted written =>
      obtain ⟨⟨quote, body, rfl, isQuote, guarded⟩, -⟩ := wellWritten
      exact .single isQuote guarded
  | bare written => exact .of_forall fun c member => not_isQuote_of_isBare (wellWritten.2 c member)

theorem closed_of_split? {s : Text} {elements : List ArrayElement}
    (split : split? s = some elements) : Closed s := by
  obtain ⟨comma, tail, wellWritten, -, spaced, isGap⟩ := split?_eq_some_iff.1 split
  refine spaced.closed (fun token member => ?_) isGap.closed
  rcases List.mem_cons.1 member with rfl | behind
  · exact .of_forall (by decide)
  · rcases of_mem_listTokens behind with ⟨e, inside, rfl⟩ | rfl | rfl
    · exact (wellWritten e inside).closed
    · exact .of_forall (by decide)
    · exact .of_forall (by decide)

end ArrayElement

namespace Value

variable {text value : Text}

/-- **The spelling of a value is closed, but for a string that is written without quotes.** -/
theorem closed_of_forType {type : FieldType} {values : List Text}
    (read : forType type text = .ok values) :
    Closed text.trim ∨
      ((∃ string, type = .single (.primitive (.string string))) ∧ values = [text.trim] ∧
        Stops CodePoint.isQuote text.trim) := by
  cases element : type.element with
  | named name =>
      simp only [forType, element] at read
      cases read
  | qualified name =>
      simp only [forType, element] at read
      cases read
  | primitive primitive =>
      cases isSingle : type.isSingle with
      | false =>
          have split := ((forType_array_eq_ok_iff element isSingle).1 read).1
          rw [array] at split
          cases elements : ArrayElement.split? text.trim with
          | none =>
              simp only [elements] at split
              cases split
          | some found => exact .inl (ArrayElement.closed_of_split? elements)
      | true =>
          obtain ⟨base, rfl⟩ : ∃ base, type = .single base := by
            cases type with
            | single base => exact ⟨base, rfl⟩
            | array | sequence | boundedSequence => cases isSingle
          cases element
          obtain ⟨value, found, rfl⟩ := forType_single_eq_ok_iff.1 read
          cases primitive with
          | basic basic => exact .inl (.of_forall (not_isQuote_of_basic found))
          | string string =>
              rcases closed_or_bare_of_string found with closed | ⟨rfl, bare⟩
              · exact .inl closed
              · exact .inr ⟨⟨string, rfl⟩, rfl, bare⟩

end Value

end RosInterface
