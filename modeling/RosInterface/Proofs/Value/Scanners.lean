/-
# RosInterface.Proofs.Value.Scanners -- three readers of quoted texts

Three readers look for the end of a quoted text, each in its own way.  The reader of strings asks
whether a text is one literal, the search for a comment follows quotes along a line, and the
reader of arrays takes a literal off the front of what is left, on one line only.  They find the
same closing quote, whatever stands between the quotes and behind them
(`Value.scanners_agree`).

It follows that an array is never refused for a quote without its end: what has been taken off as
an element is one literal for the reader of strings too (`Value.terminated_array`).
-/
import RosInterface.Proofs.Value.ArraySyntax
import RosInterface.Proofs.Value.Limits

set_option autoImplicit false

namespace RosInterface

open Text (IsLiteral IsLineLiteral Unclosed)

/-- The diagnostic does not miss a closing quote. -/
def Diagnostic.Terminated (d : Diagnostic) : Prop :=
  ∀ fault, d.fault = .value fault → fault.detail ≠ some .unterminated

/-- An element is a literal, or it begins in no quote. -/
theorem ArrayElement.WellWritten.not_unclosed {element : ArrayElement}
    (wellWritten : element.WellWritten) : ¬ element.source.trim.Unclosed := by
  cases element with
  | quoted written =>
      obtain ⟨literal, -⟩ := wellWritten
      rw [source, Text.trim_of_bareEnds literal.bareEnds]
      exact fun unclosed => unclosed.2 literal
  | bare written =>
      obtain ⟨-, inside⟩ := wellWritten
      have ends : Text.BareEnds written := by
        refine Text.bareEnds_of_forall fun c member => ?_
        have bare := inside c member
        simp only [isBare, Bool.not_eq_true', Bool.or_eq_false_iff] at bare
        exact bare.1.1.1.1
      rw [source, Text.trim_of_bareEnds ends]
      rintro ⟨⟨quote, rest, rfl, isQuote⟩, -⟩
      rw [not_isQuote_of_isBare (inside quote (by simp))] at isQuote
      cases isQuote

namespace Value

variable {type : Primitive} {text : Text}

theorem Refusal.terminated {d : Diagnostic} (refusal : Refusal type text d)
    (closed : ¬ text.trim.Unclosed) : d.Terminated := by
  obtain ⟨detail, rfl, allowed⟩ := refusal
  rintro fault ⟨⟩ unterminated
  exact closed (allowed unterminated)

/-- **An array is never refused for a missing quote.** -/
theorem terminated_array (type : Primitive) (text : Text) :
    (array type text).Diagnoses Diagnostic.Terminated := by
  intro d failed
  rcases diagnoses_array type d failed with whole | ⟨elements, e, split, member, refusal⟩
  · intro fault same
    rw [whole] at same
    cases same
    exact fun never => (by cases never)
  · obtain ⟨comma, wellWritten, -, -⟩ := ArrayElement.split?_trim_eq_some_iff.1 split
    exact refusal.terminated (wellWritten e member).not_unclosed

/-- **The readers of quoted texts agree.**  The reader of strings takes the literals.  Behind a
text without quotes and hashes, the search for a comment passes over a literal and goes on behind
it as at the beginning of a line.  A literal without a newline is the one that the reader of
arrays takes off, and that reader takes off nothing but literals, so no array misses a quote. -/
theorem scanners_agree :
    (∀ quote rest, quote.isQuote = true →
      ((quotedContent? quote rest).isSome = true ↔ IsLiteral (quote :: rest))) ∧
    (∀ q p r, IsLiteral q → (∀ c ∈ p, c.isQuote = false ∧ c ≠ CodePoint.ofChar '#') →
      Text.withoutComment (p ++ (q ++ r)) = p ++ (q ++ r.withoutComment)) ∧
    (∀ q r, IsLiteral q → CodePoint.newline ∉ q →
      ∀ t, IsLineLiteral t ∧ t <+: q ++ r ↔ t = q) ∧
    (∀ t, IsLineLiteral t → IsLiteral t) ∧
    (∀ s t r, ArrayElement.read? s = some (.quoted t, r) ↔ s = t ++ r ∧ IsLineLiteral t) ∧
    ∀ type text d, array type text = .error (.diagnostic d) → d.Terminated := by
  refine ⟨fun quote rest isQuote => quotedContent?_isSome_iff isQuote, ?_, ?_,
    fun t onLine => (Text.isLineLiteral_iff.1 onLine).1, ?_, terminated_array⟩
  · intro q p r literal plain
    rw [Text.withoutComment, Text.uncommented_append_bare plain, literal.uncommented_append]
    rfl
  · intro q r literal onLine t
    constructor
    · rintro ⟨taken, begins⟩
      exact literal.eq_of_prefix (Text.isLineLiteral_iff.1 taken).1 begins
    · rintro rfl
      exact ⟨Text.isLineLiteral_iff.2 ⟨literal, onLine⟩, List.prefix_append t r⟩
  · intro s t r
    rw [ArrayElement.read?_quoted_iff, Text.isLineLiteral_iff]

/-- Behind an escaped quote a hash and the other quote are still inside. -/
theorem scanners_agree_escaped :
    Text.withoutComment (Text.ofString "x " ++ (Text.ofString "\"a\\\"#'b\"" ++ " # c")) =
        Text.ofString "x " ++ (Text.ofString "\"a\\\"#'b\"" ++ " ") ∧
      ∀ t, IsLineLiteral t ∧ t <+: Text.ofString "\"a\\\"#'b\"" ++ " # c" ↔
        t = Text.ofString "\"a\\\"#'b\"" := by
  have whole : Text.ofString "\"a\\\"#'b\"" = CodePoint.doubleQuote :: "a\\\"#'b\"" := by decide
  have literal : IsLiteral (Text.ofString "\"a\\\"#'b\"") := by
    rw [whole]
    exact (scanners_agree.1 _ _ (by decide)).1 (by decide +kernel)
  have hash : Text.withoutComment (Text.ofString " # c") = Text.ofString " " := by decide
  have kept := scanners_agree.2.1 _ (Text.ofString "x ") (Text.ofString " # c") literal (by decide)
  rw [hash] at kept
  exact ⟨kept, scanners_agree.2.2.1 _ _ literal (by decide)⟩

end Value

end RosInterface
