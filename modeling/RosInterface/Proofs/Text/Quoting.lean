/-
# RosInterface.Proofs.Text.Quoting -- quoted texts are read back

A quoted text passes three readers that share nothing with its writer: the one
that looks for a comment, the one that looks for the closing quote, and the one
that decodes escapes.  Each code point between the quotes is a piece that stands
for it (`piece_spelled`), and that settles all three.

* `exists_quoted`: a quoted text is a literal whose pieces stand for the text,
  whatever it holds.
* `isPrintable_of_mem_quoted`: a quoted text is printable throughout, so it stays
  on its line.
-/
import RosInterface.Proofs.Text.Pieces

set_option autoImplicit false

namespace RosInterface

namespace CodePoint

/-- What is printable does not end a line. -/
theorem not_isLineBoundary_of_isPrintable {c : CodePoint} (printable : c.isPrintable = true) :
    c.isLineBoundary = false := by
  rw [Bool.eq_false_iff]
  intro boundary
  have ranges : (0xA ≤ c.val ∧ c.val ≤ 0xD) ∨ (0x1C ≤ c.val ∧ c.val ≤ 0x1E) ∨ c.val = 0x85 ∨
      c.val = 0x2028 ∨ c.val = 0x2029 := by
    simp only [isLineBoundary, inRanges, List.any_cons, List.any_nil, Bool.or_false,
      Bool.or_eq_true, Bool.and_eq_true, decide_eq_true_eq] at boundary
    omega
  have table : ∀ n, n = 0x85 ∨ n = 0x2028 ∨ n = 0x2029 →
      (unprintable.any fun range => range.1 ≤ n && n ≤ range.2) = true := by
    rintro n (rfl | rfl | rfl) <;> decide +kernel
  simp only [isPrintable] at printable
  split at printable
  · simp only [decide_eq_true_eq] at printable
    omega
  · rw [inRanges, table c.val (by omega)] at printable
    cases printable

/-- No half of a pair is printable. -/
theorem not_isSurrogate_of_isPrintable {c : CodePoint} (printable : c.isPrintable = true) :
    c.isSurrogate = false := by
  rw [Bool.eq_false_iff]
  intro surrogate
  simp only [isSurrogate, Bool.and_eq_true, decide_eq_true_eq] at surrogate
  have table : ((0xD7FC, 0xF8FF) : Nat × Nat) ∈ unprintable := by decide +kernel
  have inTable : c.inRanges unprintable = true := by
    refine List.any_eq_true.2 ⟨_, table, ?_⟩
    simp only [Bool.and_eq_true, decide_eq_true_eq]
    omega
  simp only [isPrintable, inTable] at printable
  split at printable
  · omega
  · cases printable

/-- A printable code point that is neither a quote nor a hash. -/
def IsPlain (c : CodePoint) : Prop :=
  c.isPrintable = true ∧ c.isQuote = false ∧ c ≠ ofChar '#'

instance (c : CodePoint) : Decidable c.IsPlain := inferInstanceAs (Decidable (_ ∧ _ ∧ _))

end CodePoint

namespace Text

open CodePoint (backslash)

theorem isPrintable_of_isWord {c : CodePoint} (word : c.isWord = true) : c.isPrintable = true := by
  have bounds := CodePoint.ascii_of_isWord word
  exact CodePoint.isPrintable_of_lt (by omega) (by omega)

theorem isPrintable_of_isQuote {c : CodePoint} (isQuote : c.isQuote = true) :
    c.isPrintable = true := by
  rcases CodePoint.isQuote_iff.1 isQuote with rfl | rfl <;> decide

/-! ## One code point between quotes -/

theorem piece_hex {quote l c : CodePoint} {width : Nat} (letter : (l, width) ∈ hexLetters)
    (fits : c.val < 16 ^ width) (next : Text) :
    LiteralPiece quote next (backslash :: l :: hex width c.val) [c] :=
  .hexadecimal letter (length_hex _ _) (fun _ => isDigitOf_of_mem_hex) (value_hex fits)

/-- **A code point stands for itself as it is spelled**, whatever follows. -/
theorem piece_spelled {quote : CodePoint} (isQuote : quote.isQuote = true) (c : CodePoint)
    (next : Text) : LiteralPiece quote next (spelled quote c) [c] := by
  unfold spelled
  split_ifs with special tab feed return_ printable small medium
  · refine .letter ?_
    rcases special with rfl | rfl
    · rcases CodePoint.isQuote_iff.1 isQuote with rfl | rfl <;> decide
    · decide
  · rw [show c = '\t' from CodePoint.eq_ofChar.2 tab]
    exact .letter (by decide)
  · rw [show c = '\n' from CodePoint.eq_ofChar.2 feed]
    exact .letter (by decide)
  · rw [show c = '\r' from CodePoint.eq_ofChar.2 return_]
    exact .letter (by decide)
  · exact .itself (fun same => special (.inl same)) (fun same => special (.inr same))
  · exact piece_hex (by decide) (by omega) next
  · exact piece_hex (by decide) (by omega) next
  · exact piece_hex (by decide) (by have := c.isLt; omega) next

theorem isPrintable_of_mem_escape {l c d : CodePoint} {width : Nat} (word : l.isWord = true)
    (member : d ∈ backslash :: l :: hex width c.val) : d.isPrintable = true := by
  rcases List.mem_cons.1 member with rfl | behind
  · decide
  · refine isPrintable_of_isWord ?_
    rcases List.mem_cons.1 behind with rfl | inHex
    · exact word
    · exact isWord_of_isDigitOf le_rfl (isDigitOf_of_mem_hex inHex)

theorem isPrintable_of_mem_spelled {quote c d : CodePoint} (isQuote : quote.isQuote = true)
    (member : d ∈ spelled quote c) : d.isPrintable = true := by
  have pair {l : CodePoint} (printable : l.isPrintable = true) (inside : d ∈ [backslash, l]) :
      d.isPrintable = true := by
    simp only [List.mem_cons, List.not_mem_nil, or_false] at inside
    rcases inside with rfl | rfl
    · decide
    · exact printable
  unfold spelled at member
  split_ifs at member with special tab feed return_ printable small medium
  · refine pair ?_ member
    rcases special with rfl | rfl
    · exact isPrintable_of_isQuote isQuote
    · decide
  · exact pair (by decide) member
  · exact pair (by decide) member
  · exact pair (by decide) member
  · rwa [List.mem_singleton.1 member]
  · exact isPrintable_of_mem_escape (by decide) member
  · exact isPrintable_of_mem_escape (by decide) member
  · exact isPrintable_of_mem_escape (by decide) member

/-! ## Quoted texts -/

theorem body_spelled {quote : CodePoint} (isQuote : quote.isQuote = true) (s : Text) :
    LiteralBody quote (s.flatMap (spelled quote)) s := by
  induction s with
  | nil => exact .nil
  | cons c s ih => exact .cons (piece_spelled isQuote c _) ih

theorem isQuote_quoteFor (s : Text) : (quoteFor s).isQuote = true := by
  unfold quoteFor
  split <;> decide

/-- **A quoted text is one literal that stands for the text.** -/
theorem exists_quoted (s : Text) :
    ∃ quote body, quote.isQuote = true ∧ quoted s = quote :: (body ++ [quote]) ∧
      LiteralBody quote body s :=
  ⟨quoteFor s, s.flatMap (spelled (quoteFor s)), isQuote_quoteFor s, rfl,
    body_spelled (isQuote_quoteFor s) s⟩

theorem isLiteral_quoted (s : Text) : IsLiteral s.quoted := by
  obtain ⟨quote, body, isQuote, shape, written⟩ := exists_quoted s
  exact ⟨quote, body, shape, isQuote, written.guarded isQuote⟩

theorem isPrintable_of_mem_quoted {s : Text} {c : CodePoint} (member : c ∈ quoted s) :
    c.isPrintable = true := by
  have isQuote := isQuote_quoteFor s
  simp only [quoted, List.mem_cons, List.mem_append, List.mem_flatMap, List.not_mem_nil,
    or_false] at member
  rcases member with rfl | ⟨d, -, inPiece⟩ | rfl
  · exact isPrintable_of_isQuote isQuote
  · exact isPrintable_of_mem_spelled isQuote inPiece
  · exact isPrintable_of_isQuote isQuote

/-! ## Texts that stay on their line -/

/-- The text can stand on a line as it is: no comment begins in it, and no code
point of it ends a line. -/
structure OnLine (s : Text) : Prop where
  kept : ∀ rest, uncommented none (s ++ rest) = s ++ uncommented none rest
  printable : ∀ c ∈ s, c.isPrintable = true

theorem onLine_nil : OnLine [] := ⟨fun _ => rfl, fun _ member => by cases member⟩

theorem OnLine.append {s t : Text} (first : OnLine s) (second : OnLine t) : OnLine (s ++ t) := by
  refine ⟨fun rest => ?_, fun c member => ?_⟩
  · rw [List.append_assoc, first.kept, second.kept, List.append_assoc]
  · rcases List.mem_append.1 member with inFirst | inSecond
    · exact first.printable c inFirst
    · exact second.printable c inSecond

theorem OnLine.withoutComment {s : Text} (onLine : OnLine s) : s.withoutComment = s := by
  have whole := onLine.kept []
  rwa [List.append_nil, uncommented, List.append_nil] at whole

theorem onLine_of_forall {s : Text} (plain : ∀ c ∈ s, c.IsPlain) : OnLine s :=
  ⟨uncommented_append_bare fun c member => (plain c member).2, fun c member => (plain c member).1⟩

theorem onLine_quoted (s : Text) : OnLine (quoted s) :=
  ⟨(isLiteral_quoted s).uncommented_append, fun _ => isPrintable_of_mem_quoted⟩

theorem isPlain_of_isWord {c : CodePoint} (word : c.isWord = true) : c.IsPlain := by
  refine ⟨isPrintable_of_isWord word, ?_, ?_⟩
  · rw [Bool.eq_false_iff]
    intro quote
    exact (plain_of_isWord quote word).1 rfl
  · rintro rfl
    exact absurd word (by decide)

end Text

end RosInterface
