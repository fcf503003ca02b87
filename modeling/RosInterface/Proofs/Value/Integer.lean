/-
# RosInterface.Proofs.Value.Integer -- how integer literals are taken apart

A literal is a sign, the mark of a radix and digits of that radix
(`IntegerLiteral.read?_eq_some_iff`).  A sign and decimal digits are a literal of radix
ten, whatever the digits are: the zero that selects another radix is followed by a letter.
`IntegerLiteral.decimal_iff` says that no other text is one.  The decimal text of an integer
is such a literal, and denotes the integer.  What the reader of integers does with a literal
is listed in `Value.IntegerReading`.
-/
import RosInterface.Proofs.Decimal.FloatSyntax
import RosInterface.Value.Integer

set_option autoImplicit false

namespace RosInterface

namespace IntegerLiteral

theorem split_of_digits {s : Text} (inside : ∀ c ∈ s, c.isDigit = true) :
    split s = (10, s) := by
  match s with
  | [] => rfl
  | [c] => rfl
  | c :: d :: digits =>
      have digit := CodePoint.isDigit_iff.1 (inside d (by simp))
      have noRadix : radixOf? d = none := by
        simp only [radixOf?, CodePoint.eq_ofChar]
        rw [if_neg (by simp; omega), if_neg (by simp; omega), if_neg (by simp; omega)]
      simp [split, noRadix]

/-- **The decimal text of an integer is a literal for it.** -/
theorem read?_ofInt (n : Int) :
    read? (Text.ofInt n) = some ⟨decide (n < 0), 10, Text.ofNat n.natAbs⟩ := by
  have digits : IsDigits (Text.ofNat n.natAbs) :=
    ⟨Text.ofNat_ne_nil _, fun _ => Text.isDigit_of_mem_ofNat⟩
  have split := split_of_digits digits.2
  have numeral := Text.isNumeral_ofNat n.natAbs
  rcases lt_or_ge n 0 with negative | nonneg
  · have sign : Text.sign (Text.ofInt n) = (true, Text.ofNat n.natAbs) := by
      rw [Text.ofInt_of_neg negative]
      simp [Text.sign]
    simp [read?, sign, split, numeral, negative]
  · have unsigned : Text.Unsigned (Text.ofNat n.natAbs) := by
      rw [← List.append_nil (Text.ofNat n.natAbs)]
      exact Text.unsigned_of_isDigits digits
    have sign : Text.sign (Text.ofInt n) = (false, Text.ofNat n.natAbs) := by
      rw [Text.ofInt_of_nonneg nonneg, Text.sign_of_unsigned unsigned]
    simp [read?, sign, split, numeral, Int.not_lt.2 nonneg]

theorem value_ofInt (n : Int) :
    value ⟨decide (n < 0), 10, Text.ofNat n.natAbs⟩ = n := by
  simp only [value, Text.value_ofNat, decide_eq_true_eq]
  split <;> omega

/-- What stands before the digits of a literal, with the radix that it selects. -/
inductive RadixMark : Text → Nat → Prop where
  | decimal : RadixMark [] 10
  | hexadecimal {letter : CodePoint}
      (isLetter : letter = CodePoint.ofChar 'x' ∨ letter = CodePoint.ofChar 'X') :
      RadixMark [CodePoint.ofChar '0', letter] 16
  | binary {letter : CodePoint}
      (isLetter : letter = CodePoint.ofChar 'b' ∨ letter = CodePoint.ofChar 'B') :
      RadixMark [CodePoint.ofChar '0', letter] 2
  | octal {letter : CodePoint}
      (isLetter : letter = CodePoint.ofChar 'o' ∨ letter = CodePoint.ofChar 'O') :
      RadixMark [CodePoint.ofChar '0', letter] 8

theorem RadixMark.le_sixteen {mark : Text} {radix : Nat} (isMark : RadixMark mark radix) :
    radix ≤ 16 := by
  cases isMark <;> decide

theorem RadixMark.eq_nil {mark : Text} (isMark : RadixMark mark 10) : mark = [] := by
  cases isMark
  rfl

theorem radixOf?_eq_some_iff {letter : CodePoint} {radix : Nat} :
    radixOf? letter = some radix ↔ RadixMark [CodePoint.ofChar '0', letter] radix := by
  constructor
  · intro found
    simp only [radixOf?] at found
    split_ifs at found with hexadecimal binary octal
    · cases found
      exact .hexadecimal hexadecimal
    · cases found
      exact .binary binary
    · cases found
      exact .octal octal
  · intro isMark
    cases isMark with
    | hexadecimal isLetter => rcases isLetter with rfl | rfl <;> rfl
    | binary isLetter => rcases isLetter with rfl | rfl <;> rfl
    | octal isLetter => rcases isLetter with rfl | rfl <;> rfl

/-- Every text is digits behind the mark of a radix, as far as it is cut there. -/
theorem exists_mark (s : Text) : ∃ mark, s = mark ++ (split s).2 ∧ RadixMark mark (split s).1 := by
  fun_cases split s with
  | case1 => exact ⟨[], rfl, .decimal⟩
  | case2 c => exact ⟨[], rfl, .decimal⟩
  | case3 letter digits radix found => exact ⟨_, rfl, radixOf?_eq_some_iff.1 found⟩
  | case4 letter digits none_ => exact ⟨[], rfl, .decimal⟩
  | case5 c d digits other => exact ⟨[], rfl, .decimal⟩

theorem split_append {mark digits : Text} {radix : Nat} (isMark : RadixMark mark radix)
    (numeral : digits.isNumeral radix = true) : split (mark ++ digits) = (radix, digits) := by
  have selected {letter : CodePoint} (found : RadixMark [CodePoint.ofChar '0', letter] radix) :
      split ([CodePoint.ofChar '0', letter] ++ digits) = (radix, digits) := by
    rw [List.cons_append, List.singleton_append, split, if_pos rfl,
      radixOf?_eq_some_iff.2 found]
  cases isMark with
  | decimal => exact split_of_digits (Text.isNumeral_ten_iff_isDigits.1 numeral).2
  | hexadecimal isLetter => exact selected (.hexadecimal isLetter)
  | binary isLetter => exact selected (.binary isLetter)
  | octal isLetter => exact selected (.octal isLetter)

theorem unsigned_of_mark {mark digits : Text} {radix : Nat} (isMark : RadixMark mark radix)
    (numeral : digits.isNumeral radix = true) : Text.Unsigned (mark ++ digits) := by
  have zero (letter : CodePoint) :
      Text.Unsigned ([CodePoint.ofChar '0', letter] ++ digits) := by
    rintro c ⟨⟩
    decide
  cases isMark with
  | decimal =>
      rw [List.nil_append, ← List.append_nil digits]
      exact Text.unsigned_of_isDigits (Text.isNumeral_ten_iff_isDigits.1 numeral)
  | hexadecimal | binary | octal => exact zero _

/-- **A literal is a sign, the mark of a radix and digits of that radix.** -/
theorem read?_eq_some_iff {s digits : Text} {negative : Bool} {radix : Nat} :
    read? s = some ⟨negative, radix, digits⟩ ↔
      ∃ sign mark, s = sign ++ (mark ++ digits) ∧ IsSign sign ∧ RadixMark mark radix ∧
        digits.isNumeral radix = true ∧ (negative = true ↔ sign = [CodePoint.ofChar '-']) := by
  constructor
  · intro read
    simp only [read?, Option.ite_none_right_eq_some, Option.some.injEq, mk.injEq] at read
    obtain ⟨numeral, rfl, rfl, rfl⟩ := read
    obtain ⟨sign, whole, isSign, minus⟩ := Text.exists_sign s
    obtain ⟨mark, body, isMark⟩ := exists_mark s.sign.2
    exact ⟨sign, mark, by rw [← body]; exact whole, isSign, isMark, numeral, minus⟩
  · rintro ⟨sign, mark, rfl, isSign, isMark, numeral, minus⟩
    simp only [read?, Text.sign_append isSign (unsigned_of_mark isMark numeral),
      split_append isMark numeral, numeral, if_true, Option.some.injEq, mk.injEq, and_true]
    rw [Bool.eq_iff_iff, decide_eq_true_eq, minus]

/-- **A decimal literal is a sign and decimal digits.** -/
theorem decimal_iff {s digits : Text} :
    (∃ negative, read? s = some ⟨negative, 10, digits⟩) ↔
      ∃ mark, s = mark ++ digits ∧ IsSign mark ∧ IsDigits digits := by
  simp only [read?_eq_some_iff, Text.isNumeral_ten_iff_isDigits]
  constructor
  · rintro ⟨negative, sign, mark, rfl, isSign, isMark, run, -⟩
    rw [isMark.eq_nil]
    exact ⟨sign, rfl, isSign, run⟩
  · rintro ⟨sign, rfl, isSign, run⟩
    exact ⟨decide (sign = [CodePoint.ofChar '-']), sign, [], rfl, isSign, .decimal, run,
      decide_eq_true_iff⟩

end IntegerLiteral

/-- Every number of an integer type has few digits. -/
theorem IntegerType.length_ofNat_le {type : IntegerType} {n : Int} (low : type.least ≤ n)
    (high : n ≤ type.greatest) : (Text.ofNat n.natAbs).length ≤ 20 := by
  rw [Text.length_ofNat_le_iff (by decide)]
  cases type <;> simp only [least, greatest] at low high <;> omega

namespace Value

/-- How a text is read as an integer. -/
inductive IntegerReading (type : IntegerType) (text : Text) : Outcome Text → Prop where
  | unreadable (read : IntegerLiteral.read? text.trim = none) :
      IntegerReading type text (.refuse text type.asField none)
  | long {literal : IntegerLiteral} (read : IntegerLiteral.read? text.trim = some literal)
      (long : literal.radix = 10 ∧ maximalDigits < literal.digits.length) :
      IntegerReading type text (.abort .longInteger)
  | inRange {literal : IntegerLiteral} (read : IntegerLiteral.read? text.trim = some literal)
      (short : ¬ (literal.radix = 10 ∧ maximalDigits < literal.digits.length))
      (inside : type.contains literal.value = true) :
      IntegerReading type text (.ok (Text.ofInt literal.value))
  | outOfRange {literal : IntegerLiteral} (read : IntegerLiteral.read? text.trim = some literal)
      (short : ¬ (literal.radix = 10 ∧ maximalDigits < literal.digits.length))
      (outside : ¬ type.contains literal.value = true) :
      IntegerReading type text (.refuse text type.asField (some (.outOfRange type)))

/-- **An integer is read in one of these ways.** -/
theorem integer_reading (type : IntegerType) (text : Text) :
    IntegerReading type text (integer type text) := by
  rw [integer]
  cases read : IntegerLiteral.read? text.trim with
  | none => exact .unreadable read
  | some literal =>
      simp only
      split
      case isTrue long => exact .long read long
      case isFalse short =>
        split
        case isTrue inside => exact .inRange read short inside
        case isFalse outside => exact .outOfRange read short outside

end Value

end RosInterface
