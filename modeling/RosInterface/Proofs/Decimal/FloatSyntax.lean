/-
# RosInterface.Proofs.Decimal.FloatSyntax -- what is spelled as a float

`FloatText` is the syntax of a float literal, said without the reader: a sign, a
mantissa with at most one point in it, and a power of ten that may be missing.  So it is
made of digits and a few marks (`FloatText.inFloat`).  `Scientific.read?_isSome_iff` says
that the reader takes exactly these texts.
-/
import RosInterface.Decimal.Scientific
import RosInterface.Proofs.Text.Numeral

set_option autoImplicit false

namespace RosInterface

/-- A run of decimal digits, at least one. -/
def IsDigits (s : Text) : Prop := s ≠ [] ∧ ∀ c ∈ s, c.isDigit = true

/-- A sign, or none. -/
def IsSign (s : Text) : Prop :=
  s = [] ∨ s = [CodePoint.ofChar '+'] ∨ s = [CodePoint.ofChar '-']

/-- Digits with at most one point among them. -/
inductive MantissaText : Text → Prop where
  | whole {digits : Text} (run : IsDigits digits) : MantissaText digits
  | pointed {digits fraction : Text} (run : IsDigits digits)
      (inside : ∀ c ∈ fraction, c.isDigit = true) :
      MantissaText (digits ++ CodePoint.ofChar '.' :: fraction)
  | fraction {digits : Text} (run : IsDigits digits) :
      MantissaText (CodePoint.ofChar '.' :: digits)

/-- A power of ten, or nothing. -/
inductive ExponentText : Text → Prop where
  | absent : ExponentText []
  | power {mark : CodePoint} {sign digits : Text}
      (isMark : mark = CodePoint.ofChar 'e' ∨ mark = CodePoint.ofChar 'E') (isSign : IsSign sign)
      (run : IsDigits digits) : ExponentText (mark :: (sign ++ digits))

/-- The syntax of a float literal. -/
def FloatText (s : Text) : Prop :=
  ∃ sign mantissa exponent, s = sign ++ (mantissa ++ exponent) ∧ IsSign sign ∧
    MantissaText mantissa ∧ ExponentText exponent

/-! ## What a float literal is made of -/

/-- The marks that may stand among the digits of a float literal. -/
def floatMarks : Text := "+-.eE"

/-- A digit or a mark. -/
def CodePoint.InFloat (c : CodePoint) : Prop := c.isDigit = true ∨ c ∈ floatMarks

open CodePoint (InFloat)

theorem IsSign.inFloat {mark : Text} (isSign : IsSign mark) : ∀ c ∈ mark, InFloat c := by
  intro c member
  rcases isSign with rfl | rfl | rfl
  · cases member
  all_goals
    rw [List.mem_singleton.1 member]
    exact .inr (by decide)

theorem MantissaText.inFloat {mantissa : Text} (isMantissa : MantissaText mantissa) :
    mantissa ≠ [] ∧ ∀ c ∈ mantissa, InFloat c := by
  have point : InFloat (CodePoint.ofChar '.') := .inr (by decide)
  cases isMantissa with
  | whole run => exact ⟨run.1, fun c member => .inl (run.2 c member)⟩
  | pointed run inside =>
      refine ⟨by simp, fun c member => ?_⟩
      simp only [List.mem_append, List.mem_cons] at member
      rcases member with inDigits | rfl | inFraction
      · exact .inl (run.2 c inDigits)
      · exact point
      · exact .inl (inside c inFraction)
  | fraction run =>
      refine ⟨List.cons_ne_nil _ _, fun c member => ?_⟩
      rcases List.mem_cons.1 member with rfl | inDigits
      · exact point
      · exact .inl (run.2 c inDigits)

theorem ExponentText.inFloat {exponent : Text} (isExponent : ExponentText exponent) :
    ∀ c ∈ exponent, InFloat c := by
  intro c member
  cases isExponent with
  | absent => cases member
  | power isMark isSign run =>
      simp only [List.mem_cons, List.mem_append] at member
      rcases member with rfl | inSign | inDigits
      · rcases isMark with rfl | rfl <;> exact .inr (by decide)
      · exact isSign.inFloat c inSign
      · exact .inl (run.2 c inDigits)

theorem FloatText.inFloat {s : Text} (isFloat : FloatText s) :
    s ≠ [] ∧ ∀ c ∈ s, InFloat c := by
  obtain ⟨sign, mantissa, exponent, rfl, isSign, isMantissa, isExponent⟩ := isFloat
  obtain ⟨nonempty, inside⟩ := isMantissa.inFloat
  refine ⟨by simp [nonempty], fun c member => ?_⟩
  simp only [List.mem_append] at member
  rcases member with inSign | inMantissa | inExponent
  · exact isSign.inFloat c inSign
  · exact inside c inMantissa
  · exact isExponent.inFloat c inExponent

namespace Text

theorem isNumeral_ten_iff_isDigits {s : Text} : s.isNumeral 10 = true ↔ IsDigits s :=
  isNumeral_ten_iff

/-! ## Signs -/

/-- What a text begins with when no sign stands before it. -/
def Unsigned (s : Text) : Prop :=
  ∀ c, s.head? = some c → c ≠ CodePoint.ofChar '-' ∧ c ≠ CodePoint.ofChar '+'

theorem exists_sign (s : Text) :
    ∃ mark, s = mark ++ s.sign.2 ∧ IsSign mark ∧
      (s.sign.1 = true ↔ mark = [CodePoint.ofChar '-']) := by
  cases s with
  | nil => exact ⟨[], rfl, .inl rfl, by simp [sign]⟩
  | cons c rest =>
      by_cases minus : c = CodePoint.ofChar '-'
      · exact ⟨[c], by simp [sign, minus], .inr (.inr (by rw [minus])), by simp [sign, minus]⟩
      · by_cases plus : c = CodePoint.ofChar '+'
        · refine ⟨[c], by simp [sign, plus], .inr (.inl (by rw [plus])), ?_⟩
          simp [sign, plus]
        · exact ⟨[], by simp [sign, minus, plus], .inl rfl, by simp [sign, minus, plus]⟩

theorem sign_of_unsigned {s : Text} (bare : Unsigned s) : s.sign = (false, s) := by
  cases s with
  | nil => rfl
  | cons c rest =>
      obtain ⟨minus, plus⟩ := bare c rfl
      simp [sign, minus, plus]

theorem sign_append {mark s : Text} (isSign : IsSign mark) (bare : Unsigned s) :
    (mark ++ s).sign = (decide (mark = [CodePoint.ofChar '-']), s) := by
  rcases isSign with rfl | rfl | rfl
  · simp [sign_of_unsigned bare]
  · simp [sign]
  · simp [sign]

theorem unsigned_of_isDigits {digits rest : Text} (run : IsDigits digits) :
    Unsigned (digits ++ rest) := by
  intro c first
  rw [List.head?_append_of_ne_nil _ run.1] at first
  have digit := run.2 c (List.mem_of_head? first)
  constructor <;> (rintro rfl; exact absurd digit (by decide))

end Text

namespace Scientific

theorem stops_isDigit_of_exponentText {s : Text} (exponent : ExponentText s) :
    Text.Stops CodePoint.isDigit s := by
  cases exponent with
  | absent => exact Text.stops_nil _
  | power isMark => rcases isMark with rfl | rfl <;> exact Text.stops_cons.2 (by decide)

theorem power?_isSome_iff {s : Text} : (power? s).isSome = true ↔ ExponentText s := by
  constructor
  · intro read
    cases s with
    | nil => exact .absent
    | cons mark rest =>
        obtain ⟨sign, whole, isSign, -⟩ := Text.exists_sign rest
        by_cases isMark : mark = CodePoint.ofChar 'e' ∨ mark = CodePoint.ofChar 'E'
        · by_cases numeral : (Text.sign rest).2.isNumeral 10 = true
          · rw [whole]
            exact .power isMark isSign (Text.isNumeral_ten_iff_isDigits.1 numeral)
          · simp [power?, isMark, numeral] at read
        · simp [power?, isMark] at read
  · intro exponent
    cases exponent with
    | absent => rfl
    | power isMark isSign run =>
        have unsigned : Text.Unsigned (_ ++ []) := Text.unsigned_of_isDigits run
        have signed := Text.sign_append isSign unsigned
        rw [List.append_nil] at signed
        simp [power?, isMark, signed, Text.isNumeral_ten_iff_isDigits.2 run]

/-- The reader after the sign. -/
theorem mantissa_exponent_of_read {s : Text} (read : (read? s).isSome = true) :
    ∃ mantissa exponent, s.sign.2 = mantissa ++ exponent ∧ MantissaText mantissa ∧
      ExponentText exponent := by
  obtain ⟨whole, split, inWhole⟩ := Text.exists_run CodePoint.isDigit s.sign.2
  have isRun : s.sign.2.takeWhile (·.isDigit) = whole := by
    have := Text.takeWhile_append_stop inWhole (Text.stops_dropWhile CodePoint.isDigit s.sign.2)
    rwa [← split] at this
  simp only [read?, digitRun, isRun] at read
  cases tail : s.sign.2.dropWhile (·.isDigit) with
  | nil =>
      rw [tail] at read split
      simp only [fractionRun, List.isEmpty_nil, Bool.and_true] at read
      split_ifs at read with empty
      · cases read
      · refine ⟨whole, [], split, .whole ⟨?_, inWhole⟩, .absent⟩
        simpa using empty
  | cons c rest =>
      rw [tail] at read split
      by_cases point : c = CodePoint.ofChar '.'
      · simp only [fractionRun, point, if_true, digitRun] at read
        split_ifs at read with empty
        · cases read
        · rw [Option.isSome_map] at read
          have fraction : ∀ d ∈ rest.takeWhile (·.isDigit), d.isDigit = true :=
            fun _ => List.mem_takeWhile_imp
          have joined : s.sign.2 = (whole ++ CodePoint.ofChar '.' :: rest.takeWhile (·.isDigit)) ++
              rest.dropWhile (·.isDigit) := by
            rw [split, point, List.append_assoc, List.cons_append,
              List.takeWhile_append_dropWhile]
          refine ⟨_, _, joined, ?_, power?_isSome_iff.1 read⟩
          by_cases none_ : whole = []
          · rw [none_]
            refine .fraction ⟨?_, fraction⟩
            simpa [none_] using empty
          · exact .pointed ⟨none_, inWhole⟩ fraction
      · simp only [fractionRun, point, if_false, List.isEmpty_nil, Bool.and_true] at read
        split_ifs at read with empty
        · cases read
        · rw [Option.isSome_map] at read
          refine ⟨whole, c :: rest, split, .whole ⟨?_, inWhole⟩, power?_isSome_iff.1 read⟩
          simpa using empty

theorem unsigned_of_mantissaText {mantissa rest : Text} (isMantissa : MantissaText mantissa) :
    Text.Unsigned (mantissa ++ rest) := by
  cases isMantissa with
  | whole run => exact Text.unsigned_of_isDigits run
  | pointed run =>
      rw [List.append_assoc]
      exact Text.unsigned_of_isDigits run
  | fraction =>
      intro c first
      cases first
      constructor <;> decide

theorem stops_isDigit_point (rest : Text) :
    Text.Stops CodePoint.isDigit (CodePoint.ofChar '.' :: rest) :=
  Text.stops_cons.2 (by decide)

/-- **The reader takes exactly the float syntax.** -/
theorem read?_isSome_iff {s : Text} : (read? s).isSome = true ↔ FloatText s := by
  constructor
  · intro read
    obtain ⟨sign, whole, isSign, -⟩ := Text.exists_sign s
    obtain ⟨mantissa, exponent, split, isMantissa, isExponent⟩ := mantissa_exponent_of_read read
    exact ⟨sign, mantissa, exponent, by rw [← split]; exact whole, isSign, isMantissa, isExponent⟩
  · rintro ⟨sign, mantissa, exponent, rfl, isSign, isMantissa, isExponent⟩
    have stops := stops_isDigit_of_exponentText isExponent
    have power := power?_isSome_iff.2 isExponent
    rw [read?, Text.sign_append isSign (unsigned_of_mantissaText isMantissa)]
    cases isMantissa with
    | whole run =>
        have unpointed : fractionRun exponent = ([], exponent) := by
          cases isExponent with
          | absent => rfl
          | power isMark => rcases isMark with rfl | rfl <;> rfl
        simp only [digitRun, Text.takeWhile_append_stop run.2 stops,
          Text.dropWhile_append_stop run.2 stops, unpointed]
        simp [run.1, power]
    | pointed run inside =>
        simp only [digitRun, List.append_assoc, List.cons_append,
          Text.takeWhile_append_stop run.2 (stops_isDigit_point _),
          Text.dropWhile_append_stop run.2 (stops_isDigit_point _)]
        simp [fractionRun, digitRun, run.1, Text.dropWhile_append_stop inside stops, power]
    | @fraction digits run =>
        have stopped := stops_isDigit_point (digits ++ exponent)
        simp only [digitRun, List.cons_append, Text.takeWhile_of_stops stopped,
          Text.dropWhile_of_stops stopped]
        simp [fractionRun, digitRun, Text.takeWhile_append_stop run.2 stops, run.1,
          Text.dropWhile_append_stop run.2 stops, power]

end Scientific

end RosInterface
