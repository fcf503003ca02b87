/-
# RosInterface.Proofs.Value.IntegerLiteral -- the integer that a literal denotes

What a literal denotes is said without its reader.  A digit is worth its place among the sixteen
digits, in either letter case (`CodePoint.IsDigitFor`); a run of digits spells a number in a radix
by their powers (`Text.SpellsNumber`, which leaves the arithmetic to `Nat.ofDigits`); and a literal
is a sign, the mark of a radix and such a run (`IntegerText`).

`Value.integer_denotes` is the result.  Short of the limit on decimal digits a text is read exactly
where it is a literal for an integer in the range of the type, and as the decimal text of that
integer; every other text is refused.  So the spelling of a literal leaves no trace in what it is
read as, and reading the canonical text of an integer changes nothing.
-/
import RosInterface.Proofs.Value.Limits
import RosInterface.Proofs.Value.ReadBack
import Mathlib.Data.Nat.Digits.Defs

set_option autoImplicit false

namespace RosInterface

/-! ## Digits -/

namespace CodePoint

/-- The code point is the digit for a number: an Arabic digit, or from ten on a letter in either
case. -/
inductive IsDigitFor : CodePoint → Nat → Prop where
  | arabic {c : CodePoint} {n : Nat} (small : n < 10) (place : c.val = 0x30 + n) : IsDigitFor c n
  | lower {c : CodePoint} {n : Nat} (small : n < 6) (place : c.val = 0x61 + n) :
      IsDigitFor c (10 + n)
  | upper {c : CodePoint} {n : Nat} (small : n < 6) (place : c.val = 0x41 + n) :
      IsDigitFor c (10 + n)

theorem digit?_eq_some_iff {radix n : Nat} {c : CodePoint} (known : radix ≤ 16) :
    c.digit? radix = some n ↔ c.IsDigitFor n ∧ n < radix := by
  constructor
  · intro read
    refine ⟨?_, digit?_lt read⟩
    simp only [digit?, Option.ite_none_right_eq_some, Option.some.injEq, isDigit,
      Bool.and_eq_true, decide_eq_true_eq] at read
    obtain ⟨below, rfl⟩ := read
    split_ifs at below ⊢ with digit lower upper
    · exact .arabic (by omega) (by omega)
    · rw [Nat.add_comm]
      exact .lower (by omega) (by omega)
    · rw [Nat.add_comm]
      exact .upper (by omega) (by omega)
    · omega
  · rintro ⟨isDigit, below⟩
    have worth (value : Nat) (same : value = n) :
        (if value < radix then some value else none) = some n := by
      rw [if_pos (same ▸ below), same]
    simp only [digit?, CodePoint.isDigit, Bool.and_eq_true, decide_eq_true_eq]
    refine worth _ ?_
    cases isDigit with
    | arabic small place =>
        rw [if_pos (by omega)]
        omega
    | lower small place =>
        rw [if_neg (by omega), if_pos (by omega)]
        omega
    | upper small place =>
        rw [if_neg (by omega), if_neg (by omega), if_pos (by omega)]
        omega

end CodePoint

namespace Text

/-- The run spells the number in the radix, most significant digit first. -/
def SpellsNumber (radix : Nat) (run : Text) (n : Nat) : Prop :=
  run ≠ [] ∧ ∃ digits, List.Forall₂ (fun c d => CodePoint.IsDigitFor c d ∧ d < radix) run digits ∧
    n = Nat.ofDigits radix digits.reverse

/-- The value of a run is the number that its digits make up, the last one the least. -/
theorem value_reverse {radix : Nat} {run : Text} {digits : List Nat}
    (read : List.Forall₂ (fun c d => c.digit? radix = some d) run digits) :
    value radix run.reverse = Nat.ofDigits radix digits := by
  induction read with
  | nil => rfl
  | cons first _ ih =>
      rw [List.reverse_cons, value_concat, ih, first, Option.getD_some, Nat.ofDigits_cons]
      exact (Nat.add_comm _ _).trans (congrArg _ (Nat.mul_comm _ _))

/-- A numeral is what every code point is a digit of. -/
theorem isNumeral_iff_exists {radix : Nat} {run : Text} :
    run.isNumeral radix = true ↔
      run ≠ [] ∧ ∃ digits, List.Forall₂ (fun c d => c.digit? radix = some d) run digits := by
  simp only [isNumeral, Bool.and_eq_true, Bool.not_eq_true', List.isEmpty_eq_false_iff,
    List.all_eq_true, CodePoint.isDigitOf, Option.isSome_iff_exists]
  refine and_congr_right' ?_
  induction run with
  | nil => exact iff_of_true (fun _ member => absurd member List.not_mem_nil) ⟨[], .nil⟩
  | cons c rest ih =>
      rw [List.forall_mem_cons, ih]
      constructor
      · rintro ⟨⟨d, first⟩, digits, others⟩
        exact ⟨d :: digits, .cons first others⟩
      · rintro ⟨_, _ | ⟨first, others⟩⟩
        exact ⟨⟨_, first⟩, _, others⟩

theorem spellsNumber_iff {radix n : Nat} {run : Text} (known : radix ≤ 16) :
    run.SpellsNumber radix n ↔ run.isNumeral radix = true ∧ run.value radix = n := by
  simp only [SpellsNumber, ← CodePoint.digit?_eq_some_iff known]
  rw [isNumeral_iff_exists, and_assoc]
  refine and_congr_right fun _ => ?_
  have valued {digits : List Nat}
      (read : List.Forall₂ (fun c d => c.digit? radix = some d) run digits) :
      run.value radix = Nat.ofDigits radix digits.reverse := by
    rw [← value_reverse (List.rel_reverse read), List.reverse_reverse]
  constructor
  · rintro ⟨digits, read, rfl⟩
    exact ⟨⟨digits, read⟩, valued read⟩
  · rintro ⟨⟨digits, read⟩, rfl⟩
    exact ⟨digits, read, valued read⟩

end Text

/-! ## Literals -/

/-- The text is a literal for the integer: a sign, the mark of a radix and digits of that radix. -/
def IntegerText (s : Text) (n : Int) : Prop :=
  ∃ sign mark run radix magnitude, s = sign ++ (mark ++ run) ∧ IsSign sign ∧
    IntegerLiteral.RadixMark mark radix ∧ run.SpellsNumber radix magnitude ∧
    n = if sign = [CodePoint.ofChar '-'] then -(magnitude : Int) else magnitude

theorem LongDecimal.lt_length {s : Text} (long : LongDecimal s) : maximalDigits < s.length := by
  obtain ⟨mark, digits, rfl, -, -, many⟩ := long
  rw [List.length_append]
  omega

/-- A literal denotes what its reader says. -/
theorem integerText_iff {s : Text} {n : Int} :
    IntegerText s n ↔ ∃ literal, IntegerLiteral.read? s = some literal ∧ literal.value = n := by
  constructor
  · rintro ⟨sign, mark, run, radix, magnitude, whole, isSign, isMark, spells, rfl⟩
    obtain ⟨numeral, rfl⟩ := (Text.spellsNumber_iff isMark.le_sixteen).1 spells
    refine ⟨_, IntegerLiteral.read?_eq_some_iff.2
      ⟨sign, mark, whole, isSign, isMark, numeral, decide_eq_true_iff⟩, ?_⟩
    simp only [IntegerLiteral.value, decide_eq_true_eq]
  · rintro ⟨⟨negative, radix, run⟩, read, rfl⟩
    obtain ⟨sign, mark, whole, isSign, isMark, numeral, minus⟩ :=
      IntegerLiteral.read?_eq_some_iff.1 read
    refine ⟨sign, mark, run, radix, _, whole, isSign, isMark,
      (Text.spellsNumber_iff isMark.le_sixteen).2 ⟨numeral, rfl⟩, ?_⟩
    simp only [IntegerLiteral.value, minus]

/-- A text is a literal for one integer at most. -/
theorem IntegerText.unique {s : Text} {m n : Int} (first : IntegerText s m)
    (second : IntegerText s n) : m = n := by
  obtain ⟨literal, read, rfl⟩ := integerText_iff.1 first
  obtain ⟨other, readToo, rfl⟩ := integerText_iff.1 second
  rw [read] at readToo
  cases readToo
  rfl

/-! ## Reading -/

/-- A literal for an integer of a type. -/
def IntegerType.Denoted (type : IntegerType) (s : Text) (n : Int) : Prop :=
  IntegerText s n ∧ type.least ≤ n ∧ n ≤ type.greatest

namespace Value

variable {type : IntegerType} {text : Text}

theorem contains_iff {n : Int} :
    type.contains n = true ↔ type.least ≤ n ∧ n ≤ type.greatest := by
  simp [IntegerType.contains]

/-- What is read as an integer is a literal for an integer of the type. -/
theorem denoted_of_integer {canonical : Text} (read : integer type text = .ok canonical) :
    ∃ n, type.Denoted text.trim n ∧ canonical = Text.ofInt n := by
  have reading := integer_reading type text
  rw [read] at reading
  cases reading with
  | inRange found _ inside =>
      exact ⟨_, ⟨integerText_iff.2 ⟨_, found, rfl⟩, contains_iff.1 inside⟩, rfl⟩

/-- Short of the limit on digits every literal for an integer of the type is read. -/
theorem integer_of_denoted {n : Int} (short : ¬ LongDecimal text.trim)
    (denoted : type.Denoted text.trim n) : integer type text = .ok (Text.ofInt n) := by
  obtain ⟨isText, inside⟩ := denoted
  obtain ⟨literal, found, rfl⟩ := integerText_iff.1 isText
  have reading := integer_reading type text
  generalize integer type text = outcome at reading ⊢
  cases reading with
  | unreadable none_ =>
      rw [found] at none_
      cases none_
  | long same long => exact absurd (longDecimal_iff.2 ⟨_, same, long⟩) short
  | inRange same =>
      rw [found] at same
      cases same
      rfl
  | outOfRange same _ outside =>
      rw [found] at same
      cases same
      exact absurd (contains_iff.2 inside) outside

/-- Short of the limit on digits every other text is refused. -/
theorem integer_of_not_denoted (short : ¬ LongDecimal text.trim)
    (other : ¬ ∃ n, type.Denoted text.trim n) :
    ∃ detail, integer type text = .refuse text type.asField detail := by
  have reading := integer_reading type text
  generalize integer type text = outcome at reading ⊢
  cases reading with
  | unreadable => exact ⟨_, rfl⟩
  | long found long => exact absurd (longDecimal_iff.2 ⟨_, found, long⟩) short
  | inRange found _ inside =>
      exact absurd ⟨_, integerText_iff.2 ⟨_, found, rfl⟩, contains_iff.1 inside⟩ other
  | outOfRange => exact ⟨_, rfl⟩

/-- Literals for one integer are read alike. -/
theorem integer_of_same {other canonical : Text} {n : Int} (short : ¬ LongDecimal other.trim)
    (first : IntegerText text.trim n) (second : IntegerText other.trim n)
    (read : integer type text = .ok canonical) : integer type other = .ok canonical := by
  obtain ⟨m, denoted, rfl⟩ := denoted_of_integer read
  cases denoted.1.unique first
  exact integer_of_denoted short ⟨second, denoted.2⟩

/-- Reading the decimal text of an integer of the type changes nothing. -/
theorem integer_ofInt {n : Int} (inside : type.least ≤ n ∧ n ≤ type.greatest) :
    integer type (Text.ofInt n) = .ok (Text.ofInt n) :=
  have canonical : (Primitive.basic (.integer type)).Canonical (Text.ofInt n) := ⟨n, rfl, inside⟩
  primitive_shown canonical

/-- **A literal is read exactly as the integer that it denotes**, where that lies in the range of
the type, and every other text is refused, up to the limit on the digits of a decimal literal.  So
two literals for one integer are read alike, and canonical texts are read as they are. -/
theorem integer_denotes (type : IntegerType) :
    (∀ text, ¬ LongDecimal text.trim →
      (∀ canonical, integer type text = .ok canonical ↔
        ∃ n, type.Denoted text.trim n ∧ canonical = Text.ofInt n) ∧
      ((¬ ∃ n, type.Denoted text.trim n) →
        ∃ detail, integer type text = .refuse text type.asField detail)) ∧
    (∀ text other n, ¬ LongDecimal text.trim → ¬ LongDecimal other.trim →
      IntegerText text.trim n → IntegerText other.trim n →
      ∀ canonical, integer type text = .ok canonical ↔ integer type other = .ok canonical) ∧
    ∀ text canonical, integer type text = .ok canonical →
      integer type canonical = .ok canonical := by
  refine ⟨fun text short => ⟨fun canonical => ⟨denoted_of_integer, ?_⟩,
    integer_of_not_denoted short⟩, fun text other n short shortToo first second canonical => ?_,
    fun text canonical read => ?_⟩
  · rintro ⟨n, denoted, rfl⟩
    exact integer_of_denoted short denoted
  · exact ⟨integer_of_same shortToo first second, integer_of_same short second first⟩
  · obtain ⟨n, denoted, rfl⟩ := denoted_of_integer read
    exact integer_ofInt denoted.2

/-- A hexadecimal literal within white space and a decimal one with leading zeros are both for -128
and both read; 128 is past the range. -/
theorem integer_denotes_octet :
    IntegerText (Text.trim " -0X80\n") (-128) ∧ IntegerText (Text.trim "-00128") (-128) ∧
      integer .int8 " -0X80\n" = .ok "-128" ∧ integer .int8 "-00128" = .ok "-128" ∧
      integer .int8 "-128" = .ok "-128" ∧
      ∃ detail, integer .int8 "128" = .refuse "128" (IntegerType.asField .int8) detail := by
  have short {s : Text} (few : s.length ≤ maximalDigits) : ¬ LongDecimal s := fun long =>
    absurd (few.trans_lt long.lt_length) (Nat.lt_irrefl _)
  have hexadecimal : IntegerText (Text.trim " -0X80\n") (-128) :=
    integerText_iff.2 ⟨⟨true, 16, "80"⟩, by decide, by decide⟩
  have decimal : IntegerText (Text.trim "-00128") (-128) :=
    integerText_iff.2 ⟨⟨true, 10, "00128"⟩, by decide, by decide⟩
  have past : IntegerText (Text.trim "128") 128 :=
    integerText_iff.2 ⟨⟨false, 10, "128"⟩, by decide, by decide⟩
  obtain ⟨reads, alike, settled⟩ := integer_denotes .int8
  have read : integer .int8 " -0X80\n" = .ok "-128" :=
    ((reads _ (short (by decide))).1 _).2 ⟨_, ⟨hexadecimal, by decide⟩, by decide⟩
  refine ⟨hexadecimal, decimal, read, ?_, settled _ _ read, ?_⟩
  · exact (alike _ _ _ (short (by decide)) (short (by decide)) hexadecimal decimal _).1 read
  · refine (reads _ (short (by decide))).2 ?_
    rintro ⟨n, isText, inside⟩
    cases past.unique isText
    exact absurd inside (by decide)

end Value

end RosInterface
