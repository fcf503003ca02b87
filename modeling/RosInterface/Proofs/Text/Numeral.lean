/-
# RosInterface.Proofs.Text.Numeral -- numbers and the digits that spell them

`Text.value` reads a digit run in any radix.  Two writers are read back by it: the
decimal text of a number (`value_ofNat`) and the last digits of a number in
hexadecimal (`value_hex`).  `length_ofNat_le_iff` counts the digits of a decimal
text, which is how the limit on the size of a number is met; `value_lt_pow` is the
same count for a run with leading zeros.
-/
import RosInterface.Text.Quoted
import RosInterface.Proofs.Text.Run
import Mathlib.Tactic.IntervalCases

set_option autoImplicit false

namespace RosInterface

namespace CodePoint

theorem digit?_lt {radix n : Nat} {c : CodePoint} (read : c.digit? radix = some n) : n < radix := by
  simp only [digit?, Option.ite_none_right_eq_some, Option.some.injEq] at read
  obtain ⟨small, rfl⟩ := read
  exact small

theorem getD_digit?_lt {radix : Nat} (positive : 0 < radix) (c : CodePoint) :
    (c.digit? radix).getD 0 < radix := by
  cases read : c.digit? radix with
  | none => exact positive
  | some n => exact digit?_lt read

/-- The decimal digits are one class under two names. -/
theorem isDigitOf_ten (c : CodePoint) : c.isDigitOf 10 = c.isDigit := by
  by_cases digit : c.isDigit = true
  · have bounds := isDigit_iff.1 digit
    simp [isDigitOf, digit?, digit]
    omega
  · rw [Bool.not_eq_true] at digit
    simp only [isDigitOf, digit?, digit, Bool.false_eq_true, if_false]
    rw [if_neg]
    · rfl
    · split_ifs <;> omega

theorem digit?_digitChar {d : Nat} (small : d < 10) :
    (ofChar d.digitChar).digit? 10 = some d := by
  interval_cases d <;> decide

theorem isDigit_digitChar {d : Nat} (small : d < 10) : (ofChar d.digitChar).isDigit = true := by
  interval_cases d <;> decide

theorem digit?_hexDigit {d : Nat} (small : d < 16) :
    (ofChar (Text.hexDigits.getD d '0')).digit? 16 = some d := by
  interval_cases d <;> decide

end CodePoint

namespace Text

/-! ## Values of digit runs -/

theorem value_concat (radix : Nat) (digits : Text) (c : CodePoint) :
    value radix (digits ++ [c]) = value radix digits * radix + (c.digit? radix).getD 0 := by
  simp [value]

theorem value_lt_pow {radix : Nat} (positive : 0 < radix) (digits : Text) :
    value radix digits < radix ^ digits.length := by
  induction digits using List.reverseRecOn with
  | nil => simp [value]
  | append_singleton digits c ih =>
      have digit := c.getD_digit?_lt positive
      rw [value_concat, List.length_append, List.length_singleton, Nat.pow_succ]
      calc value radix digits * radix + (c.digit? radix).getD 0
          < value radix digits * radix + radix := by omega
        _ = (value radix digits + 1) * radix := by rw [Nat.succ_mul]
        _ ≤ radix ^ digits.length * radix := Nat.mul_le_mul_right _ ih

/-! ## Decimal texts -/

theorem ofNat_of_lt {n : Nat} (small : n < 10) : ofNat n = [CodePoint.ofChar n.digitChar] := by
  rw [ofNat, Nat.toDigits_of_lt_base small]
  rfl

theorem ofNat_of_le {n : Nat} (large : 10 ≤ n) :
    ofNat n = ofNat (n / 10) ++ [CodePoint.ofChar (n % 10).digitChar] := by
  rw [ofNat, Nat.toDigits_of_base_le (by omega) large, List.map_append]
  rfl

theorem ofNat_ne_nil (n : Nat) : ofNat n ≠ [] := by
  simp [ofNat]

theorem length_ofNat_le_iff {n k : Nat} (positive : 0 < k) :
    (ofNat n).length ≤ k ↔ n < 10 ^ k := by
  rw [ofNat, List.length_map]
  exact Nat.length_toDigits_le_iff (by omega) positive

theorem isDigit_of_mem_ofNat {n : Nat} {c : CodePoint} (member : c ∈ ofNat n) :
    c.isDigit = true := by
  induction n using Nat.strong_induction_on with
  | _ n ih =>
    rcases Nat.lt_or_ge n 10 with small | large
    · rw [ofNat_of_lt small, List.mem_singleton] at member
      rw [member]
      exact CodePoint.isDigit_digitChar small
    · rw [ofNat_of_le large, List.mem_append, List.mem_singleton] at member
      rcases member with leading | rfl
      · exact ih (n / 10) (by omega) leading
      · exact CodePoint.isDigit_digitChar (Nat.mod_lt _ (by omega))

/-- **A decimal text spells its number.** -/
theorem value_ofNat (n : Nat) : value 10 (ofNat n) = n := by
  induction n using Nat.strong_induction_on with
  | _ n ih =>
    rcases Nat.lt_or_ge n 10 with small | large
    · rw [ofNat_of_lt small]
      simp [value, CodePoint.digit?_digitChar small]
    · have last : n % 10 < 10 := Nat.mod_lt _ (by omega)
      rw [ofNat_of_le large, value_concat, ih (n / 10) (by omega),
        CodePoint.digit?_digitChar last, Option.getD_some]
      omega

theorem isNumeral_ten_iff {s : Text} :
    s.isNumeral 10 = true ↔ s ≠ [] ∧ ∀ c ∈ s, c.isDigit = true := by
  simp [isNumeral, CodePoint.isDigitOf_ten]

theorem isNumeral_ofNat (n : Nat) : (ofNat n).isNumeral 10 = true :=
  isNumeral_ten_iff.2 ⟨ofNat_ne_nil n, fun _ => isDigit_of_mem_ofNat⟩

theorem ofInt_of_nonneg {n : Int} (nonneg : 0 ≤ n) : ofInt n = ofNat n.natAbs := by
  cases n with
  | ofNat n => rfl
  | negSucc n => omega

theorem ofInt_of_neg {n : Int} (neg : n < 0) :
    ofInt n = CodePoint.ofChar '-' :: ofNat n.natAbs := by
  cases n with
  | ofNat n => exact absurd neg (Int.not_lt.2 (Int.natCast_nonneg n))
  | negSucc n => rfl

/-! ## Hexadecimal texts -/

theorem length_hex (width n : Nat) : (hex width n).length = width := by
  induction width generalizing n with
  | zero => rfl
  | succ width ih => simp [hex, ih]

theorem isDigitOf_of_mem_hex {width n : Nat} {c : CodePoint} (member : c ∈ hex width n) :
    c.isDigitOf 16 = true := by
  induction width generalizing n with
  | zero => cases member
  | succ width ih =>
      rw [hex, List.mem_append, List.mem_singleton] at member
      rcases member with leading | rfl
      · exact ih leading
      · rw [CodePoint.isDigitOf, CodePoint.digit?_hexDigit (Nat.mod_lt _ (by omega))]
        rfl

/-- **The last hexadecimal digits of a number spell it**, as far as they reach. -/
theorem value_hex {width n : Nat} (fits : n < 16 ^ width) : value 16 (hex width n) = n := by
  induction width generalizing n with
  | zero =>
      rw [Nat.pow_zero] at fits
      rw [show n = 0 by omega]
      rfl
  | succ width ih =>
      have rest : n / 16 < 16 ^ width := by
        rw [Nat.pow_succ] at fits
        omega
      rw [hex, value_concat, ih rest, CodePoint.digit?_hexDigit (Nat.mod_lt _ (by omega)),
        Option.getD_some]
      omega

end Text

end RosInterface
