/-
# RosInterface.Decimal.Shortest -- the fewest digits that read back

A double has one decimal text among all that round to it: the one with the
fewest digits, and of those the nearest.  `shortest` finds it by trying one
digit, two digits and so on up to seventeen, which always suffice.  On the grid
of a given number of digits only the two neighbours of the value can be nearest,
so each trial rounds two candidates and keeps those that read back
(`readsBack`).

The digits come as a natural number with a power of ten.  A value that is a
power of ten above all candidates of its size shows as trailing zeros, which
`withoutTrailingZeros` moves into the power.
-/
import RosInterface.Decimal.Binary64

set_option autoImplicit false

namespace RosInterface

namespace Binary64

/-- The magnitude as numerator and denominator. -/
def ratio (x : Binary64) : Nat × Nat := rescale 2 x.significand 1 (-x.exponent)

/-- The least `k` from `k` on with `d ≤ n * 10 ^ k`, within `fuel` steps. -/
def leadingZeros (n d : Nat) : Nat → Nat → Nat
  | 0, k => k
  | fuel + 1, k => if d ≤ n * Nat.pow 10 k then k else leadingZeros n d fuel (k + 1)

/-- The number of digits before the decimal point, negative for zeros after it:
the `p` with `10 ^ (p - 1) ≤ x < 10 ^ p` of a positive `x`.  No double needs more
than 330 leading zeros. -/
def pointPosition (x : Binary64) : Int :=
  let (n, d) := x.ratio
  if d ≤ n then (Nat.toDigits 10 (n / d)).length else 1 - (leadingZeros n d 330 0 : Nat)

def readsBack (x : Binary64) (digits : Nat) (power : Int) : Bool :=
  ofDecimal? digits power == some x

/-- The nearest text of `count` digits, if one reads back. -/
def withDigits? (x : Binary64) (position : Int) (count : Nat) : Option (Nat × Int) :=
  let power := position - count
  let (n, d) := x.ratio
  let (a, b) := rescale 10 n d power
  let below := a / b
  let r := a % b
  match x.readsBack below power, x.readsBack (below + 1) power with
  | true, true =>
      if 2 * r < b ∨ (2 * r = b ∧ below % 2 = 0) then some (below, power)
      else some (below + 1, power)
  | true, false => some (below, power)
  | false, true => some (below + 1, power)
  | false, false => none

/-- Digits and power of ten with no zero at the end of the digits. -/
def withoutTrailingZeros : Nat → Nat → Int → Nat × Int
  | 0, digits, power => (digits, power)
  | fuel + 1, digits, power =>
      if digits % 10 = 0 then withoutTrailingZeros fuel (digits / 10) (power + 1)
      else (digits, power)

/-- The shortest decimal that rounds to a positive double, as `digits * 10 ^
power`. -/
def shortest (x : Binary64) : Nat × Int :=
  let position := x.pointPosition
  let found := (List.range 17).findSome? fun i => x.withDigits? position (i + 1)
  let (digits, power) := found.getD (x.significand, 0)
  withoutTrailingZeros 17 digits power

end Binary64

end RosInterface
