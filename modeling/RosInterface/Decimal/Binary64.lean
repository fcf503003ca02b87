/-
# RosInterface.Decimal.Binary64 -- rounding to double precision

The magnitude of a finite double is a significand times a power of two: below
`2^53`, with an exponent from `-1074` to `971`, and at least `2^52` unless the
exponent is the least one.  `ofRatio?` rounds an exact quotient of naturals to
the nearest such magnitude, a tie to the even significand, and answers `none`
where rounding passes the largest finite double.  All arithmetic is on naturals,
so nothing is lost before the one rounding.

`ofDecimal?` rounds a decimal `digits * 10 ^ exponent`.  Exponents far outside
the range are settled by size alone, so a literal cannot ask for a power that is
too large to compute.
-/
set_option autoImplicit false

namespace RosInterface

/-- The magnitude `significand * 2 ^ exponent` of a finite double. -/
structure Binary64 where
  significand : Nat
  exponent : Int
  deriving DecidableEq

namespace Binary64

def zero : Binary64 := ⟨0, -1074⟩

/-- Significands are below this, which is `2 ^ 53`. -/
def significandBound : Nat := 9007199254740992

/-- The quotient rounded to the nearest natural, a tie to the even one. -/
def roundHalfEven (n d : Nat) : Nat :=
  let q := n / d
  let r := n % d
  if 2 * r < d then q
  else if d < 2 * r then q + 1
  else if q % 2 = 0 then q else q + 1

/-- Numerator and denominator of `n / d` divided by `base ^ e`. -/
def rescale (base n d : Nat) : Int → Nat × Nat
  | .ofNat k => (n, d * Nat.pow base k)
  | .negSucc k => (n * Nat.pow base (k + 1), d)

/-- The exponent at which the floor of `n / d / 2 ^ e` has 53 bits, or the least
exponent where that is larger. -/
def exponentFor (n d : Nat) : Int :=
  let size : Int := (n.log2 : Int) - d.log2
  let (a, b) := rescale 2 n d (size - 53)
  max (if a / b < significandBound then size - 53 else size - 52) (-1074)

/-- The double nearest to `n / d`; `none` past the largest. -/
def ofRatio? (n d : Nat) : Option Binary64 :=
  if n = 0 then some zero
  else
    let e := exponentFor n d
    let (a, b) := rescale 2 n d e
    let m := roundHalfEven a b
    let rounded : Binary64 :=
      if m = significandBound then ⟨significandBound / 2, e + 1⟩ else ⟨m, e⟩
    if 971 < rounded.exponent then none else some rounded

/-- The double nearest to `digits * 10 ^ exponent`; `none` past the largest. -/
def ofDecimal? (digits : Nat) (exponent : Int) : Option Binary64 :=
  if digits = 0 then some zero
  else if 400 < exponent then none
  else if exponent + (digits.log2 / 3 : Nat) < -400 then some zero
  else
    let (n, d) := rescale 10 digits 1 (-exponent)
    ofRatio? n d

end Binary64

end RosInterface
