/-
# RosInterface.Decimal.Scientific -- the shape of a float literal

A float literal is a sign, digits with an optional point among them, and an
optional power of ten.  `Scientific.read?` takes such a text apart and refuses
every other one; the parts are kept as digit runs, so nothing has been rounded.
There is at least one digit before the point or, where nothing stands before it,
one after.
-/
import RosInterface.Text.CodePoint

set_option autoImplicit false

namespace RosInterface

/-- The parts of a float literal. -/
structure Scientific where
  negative : Bool
  whole : Text
  fraction : Text
  power : Int
  deriving DecidableEq

namespace Scientific

/-- The digits at the beginning and what follows them. -/
def digitRun (s : Text) : Text × Text := (s.takeWhile (·.isDigit), s.dropWhile (·.isDigit))

/-- The power of ten, which ends the literal: nothing, or a mark and a signed run
of digits. -/
def power? : Text → Option Int
  | [] => some 0
  | c :: rest =>
      if c = 'e' ∨ c = 'E' then
        let (negative, digits) := Text.sign rest
        if digits.isNumeral 10 then
          some (if negative then -(digits.value 10 : Int) else digits.value 10)
        else none
      else none

/-- The digits after a point, where there is one, and the rest. -/
def fractionRun (s : Text) : Text × Text :=
  match s with
  | [] => ([], [])
  | c :: rest => if c = '.' then digitRun rest else ([], s)

def read? (s : Text) : Option Scientific :=
  let (negative, s) := s.sign
  let (whole, s) := digitRun s
  let (fraction, s) := fractionRun s
  if whole.isEmpty && fraction.isEmpty then none
  else (power? s).map fun power => ⟨negative, whole, fraction, power⟩

/-- The digits as one number; the point moves into `scale`. -/
def digits (x : Scientific) : Nat := (x.whole ++ x.fraction).value 10

def scale (x : Scientific) : Int := x.power - x.fraction.length

end Scientific

end RosInterface
