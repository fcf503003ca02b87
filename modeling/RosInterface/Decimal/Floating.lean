/-
# RosInterface.Decimal.Floating -- the value of a float, and its text

`Floating` is a double as it is written into a module: a signed finite magnitude,
an infinity or the value that is no number.  `Floating.read?` reads one from
text.  Beside the float literals of the definition language it accepts the
spellings of the special values in any letter case, white space at the ends,
single underscores between digits, and decimal digits of every script.

`Floating.text` writes the shortest digits that read back.  The point is written
among the digits while it falls no more than three zeros before the first and no
more than sixteen places after it; otherwise the power of ten is written, with a
sign and two digits at least.  A whole number keeps one zero after its point.
-/
import RosInterface.Decimal.Shortest
import RosInterface.Decimal.Scientific
import RosInterface.Text.Blank

set_option autoImplicit false

namespace RosInterface

namespace CodePoint

/-- The zeros of the decimal digits beyond ASCII; the other nine follow each. -/
def digitZeros : List Nat :=
  [1632, 1776, 1984, 2406, 2534, 2662, 2790, 2918, 3046, 3174, 3302, 3430, 3558, 3664, 3792,
   3872, 4160, 4240, 6112, 6160, 6470, 6608, 6784, 6800, 6992, 7088, 7232, 7248, 42528, 43216,
   43264, 43472, 43504, 43600, 44016, 65296, 66720, 68912, 69734, 69872, 69942, 70096, 70384,
   70736, 70864, 71248, 71360, 71472, 71904, 72016, 72784, 73040, 73120, 92768, 92864, 93008,
   120782, 120792, 120802, 120812, 120822, 123200, 123632, 125264, 130032]

/-- The ASCII code point that a digit or a space beyond ASCII counts as in a
number; every other code point counts as itself. -/
def asciiNumeral (c : CodePoint) : CodePoint :=
  if c.val < 0x80 then c
  else if c.isSpace then ' '
  else
    match digitZeros.find? fun first => first ≤ c.val && c.val ≤ first + 9 with
    | some first => (ofNat? (0x30 + (c.val - first))).getD c
    | none => c

/-- White space within ASCII, the information separators apart. -/
def isAsciiSpace (c : CodePoint) : Bool := c.val == 0x20 || (0x9 ≤ c.val && c.val ≤ 0xD)

end CodePoint

/-- The value of a float. -/
inductive Floating where
  | finite (negative : Bool) (magnitude : Binary64)
  | infinite (negative : Bool)
  | notANumber
  deriving DecidableEq

namespace Floating

/-- The text without its underscores, each of which must stand between digits.
`before` is whether a digit stands before the text. -/
def withoutUnderscores? : Bool → Text → Option Text
  | _, [] => some []
  | before, c :: rest =>
      if c = '_' then
        match rest with
        | [] => none
        | d :: _ => if before && d.isDigit then withoutUnderscores? false rest else none
      else (withoutUnderscores? c.isDigit rest).map (c :: ·)

/-- The special values by name, in any letter case. -/
def special? (s : Text) : Option Floating :=
  let (negative, name) := s.sign
  let name := name.map fun c => if c.isUpper then (CodePoint.ofNat? (c.val + 0x20)).getD c else c
  if name = "inf" ∨ name = "infinity" then some (.infinite negative)
  else if name = "nan" then some .notANumber
  else none

/-- The value of a float literal, rounded once. -/
def ofScientific (x : Scientific) : Floating :=
  match Binary64.ofDecimal? x.digits x.scale with
  | some magnitude => .finite x.negative magnitude
  | none => .infinite x.negative

def read? (s : Text) : Option Floating :=
  let s := s.map (·.asciiNumeral)
  let s := (s.dropWhile (·.isAsciiSpace)).reverse.dropWhile (·.isAsciiSpace) |>.reverse
  match withoutUnderscores? false s with
  | none => none
  | some s =>
      match special? s with
      | some value => some value
      | none => (Scientific.read? s).map ofScientific

/-- How a float is laid out. -/
structure Layout where
  /-- Zeros that may stand between the point and the first digit. -/
  leadingZeros : Nat
  /-- Digits that may stand before the point. -/
  wholeDigits : Nat
  /-- Least number of digits in a written power of ten. -/
  powerDigits : Nat

/-- Three zeros, sixteen whole digits, two digits of power. -/
def layout : Layout := ⟨3, 16, 2⟩

def zeros (n : Nat) : Text := List.replicate n '0'

/-- The text of a power of ten: its sign and its padded digits. -/
def Layout.powerText (layout : Layout) (power : Int) : Text :=
  let digits := Text.ofNat power.natAbs
  (if power < 0 then '-' else '+') ::
    (zeros (layout.powerDigits - digits.length) ++ digits)

/-- A point and the digits after it. -/
def pointed (fraction : Text) : Text := ('.' : CodePoint) :: fraction

/-- Digits with the point after the first `position` of them, or the first digit
with a power of ten. -/
def Layout.text (layout : Layout) (digits : Text) (position : Int) : Text :=
  if -(layout.leadingZeros : Int) ≤ position ∧ position ≤ layout.wholeDigits then
    if position ≤ 0 then '0' :: pointed (zeros position.natAbs ++ digits)
    else
      let count := position.toNat
      let padded := digits ++ zeros (count - digits.length)
      let fraction := padded.drop count
      padded.take count ++ pointed (if fraction.isEmpty then zeros 1 else fraction)
  else
    let fraction := digits.drop 1
    digits.take 1 ++ (if fraction.isEmpty then [] else pointed fraction) ++
      ("e" ++ layout.powerText (position - 1))

/-- The text of a finite magnitude. -/
def magnitudeText (x : Binary64) : Text :=
  if x.significand = 0 then "0.0"
  else
    let (digits, power) := x.shortest
    let text := Text.ofNat digits
    layout.text text (text.length + power)

def text : Floating → Text
  | .finite negative x => (if negative then "-" else "") ++ magnitudeText x
  | .infinite negative => if negative then "-inf" else "inf"
  | .notANumber => "nan"

def isFinite : Floating → Bool
  | .finite _ _ => true
  | _ => false

/-- The nearest integer to a finite float, a tie to the even one. -/
def nearestInteger? : Floating → Option Int
  | .finite negative x =>
      let (n, d) := x.ratio
      let magnitude : Int := Binary64.roundHalfEven n d
      some (if negative then -magnitude else magnitude)
  | _ => none

end Floating

end RosInterface
