/-
# RosInterface.Value.Integer -- integer literals

An integer literal is a sign and digits, in one of four radices: a zero with a
letter before the digits selects sixteen, two or eight, and without one the digits
are decimal, leading zeros included.  `IntegerLiteral.read?` takes a literal
apart, `IntegerLiteral.value` is the integer it denotes, and `Value.integer` is
the canonical decimal text of that integer, if it lies in the range of the type.
-/
import RosInterface.Diagnostic
import RosInterface.Text.Blank

set_option autoImplicit false

namespace RosInterface

structure IntegerLiteral where
  negative : Bool
  radix : Nat
  digits : Text
  deriving DecidableEq

namespace IntegerLiteral

/-- The radix that a letter after a zero selects. -/
def radixOf? (c : CodePoint) : Option Nat :=
  if c = 'x' ∨ c = 'X' then some 16
  else if c = 'b' ∨ c = 'B' then some 2
  else if c = 'o' ∨ c = 'O' then some 8
  else none

/-- Radix and digits of an unsigned literal, as they are written. -/
def split : Text → Nat × Text
  | [] => (10, [])
  | [c] => (10, [c])
  | c :: d :: digits =>
      if c = '0' then
        match radixOf? d with
        | some radix => (radix, digits)
        | none => (10, c :: d :: digits)
      else (10, c :: d :: digits)

def read? (s : Text) : Option IntegerLiteral :=
  let (negative, body) := s.sign
  let (radix, digits) := split body
  if digits.isNumeral radix then some ⟨negative, radix, digits⟩ else none

/-- The integer that a literal denotes. -/
def value (literal : IntegerLiteral) : Int :=
  let magnitude : Int := literal.digits.value literal.radix
  if literal.negative then -magnitude else magnitude

end IntegerLiteral

def IntegerType.contains (type : IntegerType) (n : Int) : Bool :=
  type.least ≤ n && n ≤ type.greatest

def IntegerType.asField (type : IntegerType) : FieldType :=
  .single (.primitive (.basic (.integer type)))

/-- The canonical text of an integer literal. -/
def Value.integer (type : IntegerType) (text : Text) : Outcome Text :=
  match IntegerLiteral.read? text.trim with
  | none => .refuse text type.asField none
  | some literal =>
      if literal.radix = 10 ∧ maximalDigits < literal.digits.length then .abort .longInteger
      else if type.contains literal.value then .ok (Text.ofInt literal.value)
      else .refuse text type.asField (some (.outOfRange type))

end RosInterface
