/-
# RosInterface.Text.CodePoint -- texts as lists of code points

A definition file is read as code points, and an escape in a string literal may
spell any of them, surrogates included.  `Char` has no surrogates, so a text is a
list of `CodePoint`: a number below `0x110000` and nothing more.  Its length is
the number that string bounds are compared with, and two texts are equal exactly
when they hold the same code points.

`Char` and `String` literals are lifted by coercion, so a rule reads
`c = '#'` or `"msg" ++ rest`.  The character classes here are those of the
definition language, which are ASCII classes; `digit?` is the one reading of a
digit, for every radix up to sixteen.
-/
set_option autoImplicit false

namespace RosInterface

/-- A Unicode code point, surrogates included. -/
@[ext]
structure CodePoint where
  val : Nat
  isLt : val < 0x110000
  deriving DecidableEq

/-- A text is its code points in order. -/
abbrev Text := List CodePoint

namespace CodePoint

def ofChar (c : Char) : CodePoint :=
  ⟨c.toNat, by
    rcases c.valid with h | h
    · exact Nat.lt_trans h (by decide)
    · exact h.2⟩

instance : Coe Char CodePoint := ⟨ofChar⟩

instance : Inhabited CodePoint := ⟨' '⟩

@[simp] theorem val_ofChar (c : Char) : (ofChar c).val = c.toNat := rfl

/-- The code point of a number, where there is one. -/
def ofNat? (n : Nat) : Option CodePoint :=
  if h : n < 0x110000 then some ⟨n, h⟩ else none

/-- The two halves of a UTF-16 pair; no encoded file holds one. -/
def isSurrogate (c : CodePoint) : Bool := 0xD800 ≤ c.val && c.val ≤ 0xDFFF

def isLower (c : CodePoint) : Bool := 0x61 ≤ c.val && c.val ≤ 0x7A

def isUpper (c : CodePoint) : Bool := 0x41 ≤ c.val && c.val ≤ 0x5A

def isDigit (c : CodePoint) : Bool := 0x30 ≤ c.val && c.val ≤ 0x39

def isLetter (c : CodePoint) : Bool := c.isLower || c.isUpper

/-- A code point that may continue an identifier. -/
def isWord (c : CodePoint) : Bool := c.isLetter || c.isDigit || c = '_'

/-- The value of a digit in a radix of at most sixteen, either letter case. -/
def digit? (radix : Nat) (c : CodePoint) : Option Nat :=
  let value :=
    if c.isDigit then c.val - 0x30
    else if 0x61 ≤ c.val && c.val ≤ 0x66 then c.val - 0x61 + 10
    else if 0x41 ≤ c.val && c.val ≤ 0x46 then c.val - 0x41 + 10
    else 16
  if value < radix then some value else none

def isDigitOf (radix : Nat) (c : CodePoint) : Bool := (c.digit? radix).isSome

/-- Membership in a table of closed ranges. -/
def inRanges (c : CodePoint) (ranges : List (Nat × Nat)) : Bool :=
  ranges.any fun range => range.1 ≤ c.val && c.val ≤ range.2

end CodePoint

namespace Text

def ofString (s : String) : Text := s.toList.map CodePoint.ofChar

instance : Coe String Text := ⟨ofString⟩

/-- The number that a run of digits spells, most significant first. -/
def value (radix : Nat) (digits : Text) : Nat :=
  digits.foldl (fun n c => n * radix + (c.digit? radix).getD 0) 0

/-- Every code point is a digit of the radix, and there is one. -/
def isNumeral (radix : Nat) (s : Text) : Bool := !s.isEmpty && s.all (·.isDigitOf radix)

/-- A sign, where there is one, and the rest: whether it is a minus. -/
def sign (s : Text) : Bool × Text :=
  match s with
  | [] => (false, [])
  | c :: rest => if c = '-' then (true, rest) else if c = '+' then (false, rest) else (false, s)

/-- The decimal text of a number. -/
def ofNat (n : Nat) : Text := (Nat.toDigits 10 n).map CodePoint.ofChar

def ofInt : Int → Text
  | .ofNat n => ofNat n
  | .negSucc n => '-' :: ofNat (n + 1)

/-- The pieces in order with `separator` between neighbours. -/
def joined (separator : Text) (pieces : List Text) : Text :=
  separator.intercalate pieces

/-- The pieces between occurrences of `mark`: one more than it occurs. -/
def pieces (mark : CodePoint) : Text → List Text
  | [] => [[]]
  | c :: rest =>
      if c = mark then [] :: pieces mark rest
      else
        match pieces mark rest with
        | [] => [[c]]
        | piece :: more => (c :: piece) :: more

/-- The order of texts: by the first code point that differs, a proper beginning
first. -/
def le : Text → Text → Bool
  | [], _ => true
  | _ :: _, [] => false
  | a :: s, b :: t => if a.val < b.val then true else if b.val < a.val then false else le s t

/-- A stable sort of items by a text key. -/
def sortOn {α : Type} (key : α → Text) (items : List α) : List α :=
  items.mergeSort fun a b => le (key a) (key b)

def sort (texts : List Text) : List Text := sortOn id texts

end Text

end RosInterface
