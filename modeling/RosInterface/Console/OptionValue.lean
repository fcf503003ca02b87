/-
# RosInterface.Console.OptionValue -- the values of options

Truth is spelled by a word, a letter or a digit.  The name of a layout may have
hyphens or underscores around it.  A number may have a sign, a radix, underscores
and digits of any script; one with a fraction is rounded to the nearest integer, a
tie to the even one, and the word `none` leaves the number open.

Several paths may be given in one argument: a list in square brackets, in the
notation of JSON.  Strings stand for their content there, and numbers and truth
values for their text.  An argument that is no such list is one path.  Names are
never listed so; a name with brackets around it is that name.
-/
import RosInterface.Decimal.Floating
import RosInterface.Output.ModuleFile
import RosInterface.Value.Array

set_option autoImplicit false

namespace RosInterface.OptionValue

open CodePoint (backslash doubleQuote)

/-- The truth value that a word spells, in any letter case. -/
def truth? (s : Text) : Option Bool :=
  let word := s.lower
  if List.contains (α := Text) ["yes", "y", "1", "true", "t"] word then some true
  else if List.contains (α := Text) ["no", "n", "0", "false", "f"] word then some false
  else none

def isHyphen (c : CodePoint) : Bool := c = '-' || c = '_'

/-- The layout that a name spells, in any letter case. -/
def layout? (s : Text) : Option ModuleLayout :=
  let name := s.lower.dropWhile isHyphen
  ModuleLayout.ofText? (name.reverse.dropWhile isHyphen).reverse

/-- The number that a text spells, rounded to an integer. -/
def number? (s : Text) : Option Int :=
  let plain := (Text.trim (s.map (·.asciiNumeral))).filter fun c => !(c == CodePoint.ofChar '_')
  match IntegerLiteral.read? plain with
  | some literal => some literal.value
  | none => (Floating.read? s).bind (·.nearestInteger?)

/-- A number of workers, or that it is left open. -/
def workers? (s : Text) : Option (Option Int) :=
  let word := s.lower
  if word = "none" ∨ word = "null" then some none else (number? s).map some

/-- What a letter after a backslash stands for in a JSON string. -/
def letterEscapes : List (CodePoint × CodePoint) :=
  [('"', '"'), ('\\', '\\'), ('/', '/'), ('b', '\x08'), ('f', '\x0C'), ('n', '\n'), ('r', '\r'),
   ('t', '\t')]

/-- The content of a JSON string, halves of pairs apart. -/
def decode? : Text → Option Text
  | [] => some []
  | c :: rest =>
      if c = backslash then
        match rest with
        | [] => none
        | d :: more =>
            if d = 'u' then
              match more with
              | h₁ :: h₂ :: h₃ :: h₄ :: after =>
                  if List.all [h₁, h₂, h₃, h₄] (·.isDigitOf 16) then do
                    let unit ← CodePoint.ofNat? (Text.value 16 [h₁, h₂, h₃, h₄])
                    (decode? after).map (unit :: ·)
                  else none
              | _ => none
            else do
              let image ← letterEscapes.lookup d
              (decode? more).map (image :: ·)
      else if c.val < 0x20 then none
      else (decode? rest).map (c :: ·)

/-- The code point that two halves of a pair make up. -/
def pair? (high low : CodePoint) : Option CodePoint :=
  if 0xD800 ≤ high.val ∧ high.val ≤ 0xDBFF ∧ 0xDC00 ≤ low.val ∧ low.val ≤ 0xDFFF then
    CodePoint.ofNat? (0x10000 + (high.val - 0xD800) * 0x400 + (low.val - 0xDC00))
  else none

/-- The text with the halves of pairs joined. -/
def joinPairs : Text → Text
  | [] => []
  | [c] => [c]
  | c :: d :: rest =>
      match pair? c d with
      | some joined => joined :: joinPairs rest
      | none => c :: joinPairs (d :: rest)

/-- The text that a word of a JSON list stands for. -/
def word? (s : Text) : Option Text :=
  if s = "true" then some "True"
  else if s = "false" then some "False"
  else
    match IntegerLiteral.read? s with
    | some literal => if literal.radix = 10 then some (Text.ofInt literal.value) else none
    | none => (Floating.read? s).map (·.text)

/-- The text that an element of a JSON list stands for. -/
def element? : ArrayElement → Option Text
  | .bare source => word? source
  | .quoted source =>
      match source with
      | [] => none
      | c :: rest => if c = doubleQuote then (decode? rest.dropLast).map joinPairs else none

/-- The paths that one argument gives. -/
def paths (s : Text) : List Path :=
  let texts : Option (List Text) := do (← ArrayElement.split? s.trim).mapM element?
  (texts.getD [s]).map Path.ofText

end RosInterface.OptionValue
