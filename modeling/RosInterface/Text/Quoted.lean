/-
# RosInterface.Text.Quoted -- a text between quotes, for a reader

`quoted` shows any list of code points on one line: quotes around it, a
backslash before the quote and the backslash, the three short escapes for tab,
newline and carriage return, and a number in hexadecimal for whatever else is not
printable.  The single quote is preferred; the double quote is taken when the
text has single quotes and no double one.  Error messages, printed defaults and
generated string literals are all written so.
-/
import RosInterface.Text.Printable

set_option autoImplicit false

namespace RosInterface

namespace CodePoint

def backslash : CodePoint := '\\'

def singleQuote : CodePoint := '\''

def doubleQuote : CodePoint := '"'

def isQuote (c : CodePoint) : Bool := c = singleQuote || c = doubleQuote

end CodePoint

namespace Text

open CodePoint (backslash singleQuote doubleQuote)

def hexDigits : List Char :=
  ['0', '1', '2', '3', '4', '5', '6', '7', '8', '9', 'a', 'b', 'c', 'd', 'e', 'f']

/-- The last `width` hexadecimal digits of a number. -/
def hex : Nat → Nat → Text
  | 0, _ => []
  | width + 1, n => hex width (n / 16) ++ [CodePoint.ofChar (hexDigits.getD (n % 16) '0')]

/-- One code point as it stands between quotes of kind `quote`. -/
def spelled (quote c : CodePoint) : Text :=
  if c = quote ∨ c = backslash then [backslash, c]
  else if c.val = 0x9 then [backslash, 't']
  else if c.val = 0xA then [backslash, 'n']
  else if c.val = 0xD then [backslash, 'r']
  else if c.isPrintable then [c]
  else if c.val < 0x100 then backslash :: 'x' :: hex 2 c.val
  else if c.val < 0x10000 then backslash :: 'u' :: hex 4 c.val
  else backslash :: 'U' :: hex 8 c.val

/-- The kind of quote that a text is put between. -/
def quoteFor (s : Text) : CodePoint :=
  if s.contains singleQuote && !s.contains doubleQuote then doubleQuote else singleQuote

def quoted (s : Text) : Text :=
  let quote := quoteFor s
  quote :: (s.flatMap (spelled quote) ++ [quote])

end Text

end RosInterface
