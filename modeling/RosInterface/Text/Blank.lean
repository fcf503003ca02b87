/-
# RosInterface.Text.Blank -- blank space around and between words

There are two kinds of blank.  *Space* is any code point with the white-space
property of Unicode, together with the four information separators of ASCII; it
is what `trim` removes from the ends of a text.  A *gap* is a run of spaces and
tabs, and nothing else separates the tokens of a declaration.
-/
import RosInterface.Text.CodePoint

set_option autoImplicit false

namespace RosInterface

namespace CodePoint

/-- The ranges of white space. -/
def spaceRanges : List (Nat × Nat) :=
  [(0x9, 0xD), (0x1C, 0x20), (0x85, 0x85), (0xA0, 0xA0), (0x1680, 0x1680), (0x2000, 0x200A),
   (0x2028, 0x2029), (0x202F, 0x202F), (0x205F, 0x205F), (0x3000, 0x3000)]

def isSpace (c : CodePoint) : Bool := c.inRanges spaceRanges

/-- A space or a tab. -/
def isGap (c : CodePoint) : Bool := c.val == 0x20 || c.val == 0x9

end CodePoint

namespace Text

def trimStart (s : Text) : Text := s.dropWhile (·.isSpace)

def trimEnd (s : Text) : Text := (s.reverse.dropWhile (·.isSpace)).reverse

/-- The text without the white space at its ends. -/
def trim (s : Text) : Text := trimEnd (trimStart s)

/-- There is nothing in the text but white space. -/
def isBlank (s : Text) : Bool := s.all (·.isSpace)

/-- What follows the gap at the beginning. -/
def skipGap (s : Text) : Text := s.dropWhile (·.isGap)

end Text

end RosInterface
