/-
# RosInterface.Text.Line -- line ends

Two notions of a line meet in a definition file.  A file may end its lines with
`\n`, `\r` or `\r\n`; `unifyNewlines` leaves `\n` only, and `terminated` adds the
last one when it is missing.  `lines` then cuts a text at every *boundary*, and
those are more than the newline: vertical tab, form feed, the three upper
information separators, the next-line control and the two Unicode separators end
a line as well, wherever they stand.
-/
import RosInterface.Text.CodePoint

set_option autoImplicit false

namespace RosInterface

namespace CodePoint

def newline : CodePoint := '\n'

def carriageReturn : CodePoint := '\r'

/-- A code point that ends a line. -/
def isLineBoundary (c : CodePoint) : Bool :=
  c.inRanges [(0xA, 0xD), (0x1C, 0x1E), (0x85, 0x85), (0x2028, 0x2029)]

end CodePoint

namespace Text

open CodePoint (newline carriageReturn)

/-- Every `\r\n` and every other `\r` becomes `\n`. -/
def unifyNewlines : Text → Text
  | [] => []
  | c :: rest =>
      if c = carriageReturn then
        match rest with
        | [] => [newline]
        | d :: more => if d = newline then newline :: unifyNewlines more
            else newline :: unifyNewlines (d :: more)
      else c :: unifyNewlines rest

/-- The text with a newline at its end. -/
def terminated (s : Text) : Text :=
  if s.getLast? = some newline then s else s ++ [newline]

/-- One kind of line end, and the last line has it too. -/
def normalNewlines (s : Text) : Text := terminated (unifyNewlines s)

/-- The lines of a text, without what ends them.  A boundary at the very end
opens no further line, and `\r\n` is one boundary. -/
def lines : Text → List Text
  | [] => []
  | c :: rest =>
      if c.isLineBoundary then
        match rest with
        | [] => [[]]
        | d :: more => if c = carriageReturn ∧ d = newline then [] :: lines more
            else [] :: lines (d :: more)
      else
        match lines rest with
        | [] => [[c]]
        | line :: others => (c :: line) :: others

/-- Items with their positions, counted from one. -/
def numbered {α : Type} (items : List α) : List (Nat × α) :=
  items.zipIdx.map fun (item, index) => (index + 1, item)

end Text

end RosInterface
