/-
# RosInterface.Output.Writer -- indented lines

Generated text is written by steps: lines at the current depth, empty lines,
one-line docstrings, and the change of depth.  `Writer.step` performs one and
`Writer.run` a list of them, so the layout of a module is data before it is text.

Lines passed to the writer are cut where lines end, blank ones are dropped and
each other one is indented by four spaces a level.  Empty lines come only from
`blank`, which never makes a run longer than asked for and writes nothing at the
beginning.  Docstrings are written only by a writer that writes comments.  The
lines are kept newest first.
-/
import RosInterface.Text.Blank
import RosInterface.Text.Line

set_option autoImplicit false

namespace RosInterface

structure Writer where
  comments : Bool
  level : Nat
  /-- The lines, newest first. -/
  written : List Text
  deriving DecidableEq

/-- One step of writing. -/
inductive WriterStep where
  /-- Write lines, if there are any. -/
  | append (text : Option Text)
  | extend (texts : List Text)
  /-- Have at least so many empty lines at the end. -/
  | blank (count : Nat)
  | docstring (text : Option Text)
  /-- Write lines and go one level deeper. -/
  | indent (text : Option Text)
  /-- Go back one level. -/
  | dedent
  deriving DecidableEq

namespace Writer

def new (comments : Bool) : Writer := ⟨comments, 0, []⟩

/-- Four spaces a level. -/
def indentation (level : Nat) : Text := List.replicate (4 * level) ' '

/-- Write one line as it is, at the current depth. -/
def line (w : Writer) (text : Text) : Writer :=
  { w with written := (indentation w.level ++ text) :: w.written }

/-- Write the lines of a text that are not blank. -/
def append (w : Writer) (text : Text) : Writer :=
  (text.lines.filter fun line => !line.isBlank).foldl line w

def blank (w : Writer) (count : Nat) : Writer :=
  if w.written.isEmpty then w
  else
    let trailing := (w.written.takeWhile (·.isEmpty)).length
    { w with written := List.replicate (count - trailing) [] ++ w.written }

/-- Three double quotes, as they stand around a docstring. -/
def docQuotes : Text := "\"\"\""

def docstring (w : Writer) (text : Text) : Writer :=
  if w.comments then w.line (docQuotes ++ text ++ docQuotes) else w

def step (w : Writer) : WriterStep → Writer
  | .append text => (text.map w.append).getD w
  | .extend texts => texts.foldl append w
  | .blank count => w.blank count
  | .docstring text => (text.map w.docstring).getD w
  | .indent text =>
      let w := (text.map w.append).getD w
      { w with level := w.level + 1 }
  | .dedent => { w with level := w.level - 1 }

def run (w : Writer) (steps : List WriterStep) : Writer := steps.foldl step w

/-- The text of the lines, with one newline at its end. -/
def text (w : Writer) : Text :=
  let joined := Text.joined [CodePoint.newline] w.written.reverse
  (joined.reverse.dropWhile (· = CodePoint.newline)).reverse ++ [CodePoint.newline]

end Writer

namespace WriterStep

/-- Write one text. -/
def write (text : Text) : WriterStep := .append (some text)

/-- A header line, a docstring line and a body one level deeper. -/
def block (header doc : Text) (body : List WriterStep) : List WriterStep :=
  .indent (some header) :: .docstring (some doc) :: (body ++ [.dedent])

end WriterStep

end RosInterface
