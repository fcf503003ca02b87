/-
# RosInterface.Definition.Section -- a definition text and its sections

The lines of a definition are numbered through the whole text.  A line of three
dashes, with white space around it or none, ends one section and begins the next;
it belongs to neither.  Each kind of definition has a fixed number of sections.
-/
import RosInterface.Diagnostic
import RosInterface.Text.Blank
import RosInterface.Text.Line

set_option autoImplicit false

namespace RosInterface

/-- Lines with their numbers in the whole text. -/
abbrev Section := List (Nat × Text)

namespace Section

def isSeparator (line : Text) : Bool := line.trim = "---"

/-- Cut numbered lines at the separators: one section more than there are
separators. -/
def cut : List (Nat × Text) → List Section
  | [] => [[]]
  | (number, line) :: rest =>
      if isSeparator line then [] :: cut rest
      else
        match cut rest with
        | [] => [[(number, line)]]
        | first :: others => ((number, line) :: first) :: others

/-- The sections of a text, however many there are. -/
def all (text : Text) : List Section := cut (Text.numbered text.normalNewlines.lines)

/-- The sections of a definition; their number must be that of its kind. -/
def forKind (kind : Kind) (text : Text) : Outcome (List Section) :=
  let sections := all text
  if sections.length = kind.sectionSuffixes.length then .ok sections
  else .fault (.structural (.separatorCount kind (sections.length - 1)))

end Section

end RosInterface
