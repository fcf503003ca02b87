/-
# RosInterface.Definition.Text -- a definition from its text

Each section becomes a message, line by line, and the first line that declares
nothing acceptable ends the reading with its number.  Lines that are blank or
hold only a comment are passed over.  A name may be declared once in a section.
The sections are read in order, so the first faulty one is reported.
-/
import RosInterface.Declaration.Item
import RosInterface.Definition.Section
import RosInterface.Schema.Interface

set_option autoImplicit false

namespace RosInterface

/-- The item of a numbered line. -/
def Item.ofNumberedLine (line : Nat × Text) : Outcome Item :=
  (Item.ofLine line.2).mapDiagnostic (·.withLine line.1)

namespace Message

/-- The message of some items, in their order. -/
def ofItems (package name : Text) (items : List Item) : Message :=
  ⟨package, name, items.filterMap (·.member?), items.filterMap (·.constant?)⟩

/-- A message is refused when it declares a name twice. -/
def checkNames (message : Message) : Outcome Message :=
  if message.repeatedNames.isEmpty then .ok message
  else .fault (.structural (.repeatedNames message.name message.repeatedNames))

/-- The message that a section declares. -/
def ofSection (package name : Text) (lines : Section) : Outcome Message := do
  let items ← (lines.filter fun line => !line.2.isSilent).mapM Item.ofNumberedLine
  (ofItems package name items).checkNames

end Message

namespace Interface

/-- The messages of the sections of a definition. -/
def readMessages (kind : Kind) (package name text : Text) : Outcome (List Message) := do
  let sections ← Section.forKind kind text
  (sections.zip kind.sectionSuffixes).mapM fun (lines, suffix) =>
    Message.ofSection package (name ++ suffix) lines

/-- The definition that some messages make up, in the order of the sections. -/
def ofMessages? (kind : Kind) (package name : Text) (messages : List Message) : Option Interface :=
  match kind, messages with
  | .message, [only] => some (.message only)
  | .service, [request, response] => some (.service ⟨package, name, request, response⟩)
  | .action, [goal, result, feedback] => some (.action ⟨package, name, goal, result, feedback⟩)
  | _, _ => none

/-- The definition that a text spells. -/
def ofText (kind : Kind) (package name text : Text) : Outcome Interface := do
  let messages ← readMessages kind package name text
  match ofMessages? kind package name messages with
  | some interface => .ok interface
  | none => .fault (.structural (.separatorCount kind (messages.length - 1)))

end Interface

end RosInterface
