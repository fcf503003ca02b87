/-
# RosInterface.Console.Report -- what commands do

A command is a function of the file tree and the environment.  Its report holds
the exit status, what is shown and on which stream, and the tree after.  What
cannot be compiled or read is reported there, each diagnostic by itself; only what
has no diagnostic ends a command without a report.
-/
import RosInterface.Console.Command
import RosInterface.Console.Markup

set_option autoImplicit false

namespace RosInterface

inductive Stream where
  | out
  | err
  deriving DecidableEq

structure Table where
  title : Text
  headers : List Text
  rows : List (List Text)
  deriving DecidableEq

/-- Something shown on a console: markup, or a table of it. -/
inductive Shown where
  | markup (text : Text)
  | table (table : Table)
  deriving DecidableEq

structure Report where
  status : Nat
  shown : List (Stream × Shown)
  tree : FileTree

namespace Report

/-- The line that shows an error, whose text is markup already. -/
def errorLine (markup : Text) : Stream × Shown :=
  (.err, .markup (Markup.styled "red" ("Error: " ++ markup)))

/-- A failed command that shows the given errors and leaves the tree alone. -/
def failed (tree : FileTree) (errors : List Text) : Report :=
  ⟨1, errors.map errorLine, tree⟩

def ofDiagnostics (tree : FileTree) (diagnostics : List Diagnostic) : Report :=
  failed tree (diagnostics.map fun d => Markup.escape d.text)

/-- The table of a message: a row for each constant and each member. -/
def messageTable (kind : Kind) (message : Message) : Table where
  title := TypeName.text ⟨message.package, kind, message.name⟩
  headers := ["Name", "Type", "Value"]
  rows :=
    let row (name : Text) (type : FieldType) (values : List Text) : List Text :=
      [name, Markup.escape type.text, Markup.escape (Text.joined ", " values)]
    message.constants.map (fun constant => row constant.name constant.type constant.value) ++
      message.members.map fun member => row member.name member.type (member.default.getD [])

/-- The table of a run: a row for each package. -/
def packageTable (output : Path) (result : Compile.Result) : Table where
  title := "Generated " ++ Text.ofNat result.generatedFiles.length ++ " files in " ++ output.text
  headers := ["Package", "Messages", "Services", "Actions"]
  rows := result.packages.map fun package =>
    [package.name, Text.ofNat package.messages.length, Text.ofNat package.services.length,
     Text.ofNat package.actions.length]

end Report

namespace Command

def generateReport (settings : Settings) (environment : Environment) (tree : FileTree) :
    Outcome Report :=
  match Compile.run settings environment tree with
  | .error (.single (.abort abort)) => .abort abort
  | .error (.single (.diagnostic diagnostic)) => .ok (.ofDiagnostics tree [diagnostic])
  | .error (.collected diagnostics) => .ok (.ofDiagnostics tree diagnostics)
  | .ok result =>
      let shown : Shown :=
        if result.packages.isEmpty then
          .markup (Markup.styled "yellow" "No interface packages found")
        else .table (Report.packageTable (settings.output.getD Path.here) result)
      .ok ⟨0, [(.out, shown)], result.tree⟩

/-- The package that a definition file belongs to by its place: the folder above
its own.  The path is followed name by name, and what is not there is no fault. -/
def packageByPlace (tree : FileTree) (file : Path) : Outcome Text :=
  match file.components.findSome? FileTree.nameFault? with
  | some fault => .abort (.file fault)
  | none =>
      let place := Path.collapsed (tree.start file ++ file.components)
      .ok (place.dropLast.dropLast.getLastD [])

def describeReport (file : Path) (package : Option Text) (tree : FileTree) : Outcome Report := do
  let package ← match package with
    | some (c :: rest) => pure (c :: rest)
    | _ => packageByPlace tree file
  match Interface.ofFile tree package file with
  | .error (.abort (.file fault)) =>
      match fault.text? with
      | some report =>
          .ok (.failed tree
            ["cannot read " ++ Markup.escape file.text ++ ": " ++ Markup.escape report])
      | none => .abort (.file fault)
  | .error (.abort abort) => .abort abort
  | .error (.diagnostic diagnostic) => .ok (.ofDiagnostics tree [diagnostic])
  | .ok interface =>
      let tables := interface.messages.map (Report.messageTable interface.kind)
      .ok ⟨0, tables.map fun table => (.out, .table table), tree⟩

def stemsReport (names : List Text) (tree : FileTree) : Report :=
  ⟨0, names.map fun name => (.out, .markup name.snakeCase), tree⟩

/-- Perform a command. -/
def perform (environment : Environment) (tree : FileTree) : Command → Outcome Report
  | .generate settings => generateReport settings environment tree
  | .describe file package => describeReport file package tree
  | .stems names => .ok (stemsReport names tree)

end Command

end RosInterface
