/-
# RosInterface.Output.Render -- the text of modules

A module is turned into writer steps and those into text.  Only the writer knows
whether docstrings are written, so the steps do not depend on it.  A step list
fails only where a value has no expression.

A class is a header line, a docstring, its type name and its content, one level
deeper.  In a single file the classes of a kind are nested in a class of the
kind, and that in a class of the package; a nested class does not see its
neighbours, so a service or an action is bound to its messages after its body.
-/
import RosInterface.Output.ModuleFile
import RosInterface.Output.Writer

set_option autoImplicit false

namespace RosInterface

open WriterStep (write)

namespace FieldDeclaration

def text (field : FieldDeclaration) : Outcome Text := do
  let value ← field.initial.text
  let keyword : Text := if field.initial.isFactory then "default_factory=" else "default="
  return field.name ++ ": " ++ field.hint.text ++ " = _field(" ++ keyword ++ value ++
    ", metadata=\x7b\"idl_type\": " ++ field.schemaType.text.quoted ++ "\x7d)"

end FieldDeclaration

def ConstantDeclaration.text (constant : ConstantDeclaration) : Outcome Text := do
  let value ← constant.value.text
  return constant.name ++ ": ClassVar[" ++ constant.hint.text ++ "] = " ++ value

namespace ClassDeclaration

def header (name : Text) : Text := "class " ++ name ++ ":"

/-- The line that tells the full name of a class. -/
def typeLine (type : TypeName) : WriterStep := write ("_type: ClassVar[str] = " ++ type.text.quoted)

/-- The lines that bind a class to others, each after `lead`. -/
def bindingSteps (declared : InterfaceClass) (lead : Text) : List WriterStep :=
  declared.bindings.map fun (name, target) => write (lead ++ name ++ " = " ++ target)

/-- The steps that write a declaration.  In a single file it is `nested`. -/
def steps (nested : Bool) : ClassDeclaration → Outcome (List WriterStep)
  | .message declared => do
      let constants ← declared.constants.mapM (·.text)
      let fields ← declared.fields.mapM (·.text)
      let gap := if fields.isEmpty then [] else [WriterStep.blank 1]
      return write "@dataclass" ::
        WriterStep.block (header declared.name) ("Message " ++ declared.typeName.text ++ ".")
          (typeLine declared.typeName :: (constants.map write ++ gap ++ fields.map write))
  | .interface declared =>
      let doc := "Interface " ++ declared.typeName.text ++ "."
      let type := typeLine declared.typeName
      if nested then
        .ok (WriterStep.block (header declared.name) doc [type] ++
          bindingSteps declared (declared.name ++ "."))
      else
        .ok (WriterStep.block (header declared.name) doc (type :: bindingSteps declared []))

end ClassDeclaration

namespace ModuleFile

/-- The first line of every module. -/
def banner : WriterStep :=
  write (Writer.docQuotes ++ "Generated by ros-idl-gen. Do not edit." ++ Writer.docQuotes)

/-- What every module with classes begins with. -/
def preamble : List WriterStep :=
  [.blank 1, write "from __future__ import annotations", .blank 1,
   write "import builtins as _builtins", write "from dataclasses import dataclass",
   write "from dataclasses import field as _field", write "from typing import ClassVar"]

def importSteps (imports : List Text) : List WriterStep :=
  if imports.isEmpty then []
  else [.blank 1, .extend (imports.map fun name => "import " ++ name)]

/-- The texts in brackets, each quoted. -/
def listText (texts : List Text) : Text :=
  "[" ++ Text.joined ", " (texts.map (·.quoted)) ++ "]"

def exportSteps (exports : List (Text × List Text)) : List WriterStep :=
  if exports.isEmpty then []
  else
    let lines := exports.map fun (stem, names) =>
      write ("from ." ++ stem ++ " import " ++ Text.joined ", " names)
    let names := Text.sort (exports.flatMap (·.2))
    .blank 1 :: (lines ++ [.blank 1, write ("__all__ = " ++ listText names)])

def steps (layout : ModuleLayout) (file : ModuleFile) : Outcome (List WriterStep) := do
  let classes ← file.declarations.mapM (ClassDeclaration.steps (layout = .single))
  let opening := if file.declarations.isEmpty then [] else preamble ++ importSteps file.imports
  return banner :: (opening ++ exportSteps file.exports ++
    classes.flatMap fun class_ => .blank 2 :: class_)

/-- The text of a module. -/
def text (layout : ModuleLayout) (comments : Bool) (file : ModuleFile) : Outcome Text := do
  let steps ← file.steps layout
  return ((Writer.new comments).run steps).text

end ModuleFile

namespace Package

/-- The steps for one kind within the class of a package. -/
def nestedKindSteps (package : Package) (kind : Kind) : Outcome (List WriterStep) :=
  let interfaces := package.interfaces kind
  if interfaces.isEmpty then .ok []
  else do
    let classes ← (package.declarations .single kind interfaces).mapM (ClassDeclaration.steps true)
    let body := List.intercalate [WriterStep.blank 1] classes
    return .blank 1 :: .indent (some (ClassDeclaration.header kind.text)) :: (body ++ [.dedent])

/-- The steps for a package in a single file. -/
def nestedSteps (package : Package) : Outcome (List WriterStep) := do
  let kinds ← Kind.all.mapM package.nestedKindSteps
  let pass := if package.isEmpty then [write "pass"] else []
  return .blank 2 ::
    WriterStep.block (ClassDeclaration.header package.name) ("Package " ++ package.name ++ ".")
      (pass ++ kinds.flatten)

end Package

end RosInterface
