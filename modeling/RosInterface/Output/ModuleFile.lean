/-
# RosInterface.Output.ModuleFile -- the modules of a package

A package becomes a folder with an empty initial module and the modules of its
kinds.  What those are is the layout: one module for each kind; or a folder for
each kind with one module for each definition and an initial module that exports
their classes; or, in a single file for everything, one class for each kind, and
then no reference is bare and nothing is imported.

Two definitions of one kind may ask for the same module of their own, since
module names are in snake case.  That is the only way in which a package cannot
be laid out, and the first clash is reported.
-/
import RosInterface.Output.ClassDeclaration
import RosInterface.Schema.Package

set_option autoImplicit false

namespace RosInterface

/-- How generated classes are spread over modules. -/
inductive ModuleLayout where
  | package
  | declaration
  | single
  deriving DecidableEq

namespace ModuleLayout

def text : ModuleLayout → Text
  | .package => "package"
  | .declaration => "declaration"
  | .single => "single"

def all : List ModuleLayout := [.package, .declaration, .single]

def ofText? (s : Text) : Option ModuleLayout := all.find? fun layout => layout.text = s

end ModuleLayout

structure ModuleFile where
  path : Path
  kind : Option Kind
  declarations : List ClassDeclaration
  /-- The modules that are imported, in order. -/
  imports : List Text
  /-- Neighbouring modules with the names that are exported from them. -/
  exports : List (Text × List Text)
  deriving DecidableEq

namespace ModuleFile

def initialName : Text := "__init__.py"

/-- The module without content at a path. -/
def empty (path : Path) (kind : Option Kind) : ModuleFile := ⟨path, kind, [], [], []⟩

/-- The modules that some declarations need, each once and in order. -/
def importsOf (declarations : List ClassDeclaration) : List Text :=
  Text.sort ((declarations.flatMap (·.references)).filterMap (·.imported?)).eraseDups

end ModuleFile

namespace Package

/-- The path of something below the folder of a package. -/
def pathTo (package : Package) (below : List Text) : Path :=
  below.foldl (fun path name => path ++ Path.ofText name) (Path.ofText package.name)

/-- The declarations of some definitions of one kind. -/
def declarations (package : Package) (layout : ModuleLayout) (kind : Kind)
    (interfaces : List Interface) : List ClassDeclaration :=
  interfaces.flatMap
    (ClassDeclaration.ofInterface (.ofInterfaces package.name kind interfaces (layout = .single)))

/-- The module that declares some definitions of one kind. -/
def moduleOf (package : Package) (layout : ModuleLayout) (kind : Kind) (path : Path)
    (interfaces : List Interface) : ModuleFile :=
  let declarations := package.declarations layout kind interfaces
  let imports := if layout = .single then [] else ModuleFile.importsOf declarations
  ⟨path, some kind, declarations, imports, []⟩

/-- The name of a definition's own module, without its suffix. -/
def moduleStem (interface : Interface) : Text := "_" ++ interface.name.snakeCase

/-- One module for each definition, with its name; no name may come twice. -/
def ownModules (package : Package) (kind : Kind) :
    List Text → List Interface → Except DuplicateFault (List (Text × ModuleFile))
  | _, [] => .ok []
  | taken, interface :: rest =>
      let stem := moduleStem interface
      let path := package.pathTo [kind.text, stem ++ ".py"]
      if taken.contains stem then .error (.moduleFile path)
      else do
        let others ← package.ownModules kind (stem :: taken) rest
        return (stem, package.moduleOf .declaration kind path [interface]) :: others

/-- The initial module of a kind: it exports every class. -/
def exportModule (package : Package) (kind : Kind) (named : List (Text × ModuleFile)) :
    ModuleFile :=
  let exports := named.map fun (stem, file) => (stem, file.declarations.map (·.name))
  { ModuleFile.empty (package.pathTo [kind.text, ModuleFile.initialName]) (some kind) with exports }

/-- The modules of one kind; none where the package has no such definition. -/
def kindModules (package : Package) (layout : ModuleLayout) (kind : Kind) :
    Except DuplicateFault (List ModuleFile) :=
  let interfaces := package.interfaces kind
  if interfaces.isEmpty then .ok []
  else
    match layout with
    | .declaration => do
        let named ← package.ownModules kind [] interfaces
        return named.map (·.2) ++ [package.exportModule kind named]
    | _ => .ok [package.moduleOf layout kind (package.pathTo [kind.text ++ ".py"]) interfaces]

/-- The modules of a package, its initial module first. -/
def modules (package : Package) (layout : ModuleLayout) :
    Except DuplicateFault (List ModuleFile) := do
  let parts ← Kind.all.mapM (package.kindModules layout)
  return .empty (package.pathTo [ModuleFile.initialName]) none :: parts.flatten

end Package

end RosInterface
