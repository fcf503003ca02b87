/-
# RosInterface.Compile -- from installations to generated modules

A run finds the packages of some installations, reads every definition, refuses
names that are taken twice, generates the modules and, where an output folder is
set, writes them.  Nothing is written before everything has been generated.

Every definition is read before any failure is reported.  A file that ends the
request does so whatever else is wrong; otherwise the first diagnostic is reported
or, in a run that collects, all of them in file order.
-/
import RosInterface.Install.Package
import RosInterface.Output.Source

set_option autoImplicit false

namespace RosInterface

/-- Why a run gives nothing. -/
inductive CompileFailure where
  | single (failure : Failure)
  /-- Every diagnostic of a run that collects them. -/
  | collected (diagnostics : List Diagnostic)
  deriving DecidableEq

/-- Several diagnostics in one text, each on a line of its own. -/
def Diagnostic.collectedText (diagnostics : List Diagnostic) : Text :=
  Text.joined "\n"
    ((Text.ofNat diagnostics.length ++ " interface file(s) failed to parse:") ::
      diagnostics.map fun d => "  " ++ d.text)

abbrev CompileOutcome (α : Type) := Except CompileFailure α

def Outcome.lift {α : Type} (outcome : Outcome α) : CompileOutcome α :=
  outcome.mapError .single

/-- Names and values of the environment. -/
abbrev Environment := List (Text × Text)

structure Settings where
  /-- Locations to search, in order. -/
  locations : List Path
  /-- Whether the locations in the environment are searched too. -/
  searchEnvironment : Bool
  excluded : List Text
  /-- Where generated modules are written. -/
  output : Option Path
  layout : ModuleLayout
  /-- The number of workers, which changes no result. -/
  workers : Option Int
  /-- Report the first diagnostic, and not all of them. -/
  failFast : Bool
  comments : Bool
  deriving DecidableEq

namespace Settings

/-- The packages that are passed over where nothing else is said. -/
def usuallyExcluded : List Text := ["libstatistics_collector"]

/-- The variable that lists locations, with colons between them. -/
def locationsVariable : Text := "AMENT_PREFIX_PATH"

/-- The locations that the environment lists. -/
def environmentLocations (environment : Environment) : List Path :=
  let value := (environment.lookup locationsVariable).getD []
  ((value.pieces ':').filter fun piece => !piece.isEmpty).map Path.ofText

/-- The settings with the locations of the environment put first.  Settings that
do not search the environment stay as they are. -/
def resolve (settings : Settings) (environment : Environment) : Settings :=
  if settings.searchEnvironment then
    { settings with
      locations := environmentLocations environment ++ settings.locations
      searchEnvironment := false }
  else settings

end Settings

/-- The definition in a file that an index names.  What the file system says of a
file that cannot be read becomes a diagnostic. -/
def InstalledPackage.readDefinition (tree : FileTree) (package : Text) (path : Path) :
    Outcome Interface :=
  match Interface.ofFile tree package path with
  | .error (.abort (.file fault)) =>
      match fault.text? with
      | some report =>
          .error (.diagnostic ((Diagnostic.ofFault (.file (.unreadable report))).withPath path))
      | none => .abort (.file fault)
  | outcome => outcome

namespace Outcome

variable {α : Type}

def abort? : Outcome α → Option Abort
  | .error (.abort abort) => some abort
  | _ => none

def diagnostic? : Outcome α → Option Diagnostic
  | .error (.diagnostic diagnostic) => some diagnostic
  | _ => none

def value? : Outcome α → Option α
  | .ok value => some value
  | .error _ => none

end Outcome

namespace Compile

/-- The outcomes of the definitions of a package, in index order. -/
def outcomes (tree : FileTree) (package : InstalledPackage) : List (Outcome Interface) :=
  package.paths.map (InstalledPackage.readDefinition tree package.name)

/-- The packages of some outcomes, or how their failures are reported. -/
def assemble (failFast : Bool) (read : List (InstalledPackage × List (Outcome Interface))) :
    CompileOutcome (List Package) :=
  let all := read.flatMap (·.2)
  match all.findSome? (·.abort?) with
  | some abort => .error (.single (.abort abort))
  | none =>
      match all.filterMap (·.diagnostic?) with
      | [] =>
          .ok (read.map fun (package, outcomes) =>
            .ofInterfaces package.name (outcomes.filterMap (·.value?)) package.shareFiles)
      | first :: others =>
          .error (if failFast then .single (.diagnostic first) else .collected (first :: others))

/-- Read every definition of some packages. -/
def readPackages (tree : FileTree) (workers : Option Int) (failFast : Bool)
    (found : List InstalledPackage) : CompileOutcome (List Package) :=
  if workers.any (· ≤ 0) then .error (.single (.abort .noWorkers))
  else assemble failFast (found.map fun package => (package, outcomes tree package))

/-- The first declaration of a package that comes twice. -/
def repeatedDeclaration? (package : Package) : Option DuplicateFault :=
  let names := package.declarationNames
  (names.find? fun declared => 1 < names.count declared).map fun (kind, name) =>
    .declaration package.name kind name

/-- The names of the packages, in order; none may come twice, and no declaration
of a package may. -/
def checkDuplicates (packages : List Package) (found : List InstalledPackage) :
    Except DuplicateFault (List Text) :=
  let names := Text.sort (packages.map (·.name))
  match names.find? fun name => 1 < names.count name with
  | some name =>
      let sources := (found.filter fun package => package.name = name).map (·.location.text)
      .error (.package name sources)
  | none =>
      match packages.findSome? repeatedDeclaration? with
      | some fault => .error fault
      | none => .ok names

/-- Write one source below a folder. -/
def writeSource (folder : Path) (tree : FileTree) (source : Path × Text) : Outcome FileTree :=
  let path := folder ++ source.1
  let written : Except FileFault FileTree := do
    let tree ← tree.makeFolders path.parent
    tree.writeText path source.2
  match written with
  | .ok tree => .ok tree
  | .error fault => .abort (.file fault)

/-- Sources by path. -/
def inOrder (sources : Sources) : Sources := sources.mergeSort fun a b => a.1.le b.1

/-- Write some sources below a folder, by path. -/
def writeSources (folder : Path) (tree : FileTree) (sources : Sources) :
    Outcome (FileTree × List Path) := do
  let ordered := inOrder sources
  let tree ← ordered.foldlM (writeSource folder) tree
  return (tree, ordered.map fun source => folder ++ source.1)

/-- What a run gives. -/
structure Result where
  /-- Every package that was found. -/
  packageNames : List Text
  /-- The packages that define anything, by name. -/
  packages : List Package
  sources : Sources
  generatedFiles : List Path
  /-- The tree after the run. -/
  tree : FileTree

/-- Everything up to writing: names, packages and sources. -/
def generate (settings : Settings) (tree : FileTree) :
    CompileOutcome (List Text × List Package × Sources) := do
  let found ← (InstalledPackage.discover tree settings.excluded settings.locations).lift
  let packages ← readPackages tree settings.workers settings.failFast found
  match checkDuplicates packages found with
  | .error fault => (Outcome.fault (.duplicate fault)).lift
  | .ok names => do
      let packages := (Text.sortOn (·.name) packages).filter fun package => !package.isEmpty
      let sources ← (Sources.ofPackages packages settings.layout settings.comments).lift
      return (names, packages, sources)

/-- A whole run. -/
def run (settings : Settings) (environment : Environment) (tree : FileTree) :
    CompileOutcome Result := do
  let settings := settings.resolve environment
  let (packageNames, packages, sources) ← generate settings tree
  match settings.output with
  | none => return { packageNames, packages, sources, generatedFiles := [], tree }
  | some folder => do
      let (tree, generatedFiles) ← (writeSources folder tree sources).lift
      return { packageNames, packages, sources, generatedFiles, tree }

end Compile

end RosInterface
