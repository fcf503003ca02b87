/-
# RosInterface.Definition.File -- a definition from its file

The suffix of a file tells its kind and the stem its name.  The file is read as
UTF-8 with every kind of line end; what is not UTF-8 is reported with the place
of the first bad byte.  Every diagnostic carries the path.
-/
import RosInterface.Definition.Text
import RosInterface.Files.Tree

set_option autoImplicit false

namespace RosInterface

/-- The kind of definition that a file holds. -/
def Kind.ofPath (path : Path) : Outcome Kind :=
  match Kind.all.find? fun kind => kind.suffix = path.suffix with
  | some kind => .ok kind
  | none =>
      .error (.diagnostic
        ((Diagnostic.ofFault (.structural (.unknownSuffix path.suffix))).withPath path))

/-- The bytes of a file; a file that cannot be read ends the request. -/
def FileTree.bytes (tree : FileTree) (path : Path) : Outcome (List UInt8) :=
  match tree.read path with
  | .ok bytes => .ok bytes
  | .error fault => .abort (.file fault)

namespace Interface

/-- The text of a definition file. -/
def decode (bytes : List UInt8) : Outcome Text :=
  match Utf8.decode bytes with
  | .ok text => .ok text.unifyNewlines
  | .error fault => .fault (.file (.undecodable fault))

/-- The definition that a file holds, taken to be of the given kind. -/
def ofFileAs (tree : FileTree) (kind : Kind) (package : Text) (path : Path) :
    Outcome Interface :=
  Outcome.mapDiagnostic (·.withPath path) do
    let bytes ← tree.bytes path
    let text ← decode bytes
    ofText kind package path.stem text

/-- The definition that a file holds. -/
def ofFile (tree : FileTree) (package : Text) (path : Path) : Outcome Interface := do
  let kind ← Kind.ofPath path
  ofFileAs tree kind package path

end Interface

end RosInterface
