/-
# RosInterface.Files.Tree -- a file tree as a value

A tree is a folder of named files and folders, and `FileTree` adds the folder
that relative paths start from.  Everything that the library does with files is a
function of such a value: reading looks a path up, writing answers the tree
after.  There are no links, so a path means the place that its components walk
to; two dots step back to the folder above, and the root is above itself.

A step fails as the file system would say it: nothing there, or a file where a
folder is needed.  `makeFolders` creates what is missing on the way to a folder,
the outermost first, and an existing folder is no fault.  Names are told apart by
their code points.
-/
import RosInterface.Files.Path
import RosInterface.Files.Utf8

set_option autoImplicit false

namespace RosInterface

/-- Why a path cannot be read or written. -/
inductive FileFault where
  | missing
  | isFolder
  | notFolder
  | exists
  | nameTooLong
  /-- The path holds a zero code point, which no file system is asked about. -/
  | zeroInPath
  /-- The text or the path holds a surrogate that has no bytes. -/
  | unencodable
  deriving DecidableEq

/-- What the file system says of a fault; `none` where it is never asked. -/
def FileFault.text? : FileFault → Option Text
  | .missing => some "No such file or directory"
  | .isFolder => some "Is a directory"
  | .notFolder => some "Not a directory"
  | .exists => some "File exists"
  | .nameTooLong => some "File name too long"
  | .zeroInPath => none
  | .unencodable => none

/-- A file with its bytes, or a folder with its entries. -/
inductive Node where
  | file (bytes : List UInt8)
  | folder (entries : List (Text × Node))

namespace Node

def empty : Node := .folder []

def entries : Node → List (Text × Node)
  | .file _ => []
  | .folder entries => entries

def isFolder : Node → Bool
  | .file _ => false
  | .folder _ => true

/-- The entries of a folder with what each of them is. -/
def listing (node : Node) : List (Text × Bool) :=
  node.entries.map fun entry => (entry.1, entry.2.isFolder)

def child? (node : Node) (name : Text) : Option Node := node.entries.lookup name

/-- The node at the end of a walk downwards. -/
def get? (node : Node) : List Text → Option Node
  | [] => some node
  | name :: rest =>
      match node.child? name with
      | none => none
      | some below => below.get? rest

/-- The entries with one of them set, in its place or at the end. -/
def setEntry (name : Text) (value : Node) : List (Text × Node) → List (Text × Node)
  | [] => [(name, value)]
  | (other, node) :: rest =>
      if other = name then (name, value) :: rest else (other, node) :: setEntry name value rest

/-- The tree with `value` at the end of a walk.  A walk that leaves the tree
before its last step changes nothing. -/
def set (node : Node) (value : Node) : List Text → Node
  | [] => value
  | [name] => .folder (setEntry name value node.entries)
  | name :: rest =>
      match node.child? name with
      | none => node
      | some below => .folder (setEntry name (below.set value rest) node.entries)

end Node

structure FileTree where
  root : Node
  /-- Where relative paths start, from the root down. -/
  workingFolder : List Text

namespace FileTree

/-- Longest name that the file system takes, in bytes. -/
def maximalName : Nat := 255

/-- Longest path that the file system takes, in bytes. -/
def maximalPath : Nat := 4095

def byteLength (s : Text) : Nat := (s.flatMap fun c => (Utf8.nameBytes? c).getD []).length

/-- Why the file system is not even asked about a name. -/
def nameFault? (name : Text) : Option FileFault :=
  if name.any fun c => (Utf8.nameBytes? c).isNone then some .unencodable
  else if name.any fun c => c.val == 0 then some .zeroInPath
  else none

/-- One step of a walk from a place that exists. -/
def step (tree : FileTree) (place : List Text) (name : Text) : Except FileFault (List Text) :=
  match tree.root.get? place with
  | none => .error .missing
  | some (.file _) => .error .notFolder
  | some (.folder entries) =>
      if name = ".." then .ok place.dropLast
      else if maximalName < byteLength name then .error .nameTooLong
      else if (entries.lookup name).isSome then .ok (place ++ [name])
      else .error .missing

def start (tree : FileTree) (path : Path) : List Text :=
  if path.anchor = .none then tree.workingFolder else []

def checkPath (path : Path) : Except FileFault Unit :=
  match nameFault? path.components.flatten with
  | some fault => .error fault
  | none => if maximalPath < byteLength path.text then .error .nameTooLong else .ok ()

/-- The place that a path leads to. -/
def locate (tree : FileTree) (path : Path) : Except FileFault (List Text) := do
  checkPath path
  path.components.foldlM tree.step (tree.start path)

/-- The node that a path leads to. -/
def find (tree : FileTree) (path : Path) : Except FileFault Node := do
  let place ← tree.locate path
  match tree.root.get? place with
  | some node => .ok node
  | none => .error .missing

def isFolder (tree : FileTree) (path : Path) : Bool :=
  match tree.find path with
  | .ok node => node.isFolder
  | .error _ => false

/-- The bytes of the file at a path. -/
def read (tree : FileTree) (path : Path) : Except FileFault (List UInt8) := do
  match ← tree.find path with
  | .file bytes => .ok bytes
  | .folder _ => .error .isFolder

/-- The place of the last component of a path, whose folder must exist. -/
def target (tree : FileTree) (path : Path) (name : Text) : Except FileFault (List Text) := do
  checkPath path
  let folder ← path.components.dropLast.foldlM tree.step (tree.start path)
  match tree.root.get? folder with
  | some (.folder _) =>
      if maximalName < byteLength name then .error .nameTooLong else .ok (folder ++ [name])
  | some (.file _) => .error .notFolder
  | none => .error .missing

/-- Create one folder. -/
def makeFolder (tree : FileTree) (path : Path) : Except FileFault FileTree :=
  match path.components.getLast? with
  | none => .error .exists
  | some name => do
      let place ← tree.target path name
      if name = ".." ∨ (tree.root.get? place).isSome then .error .exists
      else .ok { tree with root := tree.root.set .empty place }

/-- A folder that exists already is as good as a new one. -/
def tolerate (tree : FileTree) (path : Path) : Except FileFault FileTree → Except FileFault FileTree
  | .ok after => .ok after
  | .error .missing => .error .missing
  | .error fault => if tree.isFolder path then .ok tree else .error fault

/-- Create the folder of the first `count` components and all that is missing
above it. -/
def makeFoldersTo (tree : FileTree) (path : Path) : Nat → Except FileFault FileTree
  | 0 => tolerate tree ⟨path.anchor, []⟩ (tree.makeFolder ⟨path.anchor, []⟩)
  | count + 1 =>
      let here : Path := ⟨path.anchor, path.components.take (count + 1)⟩
      match tree.makeFolder here with
      | .error .missing => do
          let tree ← tree.makeFoldersTo path count
          tolerate tree here (tree.makeFolder here)
      | outcome => tolerate tree here outcome

def makeFolders (tree : FileTree) (path : Path) : Except FileFault FileTree :=
  tree.makeFoldersTo path path.components.length

/-- Write a file, replacing what it held. -/
def write (tree : FileTree) (path : Path) (bytes : List UInt8) : Except FileFault FileTree :=
  match path.components.getLast? with
  | none => .error .isFolder
  | some name => do
      let place ← tree.target path name
      match if name = ".." then some .empty else tree.root.get? place with
      | some (.folder _) => .error .isFolder
      | _ => .ok { tree with root := tree.root.set (.file bytes) place }

/-- Write a text.  The file is opened before there are any bytes to write. -/
def writeText (tree : FileTree) (path : Path) (text : Text) : Except FileFault FileTree :=
  match Utf8.encode? text with
  | some bytes => tree.write path bytes
  | none => do
      let _ ← tree.write path []
      .error .unencodable

end FileTree

end RosInterface
