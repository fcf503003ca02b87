/-
# RosInterface.Files.Snapshot -- file trees and lists of files

A tree can be built from what is found at single paths and be taken apart into its
files.  `FileTree.put` puts a folder or a file at a path and creates the
folders on the way; a folder that is there already keeps its entries.
`Node.files` lists every file with its place, in the order of the entries, and
`FileTree.changedFiles` are those that a tree has and an earlier one had not.
-/
import RosInterface.Files.Tree

set_option autoImplicit false

namespace RosInterface

namespace Node

/-- The tree with the node at the end of a walk changed, where missing folders on
the walk count as empty ones. -/
def adjust (change : Node → Node) : List Text → Node → Node
  | [], node => change node
  | name :: rest, node =>
      .folder (setEntry name (adjust change rest ((node.child? name).getD .empty)) node.entries)

mutual

/-- The files of a tree with their places below `place`. -/
def files (place : List Text) : Node → List (List Text × List UInt8)
  | .file bytes => [(place, bytes)]
  | .folder entries => filesOfEntries place entries

/-- The files of some entries of the folder at `place`. -/
def filesOfEntries (place : List Text) : List (Text × Node) → List (List Text × List UInt8)
  | [] => []
  | (name, node) :: rest => node.files (place ++ [name]) ++ filesOfEntries place rest

end

end Node

namespace FileTree

/-- A tree with no files, whose relative paths start from the given place. -/
def emptyAt (workingFolder : List Text) : FileTree :=
  ⟨Node.adjust id workingFolder .empty, workingFolder⟩

/-- Where a path leads when its dot-dots are taken off. -/
def placeOf (tree : FileTree) (path : Path) : List Text :=
  Path.collapsed (tree.start path ++ path.components)

/-- The tree with a folder at a path, or with a file where bytes are given. -/
def put (tree : FileTree) (path : Path) (bytes : Option (List UInt8)) : FileTree :=
  let change : Node → Node := match bytes with
    | some bytes => fun _ => .file bytes
    | none => id
  { tree with root := tree.root.adjust change (tree.placeOf path) }

/-- The files below a folder with their places there, where the folder exists. -/
def filesBelow? (tree : FileTree) (folder : Path) : Option (List (List Text × List UInt8)) :=
  match tree.find folder with
  | .ok (.folder entries) => some (Node.filesOfEntries [] entries)
  | _ => none

/-- The files that were not there before, or held something else. -/
def changedFiles (before after : FileTree) : List (List Text × List UInt8) :=
  (after.root.files []).filter fun (place, bytes) =>
    match before.root.get? place with
    | some (.file earlier) => earlier != bytes
    | _ => true

end FileTree

end RosInterface
