/-
# RosInterface.Install.Package -- the packages of some installations

An installation is a folder, its *location*; the resource index lies below its
share folder, and so do the definitions.  A location without an index has no
packages.  Packages come in the order of the locations and, within one, by name;
names that are excluded are passed over before their index is read, but not before
they have been looked up.
-/
import RosInterface.Definition.File
import RosInterface.Install.Index

set_option autoImplicit false

namespace RosInterface

/-- A package as it was found at a location. -/
structure InstalledPackage where
  name : Text
  location : Path
  entries : List IndexEntry
  deriving DecidableEq

namespace InstalledPackage

/-- The definition files, relative to the share folder, in index order. -/
def shareFiles (package : InstalledPackage) : List Path :=
  package.entries.map fun entry =>
    Path.ofText package.name ++ Path.ofText entry.kind.text ++ entry.file

/-- The definition files, in index order. -/
def paths (package : InstalledPackage) : List Path :=
  package.shareFiles.map fun file => package.location ++ Path.ofText "share" ++ file

/-- The folder of the index, below a location. -/
def indexFolder (location : Path) : Path :=
  location ++ Path.ofText "share/ament_index/resource_index/rosidl_interfaces"

/-- The entries of the index of a location, by name.  Where there is no index there are
none; only a path that is too long to be looked up is no answer. -/
def indexEntries (tree : FileTree) (location : Path) : Outcome (List (Text × Bool)) :=
  match tree.find (indexFolder location) with
  | .ok node => .ok (Text.sortOn (·.1) node.listing)
  | .error .nameTooLong => .abort (.file .nameTooLong)
  | .error _ => .ok []

/-- The path of one file of the index. -/
def indexFile (location : Path) (name : Text) : Path :=
  let folder := indexFolder location
  ⟨folder.anchor, folder.components ++ [name]⟩

/-- The package that an index file describes. -/
def ofIndexFile (tree : FileTree) (location : Path) (name : Text) : Outcome InstalledPackage := do
  let path := indexFile location name
  let bytes ← tree.bytes path
  match Utf8.decode bytes with
  | .error _ => .abort .undecodableIndex
  | .ok text => do
      let entries ← IndexEntry.ofText path text.unifyNewlines
      return ⟨name, location, entries⟩

/-- The package of an entry of the index, which is a name and whether it is that of a folder.
Folders and excluded names have none.  They are looked up before they are passed over, and a path
that is too long for that is no answer. -/
def ofIndexEntry (tree : FileTree) (excluded : List Text) (location : Path) (entry : Text × Bool) :
    Outcome (Option InstalledPackage) :=
  match FileTree.checkPath (indexFile location entry.1) with
  | .error .nameTooLong => .abort (.file .nameTooLong)
  | _ =>
      if entry.2 ∨ entry.1 ∈ excluded then .ok none
      else (ofIndexFile tree location entry.1).map some

/-- The packages at one location. -/
def atLocation (tree : FileTree) (excluded : List Text) (location : Path) :
    Outcome (List InstalledPackage) := do
  let entries ← indexEntries tree location
  let found ← entries.mapM (ofIndexEntry tree excluded location)
  return found.filterMap id

/-- The packages at several locations. -/
def discover (tree : FileTree) (excluded : List Text) (locations : List Path) :
    Outcome (List InstalledPackage) := do
  let parts ← locations.mapM (atLocation tree excluded)
  return parts.flatten

end InstalledPackage

end RosInterface
