/-
# RosInterface.Main -- the command line

A command is a function of a file tree, so the program first puts into one tree
what the command can ask for: the index of every location and the definitions
that the indexes name, or the single file that is to be described.  The command is
performed on that tree, the files that it changes are written to disk, and what it
shows is printed.
-/
import RosInterface.Console.Plain
import RosInterface.Files.Snapshot

set_option autoImplicit false

namespace RosInterface.Terminal

/-- A text as it is printed; a surrogate is printed as the replacement sign. -/
def spelled (s : Text) : String :=
  String.ofList (s.map fun c => if c.isSurrogate then '\ufffd' else Char.ofNat c.val)

/-- Put into a tree what stands on disk along a path. -/
def load (tree : FileTree) (path : Path) : IO FileTree := do
  let workingFolder ← IO.currentDir
  let steps := List.range path.components.length
  steps.foldlM (fun tree count => do
    let part : Path := ⟨path.anchor, path.components.take (count + 1)⟩
    let found := workingFolder / spelled part.text
    if ← found.isDir then return tree.put part none
    else
      try return tree.put part (some (← IO.FS.readBinFile found).toList)
      catch _ => return tree) tree

def loadAll (tree : FileTree) (paths : List Path) : IO FileTree := paths.foldlM load tree

/-- The names in a folder on disk, none where there is no such folder. -/
def namesIn (folder : Path) : IO (List Text) := do
  let workingFolder ← IO.currentDir
  try
    let entries ← (workingFolder / spelled folder.text).readDir
    return entries.toList.map fun entry => Text.ofString entry.fileName
  catch _ => return []

/-- Put the index of a location into a tree. -/
def loadIndex (tree : FileTree) (location : Path) : IO FileTree := do
  let tree ← load tree (InstalledPackage.indexFolder location)
  let names ← namesIn (InstalledPackage.indexFolder location)
  loadAll tree (names.map (InstalledPackage.indexFile location))

/-- The tree that a command is performed on. -/
def treeFor (environment : Environment) (command : Command) : IO FileTree := do
  let workingFolder := Path.componentsOf (Text.ofString (← IO.currentDir).toString)
  let tree := FileTree.emptyAt workingFolder
  match command with
  | .stems _ => return tree
  | .describe file _ => load tree file
  | .generate settings => do
      let settings := settings.resolve environment
      let tree ← settings.locations.foldlM loadIndex tree
      match InstalledPackage.discover tree settings.excluded settings.locations with
      | .error _ => return tree
      | .ok found => loadAll tree (found.flatMap (·.paths))

/-- Write to disk what a command has changed. -/
def store (before after : FileTree) : IO Unit :=
  (before.changedFiles after).forM fun (place, bytes) => do
    let spell (place : List Text) : String := spelled (Path.text ⟨.root, place⟩)
    IO.FS.createDirAll (spell place.dropLast)
    IO.FS.writeBinFile (spell place) ⟨bytes.toArray⟩

def print (shown : Stream × Shown) : IO Unit :=
  shown.2.plainLines.forM fun line =>
    match shown.1 with
    | .out => IO.println (spelled line)
    | .err => IO.eprintln (spelled line)

/-- The environment, as far as commands look at it. -/
def readEnvironment : IO Environment := do
  match ← IO.getEnv (spelled Settings.locationsVariable) with
  | some value => return [(Settings.locationsVariable, Text.ofString value)]
  | none => return []

def usage : String :=
  "usage: generate [LOCATION ...] -o FOLDER [--layout package|declaration|single] " ++
    "[--single-file] [--exclude NAME] [--no-search-env] [-j N] [--collect-errors]\n" ++
    "       show FILE [-p PACKAGE]\n" ++
    "       symbol NAME ..."

/-- Perform one command; the answer is the exit status. -/
def perform (command : Command) : IO UInt32 := do
  let environment ← readEnvironment
  let before ← treeFor environment command
  match command.perform environment before with
  | .error failure => do
      IO.eprintln (spelled failure.text)
      return 1
  | .ok report => do
      store before report.tree
      report.shown.forM print
      return report.status.toUInt32

end RosInterface.Terminal

open RosInterface in
def main (arguments : List String) : IO UInt32 :=
  match Command.ofArguments? (arguments.map Text.ofString) with
  | some command => Terminal.perform command
  | none => do
      IO.eprintln Terminal.usage
      return 1
