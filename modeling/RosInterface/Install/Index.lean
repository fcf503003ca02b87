/-
# RosInterface.Install.Index -- the resource index of an installation

An installation lists its interface packages in one folder: a file for each
package, named like it, whose lines name interface files by kind.  `msg/Foo.idl`
stands for the definition `Foo.msg` of the package; lines with another suffix
concern other tools and are passed over.
-/
import RosInterface.Diagnostic
import RosInterface.Text.Blank
import RosInterface.Text.Line

set_option autoImplicit false

namespace RosInterface

/-- A definition that an index names: its kind, and its file below the folder of
that kind. -/
structure IndexEntry where
  kind : Kind
  file : Path
  deriving DecidableEq

namespace IndexEntry

def name (entry : IndexEntry) : Text := entry.file.stem

def listedSuffix : Text := ".idl"

/-- The entry that a line stands for, if it names an interface file. -/
def ofLine (line : Text) : Outcome (Option IndexEntry) :=
  let line := line.trim
  if listedSuffix.isSuffixOf line then
    match Kind.ofText? (line.takeWhile (· ≠ CodePoint.slash)) with
    | none => .fault (.structural (.indexKind line))
    | some kind =>
        let file := (line.dropWhile (· ≠ CodePoint.slash)).drop 1
        if file.isEmpty then .fault (.structural (.indexFile line))
        else .ok (some ⟨kind, (Path.ofText file).withSuffix kind.suffix⟩)
  else .ok none

/-- The entries of an index file, whose path goes into every diagnostic. -/
def ofText (path : Path) (text : Text) : Outcome (List IndexEntry) := do
  let entries ← (Text.numbered text.lines).mapM fun (number, line) =>
    (ofLine line).mapDiagnostic fun d => (d.withPath path).withLine number
  return entries.filterMap id

end IndexEntry

end RosInterface
