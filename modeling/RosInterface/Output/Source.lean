/-
# RosInterface.Output.Source -- generated files

The sources of some packages are texts with their paths, in the order in which
they are generated.  A path that comes again keeps its place and takes the new
text.
-/
import RosInterface.Output.Render

set_option autoImplicit false

namespace RosInterface

/-- Generated texts with their paths. -/
abbrev Sources := List (Path × Text)

namespace Sources

/-- The sources with one text set, in its place or at the end. -/
def set (path : Path) (text : Text) : Sources → Sources
  | [] => [(path, text)]
  | (other, old) :: rest =>
      if other = path then (path, text) :: rest else (other, old) :: set path text rest

/-- The sources with those of another list set in turn. -/
def merge (sources more : Sources) : Sources :=
  more.foldl (fun sources (path, text) => sources.set path text) sources

/-- The name of the single file, where no other is asked for. -/
def singleFileName : Text := "interfaces.py"

/-- One file with everything. -/
def ofSingleFile (packages : List Package) (comments : Bool) (fileName : Text) :
    Outcome Sources := do
  let nested ← packages.mapM (·.nestedSteps)
  let steps := ModuleFile.banner :: (ModuleFile.preamble ++ nested.flatten)
  return [(Path.ofText fileName, ((Writer.new comments).run steps).text)]

/-- The modules of one package. -/
def ofPackage (package : Package) (layout : ModuleLayout) (comments : Bool) : Outcome Sources :=
  match layout with
  | .single => ofSingleFile [package] comments singleFileName
  | _ =>
      match package.modules layout with
      | .error fault => .fault (.duplicate fault)
      | .ok files => do
          let texts ← files.mapM (·.text layout comments)
          return merge [] ((files.map (·.path)).zip texts)

/-- The modules of several packages. -/
def ofPackages (packages : List Package) (layout : ModuleLayout) (comments : Bool) :
    Outcome Sources :=
  match layout with
  | .single => ofSingleFile packages comments singleFileName
  | _ => do
      let parts ← packages.mapM fun package => ofPackage package layout comments
      return parts.foldl merge []

end Sources

end RosInterface
