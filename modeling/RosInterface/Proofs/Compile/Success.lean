/-
# RosInterface.Proofs.Compile.Success -- when a run can no longer fail

Once every definition has been read, little is left to go wrong.  The packages of a run are
parsed (`Compile.Stages.parsed`), so everything that is known of parsed packages holds of them;
and unless each definition is to have a module of its own, names and definitions that do not
come twice are all that generation needs (`Compile.exists_generate`).
-/
import RosInterface.Proofs.Compile.Run
import RosInterface.Proofs.Output.Collisions

set_option autoImplicit false

namespace RosInterface.Compile

variable {settings : Settings} {tree : FileTree} {found : List InstalledPackage}

/-- A package of definitions that were read is parsed. -/
theorem parsed_packageOf {p : InstalledPackage}
    (values : ∀ outcome ∈ outcomes tree p, ∃ value, outcome = .ok value) :
    (packageOf tree p).Parsed := by
  refine ⟨_, rfl, fun i member => ?_⟩
  obtain ⟨outcome, inOutcomes, isValue⟩ := List.mem_filterMap.1 member
  obtain ⟨value, rfl⟩ := values outcome inOutcomes
  cases isValue
  obtain ⟨path, -, read⟩ := List.mem_map.1 inOutcomes
  obtain ⟨kind, -, text, -, -, -, parsed⟩ :=
    Interface.ofFile_eq_ok_iff.1 (InstalledPackage.readDefinition_eq_ok_iff.1 read)
  exact ⟨kind, path.stem, text, parsed⟩

/-- **The packages of a run are parsed.** -/
theorem Stages.parsed {names : List Text} {packages : List Package}
    (stages : Stages settings tree found names packages) : ∀ p ∈ packages, p.Parsed := by
  intro package kept
  obtain ⟨p, member, rfl, -⟩ := stages.mem_packages.1 kept
  exact parsed_packageOf (stages.values p member)

/-- A package that was found declares its entries. -/
theorem perm_declared
    (discovered : InstalledPackage.discover tree settings.excluded settings.locations = .ok found)
    (values : ∀ p ∈ found, ∀ outcome ∈ outcomes tree p, ∃ value, outcome = .ok value)
    {p : InstalledPackage} (member : p ∈ found) :
    (packageOf tree p).declarationNames.Perm
      (p.entries.map fun entry => (entry.kind, entry.name)) := by
  obtain ⟨-, lines, -, each⟩ := InstalledPackage.of_mem_discover discovered member
  refine perm_declarationNames (values p member) ?_
  exact Outcome.forall_mem_of_forall₂ each fun _ _ read => (IndexEntry.names_of_ofLine read).2

/-- Definitions that were read are generated when no name comes twice, in a layout that does
not give each of them a module. -/
theorem exists_generate (positive : ∀ count, settings.workers = some count → 0 < count)
    (discovered : InstalledPackage.discover tree settings.excluded settings.locations = .ok found)
    (values : ∀ p ∈ found, ∀ outcome ∈ outcomes tree p, ∃ value, outcome = .ok value)
    (nodup : (found.map (·.name)).Nodup)
    (distinct : ∀ p ∈ found, (p.entries.map fun entry => (entry.kind, entry.name)).Nodup)
    (layout : settings.layout ≠ .declaration) :
    ∃ packages sources, Stages settings tree found (Text.sort (found.map (·.name))) packages ∧
      generate settings tree = .ok (Text.sort (found.map (·.name)), packages, sources) := by
  let packages := (Text.sortOn Package.name (found.map (packageOf tree))).filter
    fun package => !package.isEmpty
  have stages : Stages settings tree found (Text.sort (found.map (·.name))) packages :=
    { discovered, values, names_eq := rfl, nodup
      distinct := fun p member =>
        (perm_declared discovered values member).nodup_iff.2 (distinct p member)
      packages_eq := rfl }
  have rendered :
      ∃ sources, Sources.ofPackages packages settings.layout settings.comments = .ok sources := by
    by_contra none_
    obtain ⟨failure, failed⟩ := Outcome.exists_error_iff.2 none_
    exact layout ((Sources.ofPackages_eq_error_iff stages.parsed).1 failed).1
  obtain ⟨sources, rendered⟩ := rendered
  exact ⟨packages, sources, stages, generate_eq_ok_iff.2 ⟨positive, ⟨found, stages⟩, rendered⟩⟩

theorem run_of_generate {environment : Environment} {names : List Text} {packages : List Package}
    {sources : Sources} (noOutput : (settings.resolve environment).output = none)
    (generated : generate (settings.resolve environment) tree = .ok (names, packages, sources)) :
    run settings environment tree = .ok ⟨names, packages, sources, [], tree⟩ := by
  rw [run_eq_ok_iff, noOutput]
  exact ⟨generated, rfl, rfl⟩

/-! ## Two installations -/

/-- Empty files are read as messages. -/
theorem values_of_empty {p : InstalledPackage}
    (empty : ∀ path ∈ p.paths, path.suffix = Kind.message.suffix ∧ tree.read path = .ok []) :
    ∀ outcome ∈ outcomes tree p, ∃ value, outcome = .ok value := by
  intro outcome inOutcomes
  obtain ⟨path, inPaths, rfl⟩ := List.mem_map.1 inOutcomes
  obtain ⟨suffix, file⟩ := empty path inPaths
  exact ⟨_, readDefinition_of_empty suffix file⟩

/-- An installation with one package, which has an index and some empty messages. -/
def sampleInstallation (name index : Text) (messages : List Text) : Node :=
  .folder [("share", .folder
    [("ament_index", .folder [("resource_index", .folder [("rosidl_interfaces", .folder
      [(name, .file (index.flatMap Utf8.bytesOf))])])]),
     (name, .folder [("msg", .folder (messages.map fun file => (file, .file [])))])])]

def pairIndex : Text := "msg/A.idl\nmsg/B.idl\n"

/-- Two installations, of which the first has a package with two messages and the second one
with one. -/
def pairTree : FileTree where
  root := .folder [("a", sampleInstallation "p" pairIndex ["A.msg", "B.msg"]),
    ("b", sampleInstallation "q" "msg/C.idl\n" ["C.msg"])]
  workingFolder := []

def pairSettings : Settings :=
  { sampleSettings with locations := [⟨.root, ["a"]⟩, ⟨.root, ["b"]⟩] }

def messageEntry (file : Text) : IndexEntry := ⟨.message, ⟨.none, [file]⟩⟩

def pairFound : List InstalledPackage :=
  [⟨"p", ⟨.root, ["a"]⟩, [messageEntry "A.msg", messageEntry "B.msg"]⟩,
   ⟨"q", ⟨.root, ["b"]⟩, [messageEntry "C.msg"]⟩]

theorem pairTree_discover : InstalledPackage.discover pairTree [] pairSettings.locations =
    .ok pairFound := by
  have first : InstalledPackage.atLocation pairTree [] ⟨.root, ["a"]⟩ =
      .ok [⟨"p", ⟨.root, ["a"]⟩, [messageEntry "A.msg", messageEntry "B.msg"]⟩] := by
    have decoded : Utf8.decode (pairIndex.flatMap Utf8.bytesOf) = .ok pairIndex := by
      decide +kernel
    have each : pairIndex.unifyNewlines.lines.mapM IndexEntry.ofLine =
        .ok [some (messageEntry "A.msg"), some (messageEntry "B.msg")] := by decide +kernel
    exact InstalledPackage.atLocation_of_single rfl List.not_mem_nil rfl decoded each
  have second : InstalledPackage.atLocation pairTree [] ⟨.root, ["b"]⟩ =
      .ok [⟨"q", ⟨.root, ["b"]⟩, [messageEntry "C.msg"]⟩] := by
    have decoded : Utf8.decode (("msg/C.idl\n" : Text).flatMap Utf8.bytesOf) =
        .ok "msg/C.idl\n" := by decide +kernel
    have each : (("msg/C.idl\n" : Text).unifyNewlines.lines.mapM IndexEntry.ofLine) =
        .ok [some (messageEntry "C.msg")] := by decide +kernel
    exact InstalledPackage.atLocation_of_single rfl List.not_mem_nil rfl decoded each
  exact Outcome.bind_eq_ok_iff.2
    ⟨_, Outcome.mapM_eq_ok_iff.2 (.cons first (.cons second .nil)), rfl⟩

theorem pairTree_values : ∀ p ∈ pairFound, ∀ outcome ∈ outcomes pairTree p,
    ∃ value, outcome = .ok value := by
  have empty : ∀ p ∈ pairFound, ∀ path ∈ p.paths,
      path.suffix = Kind.message.suffix ∧ pairTree.read path = .ok [] := by decide +kernel
  exact fun p member => values_of_empty (empty p member)

theorem pairTree_run : ∃ result, run pairSettings [] pairTree = .ok result ∧
    result.packageNames = ["p", "q"] := by
  have discovered : InstalledPackage.discover pairTree pairSettings.excluded
      pairSettings.locations = .ok pairFound := pairTree_discover
  obtain ⟨packages, sources, -, generated⟩ := exists_generate (fun _ none_ => by cases none_)
    discovered pairTree_values (by decide) (by decide) (by decide)
  have returned : run pairSettings [] pairTree =
      .ok ⟨Text.sort (pairFound.map (·.name)), packages, sources, [], pairTree⟩ :=
    run_of_generate rfl generated
  exact ⟨_, returned, Text.sortOn_of_pairwise (by decide)⟩

end RosInterface.Compile
