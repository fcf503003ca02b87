/-
# RosInterface.Proofs.Compile.Run -- the stages of a run

A run that ends well has found some packages, has read every definition of them, has refused no
name, and has left out the packages that define nothing (`Compile.Stages`).  It goes through
these stages and then writes, and there is no other way to end well (`Compile.run_eq_ok_iff`,
`Compile.generate_eq_ok_iff`).  What the stages say of the names and of the packages is read off
here once, for all that is said of runs.
-/
import RosInterface.Proofs.Compile.Duplicates
import RosInterface.Proofs.Compile.Reading
import Mathlib.Data.List.Nodup

set_option autoImplicit false

namespace RosInterface

theorem Outcome.lift_eq_ok_iff {α : Type} {outcome : Outcome α} {a : α} :
    outcome.lift = .ok a ↔ outcome = .ok a := by
  cases outcome <;> simp [Outcome.lift, Except.mapError]

namespace Compile

/-! ## The stages of a run -/

variable {settings : Settings} {environment : Environment} {tree : FileTree} {result : Result}

/-- What a run leaves in the tree: nothing new where no folder is set, and otherwise its
sources below that folder. -/
def Result.Written (result : Result) (output : Option Path) (tree : FileTree) : Prop :=
  match output with
  | none => result.generatedFiles = [] ∧ result.tree = tree
  | some folder =>
      writeSources folder tree result.sources = .ok (result.tree, result.generatedFiles)

/-- A run generates and then writes. -/
theorem run_eq_ok_iff :
    run settings environment tree = .ok result ↔
      generate (settings.resolve environment) tree =
        .ok (result.packageNames, result.packages, result.sources) ∧
      result.Written (settings.resolve environment).output tree := by
  rw [run, Outcome.bind_eq_ok_iff]
  unfold Result.Written
  cases (settings.resolve environment).output with
  | none =>
      constructor
      · intro ⟨⟨names, packages, sources⟩, generated, rest⟩
        dsimp only at rest
        cases rest
        exact ⟨generated, rfl, rfl⟩
      · intro ⟨generated, noFiles, same⟩
        refine ⟨_, generated, ?_⟩
        dsimp only
        rw [← noFiles, ← same]
        rfl
  | some folder =>
      constructor
      · intro ⟨⟨names, packages, sources⟩, generated, rest⟩
        dsimp only at rest
        obtain ⟨⟨after, files⟩, written, whole⟩ := Outcome.bind_eq_ok_iff.1 rest
        cases whole
        exact ⟨generated, Outcome.lift_eq_ok_iff.1 written⟩
      · intro ⟨generated, written⟩
        refine ⟨_, generated, ?_⟩
        dsimp only
        exact Outcome.bind_eq_ok_iff.2 ⟨_, Outcome.lift_eq_ok_iff.2 written, rfl⟩

/-- What was found on the way to some names and packages: every definition was read, no name
came twice, and packages without definitions were left out. -/
structure Stages (settings : Settings) (tree : FileTree) (found : List InstalledPackage)
    (names : List Text) (packages : List Package) : Prop where
  discovered : InstalledPackage.discover tree settings.excluded settings.locations = .ok found
  values : ∀ p ∈ found, ∀ outcome ∈ outcomes tree p, ∃ value, outcome = .ok value
  names_eq : names = Text.sort (found.map (·.name))
  nodup : (found.map (·.name)).Nodup
  distinct : ∀ p ∈ found, (packageOf tree p).declarationNames.Nodup
  packages_eq : packages = (Text.sortOn Package.name (found.map (packageOf tree))).filter
    fun package => !package.isEmpty

theorem names_packageOf (tree : FileTree) (found : List InstalledPackage) :
    (found.map (packageOf tree)).map (·.name) = found.map (·.name) := by
  rw [List.map_map]
  rfl

/-- Generation goes through its stages and renders the packages that are left. -/
theorem generate_eq_ok_iff {names : List Text} {packages : List Package} {sources : Sources} :
    generate settings tree = .ok (names, packages, sources) ↔
      (∀ count, settings.workers = some count → 0 < count) ∧
        (∃ found, Stages settings tree found names packages) ∧
        Sources.ofPackages packages settings.layout settings.comments = .ok sources := by
  constructor
  · intro generated
    obtain ⟨found, discovered, rest⟩ := Outcome.bind_eq_ok_iff.1 generated
    obtain ⟨all, read, rest⟩ := Outcome.bind_eq_ok_iff.1 rest
    obtain ⟨positive, values, rfl⟩ := readPackages_eq_ok_iff.1 read
    cases checked : checkDuplicates (found.map (packageOf tree)) found with
    | error fault =>
        rw [checked] at rest
        cases rest
    | ok accepted =>
        rw [checked] at rest
        obtain ⟨_, rendered, whole⟩ := Outcome.bind_eq_ok_iff.1 rest
        cases whole
        obtain ⟨sorted, nodup, distinct⟩ := checkDuplicates_eq_ok_iff.1 checked
        rw [names_packageOf] at sorted
        refine ⟨positive, ⟨found, ?_⟩, Outcome.lift_eq_ok_iff.1 rendered⟩
        exact
          { discovered := Outcome.lift_eq_ok_iff.1 discovered
            values
            names_eq := sorted
            nodup := (Text.perm_sort _).nodup_iff.1 (sorted ▸ nodup)
            distinct := fun p member => distinct _ (List.mem_map_of_mem member)
            packages_eq := rfl }
  · intro ⟨positive, ⟨found, stages⟩, rendered⟩
    have checked : checkDuplicates (found.map (packageOf tree)) found = .ok names := by
      rw [checkDuplicates_eq_ok_iff, names_packageOf, stages.names_eq]
      exact ⟨rfl, (Text.perm_sort _).nodup_iff.2 stages.nodup,
        List.forall_mem_map.2 stages.distinct⟩
    refine Outcome.bind_eq_ok_iff.2 ⟨found, Outcome.lift_eq_ok_iff.2 stages.discovered, ?_⟩
    refine Outcome.bind_eq_ok_iff.2
      ⟨_, readPackages_eq_ok_iff.2 ⟨positive, stages.values, rfl⟩, ?_⟩
    rw [checked]
    simp only [← stages.packages_eq]
    exact Outcome.bind_eq_ok_iff.2 ⟨sources, Outcome.lift_eq_ok_iff.2 rendered, rfl⟩

theorem exists_stages (returned : run settings environment tree = .ok result) :
    ∃ found, Stages (settings.resolve environment) tree found result.packageNames
      result.packages := by
  obtain ⟨-, stages, -⟩ := generate_eq_ok_iff.1 (run_eq_ok_iff.1 returned).1
  exact stages

namespace Stages

variable {found : List InstalledPackage} {names : List Text} {packages : List Package}
  (stages : Stages settings tree found names packages)
include stages

theorem mem_names {name : Text} : name ∈ names ↔ ∃ p ∈ found, p.name = name := by
  rw [stages.names_eq, (Text.perm_sort _).mem_iff, List.mem_map]

theorem mem_packages {package : Package} :
    package ∈ packages ↔
      ∃ p ∈ found, packageOf tree p = package ∧ package.declarationNames ≠ [] := by
  rw [stages.packages_eq, List.mem_filter, (Text.perm_sortOn _ _).mem_iff, List.mem_map,
    Bool.not_eq_true', ← Bool.not_eq_true, Package.isEmpty_iff]
  constructor
  · rintro ⟨⟨p, member, same⟩, some_⟩
    exact ⟨p, member, same, some_⟩
  · rintro ⟨p, member, same, some_⟩
    exact ⟨⟨p, member, same⟩, some_⟩

/-- A package is known by its name. -/
theorem eq_packageOf {package : Package} {p : InstalledPackage} (kept : package ∈ packages)
    (member : p ∈ found) (same : package.name = p.name) : package = packageOf tree p := by
  obtain ⟨other, inFound, rfl, -⟩ := stages.mem_packages.1 kept
  rw [List.inj_on_of_nodup_map stages.nodup inFound member same]

theorem nodup_packages : (packages.map (·.name)).Nodup := by
  have all : ((Text.sortOn Package.name (found.map (packageOf tree))).map (·.name)).Nodup := by
    rw [((Text.perm_sortOn _ _).map _).nodup_iff, names_packageOf]
    exact stages.nodup
  rw [stages.packages_eq]
  exact all.sublist ((List.filter_sublist).map _)

/-- The names are those of the packages that are there. -/
theorem mem_names_iff_finds {name : Text} :
    name ∈ names ↔ ∃ location, tree.Finds settings.excluded settings.locations location name := by
  rw [stages.mem_names]
  constructor
  · rintro ⟨p, member, rfl⟩
    exact ⟨p.location, (InstalledPackage.of_mem_discover stages.discovered member).1⟩
  · rintro ⟨location, finds⟩
    obtain ⟨p, member, named, -⟩ := InstalledPackage.exists_of_discover stages.discovered finds
    exact ⟨p, member, named⟩

/-- A package that was found declares what its listed lines name. -/
theorem exists_declared {p : InstalledPackage} (member : p ∈ found) :
    ∃ lines declared, tree.IndexLines p.location p.name lines ∧
      List.Forall₂ IndexEntry.Names (lines.filter fun line => IndexEntry.Listed line) declared ∧
      (packageOf tree p).declarationNames.Perm declared := by
  obtain ⟨-, lines, hasLines, each⟩ := InstalledPackage.of_mem_discover stages.discovered member
  refine ⟨lines, p.entries.map fun entry => (entry.kind, entry.name), hasLines, ?_, ?_⟩
  · rw [List.forall₂_map_right_iff]
    exact each.imp fun _ _ read => (IndexEntry.names_of_ofLine read).1
  · refine perm_declarationNames (stages.values p member) ?_
    exact Outcome.forall_mem_of_forall₂ each fun _ _ read => (IndexEntry.names_of_ofLine read).2

/-- It is kept when it declares anything. -/
theorem kept_iff {p : InstalledPackage} (member : p ∈ found) :
    (∃ package ∈ packages, package.name = p.name) ↔
      (packageOf tree p).declarationNames ≠ [] := by
  constructor
  · rintro ⟨package, kept, same⟩
    rw [← stages.eq_packageOf kept member same]
    obtain ⟨-, -, -, some_⟩ := stages.mem_packages.1 kept
    exact some_
  · intro some_
    exact ⟨_, stages.mem_packages.2 ⟨p, member, rfl, some_⟩, rfl⟩

end Stages

/-! ## A small installation -/

/-- The index of one package, with a line about an interface file and another one. -/
def sampleIndex : Text := "msg/Empty.idl\nmsg/Empty.json\n"

/-- An installation at the root, with one message that has nothing in it. -/
def sampleTree : FileTree where
  root := .folder [("share", .folder
    [("ament_index", .folder [("resource_index", .folder [("rosidl_interfaces", .folder
      [("p", .file (sampleIndex.flatMap Utf8.bytesOf))])])]),
     ("p", .folder [("msg", .folder [("Empty.msg", .file [])])])])]
  workingFolder := []

def sampleSettings : Settings where
  locations := [⟨.root, []⟩]
  searchEnvironment := false
  excluded := []
  output := none
  layout := .package
  workers := none
  failFast := true
  comments := true

def sampleFound : InstalledPackage := ⟨"p", ⟨.root, []⟩, [⟨.message, ⟨.none, ["Empty.msg"]⟩⟩]⟩

def samplePackage : Package :=
  ⟨"p", [⟨"p", "Empty", [], []⟩], [], [], sampleFound.shareFiles⟩

theorem sampleTree_discover :
    InstalledPackage.discover sampleTree [] [⟨.root, []⟩] = .ok [sampleFound] := by
  have decoded : Utf8.decode (sampleIndex.flatMap Utf8.bytesOf) = .ok sampleIndex := by
    decide +kernel
  have each : sampleIndex.unifyNewlines.lines.mapM IndexEntry.ofLine =
      .ok [some ⟨.message, ⟨.none, ["Empty.msg"]⟩⟩, none] := by decide +kernel
  have found : InstalledPackage.atLocation sampleTree [] ⟨.root, []⟩ = .ok [sampleFound] :=
    InstalledPackage.atLocation_of_single rfl List.not_mem_nil rfl decoded each
  exact Outcome.bind_eq_ok_iff.2 ⟨_, Outcome.mapM_eq_ok_iff.2 (.cons found .nil), rfl⟩

/-- An empty file is a message without members. -/
theorem readDefinition_of_empty {package : Text} {path : Path}
    (suffix : path.suffix = Kind.message.suffix) (file : tree.read path = .ok []) :
    InstalledPackage.readDefinition tree package path =
      .ok (.message ⟨package, path.stem, [], []⟩) := by
  have blank : Section.all [] = [[(1, [])]] := by decide +kernel
  have text : Interface.ofText .message package path.stem [] =
      .ok (.message ⟨package, path.stem, [], []⟩) :=
    Interface.ofText_message blank (Message.ofSection_of_silent rfl)
  exact InstalledPackage.readDefinition_eq_ok_iff.2 (Interface.ofFile_eq_ok_iff.2
    ⟨.message, [], [], Kind.ofPath_of_suffix suffix, file, rfl, text⟩)

theorem sampleTree_outcomes :
    outcomes sampleTree sampleFound = [.ok (.message ⟨"p", "Empty", [], []⟩)] := by
  have paths : sampleFound.paths = [⟨.root, ["share", "p", "msg", "Empty.msg"]⟩] := by
    decide +kernel
  rw [outcomes, paths]
  exact congrArg ([·]) (readDefinition_of_empty rfl rfl)

theorem sampleTree_packageOf : packageOf sampleTree sampleFound = samplePackage := by
  have messages : Text.sortOn Message.name samplePackage.messages = samplePackage.messages :=
    Text.sortOn_of_pairwise (List.pairwise_singleton _ _)
  have services : Text.sortOn Service.name [] = [] := Text.sortOn_of_pairwise .nil
  have actions : Text.sortOn Action.name [] = [] := Text.sortOn_of_pairwise .nil
  rw [packageOf, sampleTree_outcomes]
  calc _
    _ = (⟨"p", Text.sortOn Message.name samplePackage.messages, Text.sortOn Service.name [],
          Text.sortOn Action.name [], sampleFound.shareFiles⟩ : Package) := rfl
    _ = samplePackage := by
        rw [messages, services, actions]
        rfl

theorem sampleTree_generate :
    ∃ sources, generate sampleSettings sampleTree = .ok (["p"], [samplePackage], sources) := by
  have read : readPackages sampleTree none true [sampleFound] = .ok [samplePackage] := by
    change assemble true [(sampleFound, outcomes sampleTree sampleFound)] = _
    rw [← sampleTree_packageOf, packageOf, sampleTree_outcomes]
    rfl
  have accepted : checkDuplicates [samplePackage] [sampleFound] = .ok ["p"] :=
    checkDuplicates_eq_ok_iff.2 ⟨by decide +kernel, by decide, by decide +kernel⟩
  have kept : (Text.sortOn Package.name [samplePackage]).filter (fun package => !package.isEmpty) =
      [samplePackage] := by
    rw [Text.sortOn_of_pairwise (List.pairwise_singleton _ _)]
    rfl
  have generated : ∃ sources, Sources.ofPackages [samplePackage] .package true = .ok sources :=
    ⟨_, rfl⟩
  obtain ⟨sources, generated⟩ := generated
  refine ⟨sources, Outcome.bind_eq_ok_iff.2
    ⟨_, Outcome.lift_eq_ok_iff.2 sampleTree_discover, ?_⟩⟩
  refine Outcome.bind_eq_ok_iff.2 ⟨_, read, ?_⟩
  rw [accepted]
  simp only [kept]
  exact Outcome.bind_eq_ok_iff.2 ⟨sources, Outcome.lift_eq_ok_iff.2 generated, rfl⟩

end Compile

end RosInterface
