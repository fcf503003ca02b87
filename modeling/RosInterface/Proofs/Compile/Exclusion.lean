/-
# RosInterface.Proofs.Compile.Exclusion -- packages do not interfere

Excluding more packages takes these packages out of a run and changes nothing else.  That is
followed through all stages: what is found, what is read, the check for duplicates, the order
of the names, the merging of modules by path, and writing.  `Compile.run_excluding` is the
result, for every layout that has modules of its own for each package.

A path is told from another package's by its first component, so the names of packages must be
what a path can spell, as the names of files are (`Node.Named`).
-/
import RosInterface.Proofs.Compile.Success
import RosInterface.Proofs.Compile.Writing
import RosInterface.Proofs.Files.Named

set_option autoImplicit false

namespace RosInterface

/-- An index has files whose names are those of the tree. -/
theorem FileTree.Indexes.isComponent {tree : FileTree} {location : Path} {name : Text}
    (named : tree.root.Named) (indexed : tree.Indexes location name) : Path.IsComponent name := by
  obtain ⟨node, bytes, found, member⟩ := indexed
  obtain ⟨-, place, -, at_⟩ := FileTree.find_eq_ok_iff.1 found
  exact (named.get? at_).isComponent member

/-! ## Discovery -/

namespace InstalledPackage

variable {tree : FileTree} {excluded : List Text} {locations : List Path}
  {found : List InstalledPackage}

/-- An entry that is excluded as well has no package any more. -/
theorem ofIndexEntry_excluding {location : Path} {entry : Text × Bool}
    {result : Option InstalledPackage}
    (looked : ofIndexEntry tree excluded location entry = .ok result) (more : List Text) :
    ofIndexEntry tree (excluded ++ more) location entry =
      .ok (result.filter fun p => p.name ∉ more) := by
  cases result with
  | none =>
      obtain ⟨short, passed⟩ := ofIndexEntry_eq_none_iff.1 looked
      exact ofIndexEntry_eq_none_iff.2 ⟨short, passed.imp id (List.mem_append_left more)⟩
  | some p =>
      obtain ⟨file, notExcluded, read⟩ := ofIndexEntry_eq_some_iff.1 looked
      rw [Option.filter_some, (of_ofIndexFile read).1]
      by_cases leftOut : entry.1 ∈ more
      · rw [if_neg (by simpa using leftOut), ofIndexEntry_eq_none_iff,
          checkPath_of_ofIndexFile read]
        exact ⟨by simp, .inr (List.mem_append_right excluded leftOut)⟩
      · rw [if_pos (by simpa using leftOut), ofIndexEntry_eq_some_iff, List.mem_append, not_or]
        exact ⟨file, ⟨notExcluded, leftOut⟩, read⟩

theorem atLocation_excluding {location : Path}
    (read : atLocation tree excluded location = .ok found) (more : List Text) :
    atLocation tree (excluded ++ more) location = .ok (found.filter fun p => p.name ∉ more) := by
  obtain ⟨entries, results, gotEntries, each, rfl⟩ := atLocation_eq_ok_iff.1 read
  refine atLocation_eq_ok_iff.2
    ⟨entries, results.map (Option.filter fun p => p.name ∉ more), gotEntries, ?_, ?_⟩
  · rw [Outcome.mapM_eq_ok_iff] at each ⊢
    rw [List.forall₂_map_right_iff]
    exact each.imp fun _ _ looked => ofIndexEntry_excluding looked more
  · rw [List.filter_filterMap, List.filterMap_map]
    rfl

/-- Excluding more names leaves out the packages with these names. -/
theorem discover_excluding (read : discover tree excluded locations = .ok found)
    (more : List Text) :
    discover tree (excluded ++ more) locations = .ok (found.filter fun p => p.name ∉ more) := by
  obtain ⟨parts, each, whole⟩ := Outcome.bind_eq_ok_iff.1 read
  cases whole
  rw [Outcome.mapM_eq_ok_iff] at each
  have kept : locations.mapM (atLocation tree (excluded ++ more)) =
      .ok (parts.map fun part => part.filter fun p => p.name ∉ more) := by
    rw [Outcome.mapM_eq_ok_iff, List.forall₂_map_right_iff]
    exact each.imp fun location part result => atLocation_excluding result more
  exact Outcome.bind_eq_ok_iff.2 ⟨_, kept, congrArg Except.ok List.filter_flatten.symm⟩

end InstalledPackage

/-! ## Generation -/

/-- The path begins with one of some names. -/
def Path.Below (path : Path) (names : List Text) : Prop :=
  ∃ name ∈ names, path.components.head? = some name

instance (path : Path) (names : List Text) : Decidable (path.Below names) :=
  inferInstanceAs (Decidable (∃ name ∈ names, path.components.head? = some name))

namespace Sources

variable {layout : ModuleLayout} {comments : Bool} {packages : List Package} {sources : Sources}

/-- The paths of a package are relative and begin with its name. -/
theorem paths_ofPackage {package : Package} (many : layout ≠ .single)
    (component : Path.IsComponent package.name)
    (generated : ofPackage package layout comments = .ok sources) :
    ∀ path ∈ sources.paths, ∃ rest, path = ⟨.none, package.name :: rest⟩ := by
  intro path member
  obtain ⟨file, inFiles, rfl⟩ := exists_file_of_ofPackage many generated member
  exact Package.path_of_mem_files component inFiles

/-- All paths are relative and begin with the name of a package. -/
theorem paths_ofPackages (many : layout ≠ .single)
    (components : ∀ p ∈ packages, Path.IsComponent p.name)
    (generated : ofPackages packages layout comments = .ok sources) :
    ∀ path ∈ sources.paths, ∃ p ∈ packages, ∃ rest, path = ⟨.none, p.name :: rest⟩ := by
  intro path member
  obtain ⟨p, inPackages, file, inFiles, rfl⟩ := exists_file_of_ofPackages many generated member
  exact ⟨p, inPackages, Package.path_of_mem_files (components p inPackages) inFiles⟩

/-- The sources outside of some packages. -/
def outside (names : List Text) (sources : Sources) : Sources :=
  sources.filter fun source => ¬ source.1.Below names

theorem outside_merge {more : Sources} (names : List Text) :
    outside names (sources.merge more) = merge (outside names sources) (outside names more) :=
  filter_merge fun path => ¬ path.Below names

/-- Packages that are left out take their own paths away and no others. -/
theorem exists_parts_excluding {parts : List Sources} (many : layout ≠ .single)
    (components : ∀ p ∈ packages, Path.IsComponent p.name)
    (each : List.Forall₂ (fun p part => ofPackage p layout comments = .ok part) packages parts)
    (more : List Text) :
    ∃ kept, List.Forall₂ (fun p part => ofPackage p layout comments = .ok part)
        (packages.filter fun p => p.name ∉ more) kept ∧
      ∀ sources, kept.foldl merge (outside more sources) =
        outside more (parts.foldl merge sources) := by
  induction each with
  | nil => exact ⟨[], .nil, fun _ => rfl⟩
  | @cons p part packages parts own _ ih =>
      obtain ⟨kept, others, same⟩ := ih fun q member =>
        components q (List.mem_cons_of_mem _ member)
      have paths := paths_ofPackage many (components p List.mem_cons_self) own
      have below (source : Path × Text) (member : source ∈ part) :
          source.1.Below more ↔ p.name ∈ more := by
        obtain ⟨rest, path⟩ := paths source.1 (List.mem_map_of_mem member)
        simp [Path.Below, path]
      by_cases inMore : p.name ∈ more
      · have gone : outside more part = [] := List.filter_eq_nil_iff.2 fun source member => by
          simpa using (below source member).2 inMore
        refine ⟨kept, by rwa [List.filter_cons_of_neg (by simpa using inMore)], fun sources => ?_⟩
        rw [List.foldl_cons, ← same, outside_merge, gone]
        rfl
      · have all : outside more part = part := List.filter_eq_self.2 fun source member => by
          simpa using fun isBelow => inMore ((below source member).1 isBelow)
        refine ⟨part :: kept, ?_, fun sources => ?_⟩
        · rw [List.filter_cons_of_pos (by simpa using inMore)]
          exact .cons own others
        · rw [List.foldl_cons, List.foldl_cons, ← same, outside_merge, all]

/-- Generating fewer packages gives the sources outside of the others. -/
theorem ofPackages_excluding (many : layout ≠ .single)
    (components : ∀ p ∈ packages, Path.IsComponent p.name)
    (generated : ofPackages packages layout comments = .ok sources) (more : List Text) :
    ofPackages (packages.filter fun p => p.name ∉ more) layout comments =
      .ok (outside more sources) := by
  rw [ofPackages_eq many, Outcome.bind_eq_ok_iff] at generated ⊢
  obtain ⟨parts, each, whole⟩ := generated
  cases whole
  obtain ⟨kept, others, same⟩ :=
    exists_parts_excluding many components (Outcome.mapM_eq_ok_iff.1 each) more
  exact ⟨kept, Outcome.mapM_eq_ok_iff.2 others, congrArg Except.ok (same [])⟩

end Sources

/-! ## Whole runs -/

namespace Compile

variable {settings : Settings} {environment : Environment} {tree : FileTree} {result : Result}

/-- The settings with more names excluded. -/
def excluding (settings : Settings) (more : List Text) : Settings :=
  { settings with excluded := settings.excluded ++ more }

theorem resolve_excluding (more : List Text) :
    (excluding settings more).resolve environment =
      excluding (settings.resolve environment) more := by
  unfold excluding Settings.resolve
  split <;> rfl

/-- Every stage leaves out what is excluded, and nothing else. -/
theorem Stages.excluding {found : List InstalledPackage} {names : List Text}
    {packages : List Package} (stages : Stages settings tree found names packages)
    (more : List Text) :
    Stages (Compile.excluding settings more) tree (found.filter fun p => p.name ∉ more)
      (names.filter fun name => name ∉ more) (packages.filter fun p => p.name ∉ more) where
  discovered := InstalledPackage.discover_excluding stages.discovered more
  values p member := stages.values p (List.mem_of_mem_filter member)
  names_eq := by
    rw [stages.names_eq, Text.filter_sort, List.filter_map]
    rfl
  nodup := stages.nodup.sublist (List.filter_sublist.map _)
  distinct p member := stages.distinct p (List.mem_of_mem_filter member)
  packages_eq := by
    have sorted : (Text.sortOn Package.name (found.map (packageOf tree))).filter
        (fun package => package.name ∉ more) =
        Text.sortOn Package.name ((found.filter fun p => p.name ∉ more).map (packageOf tree)) := by
      rw [Text.filter_sortOn, List.filter_map]
      rfl
    rw [stages.packages_eq, ← sorted, List.filter_filter, List.filter_filter]
    exact List.filter_congr fun package _ => Bool.and_comm _ _

/-- **Packages do not interfere.**  In a layout with modules of their own for each package, a
run that ends well still does so with more names excluded; it gives the same names, packages
and sources in the same order, without those of the packages that are left out. -/
theorem run_excluding (named : tree.root.Named) (many : settings.layout ≠ .single)
    (returned : run settings environment tree = .ok result) (more : List Text) :
    ∃ rest, run (excluding settings more) environment tree = .ok rest ∧
      rest.packageNames = result.packageNames.filter (fun name => name ∉ more) ∧
      rest.packages = result.packages.filter (fun package => package.name ∉ more) ∧
      rest.sources = result.sources.filter (fun source => ¬ source.1.Below more) := by
  obtain ⟨generated, written⟩ := run_eq_ok_iff.1 returned
  obtain ⟨positive, ⟨found, stages⟩, rendered⟩ := generate_eq_ok_iff.1 generated
  have sameLayout : (settings.resolve environment).layout = settings.layout := by
    unfold Settings.resolve
    split <;> rfl
  have manyToo : (settings.resolve environment).layout ≠ .single := by rwa [sameLayout]
  have components : ∀ p ∈ result.packages, Path.IsComponent p.name := by
    intro package kept
    obtain ⟨p, member, rfl, -⟩ := stages.mem_packages.1 kept
    exact (InstalledPackage.of_mem_discover stages.discovered member).1.indexed.isComponent named
  have renderedToo := Sources.ofPackages_excluding manyToo components rendered more
  have generatedToo : generate (excluding (settings.resolve environment) more) tree = _ :=
    generate_eq_ok_iff.2 ⟨positive, ⟨_, stages.excluding more⟩, renderedToo⟩
  rw [← resolve_excluding] at generatedToo
  have sameOutput : ((excluding settings more).resolve environment).output =
      (settings.resolve environment).output := by
    rw [resolve_excluding]
    rfl
  have relative : ∀ source ∈ result.sources, source.1.anchor = .none := by
    intro source member
    obtain ⟨p, -, rest, path⟩ := Sources.paths_ofPackages manyToo components rendered source.1
      (List.mem_map_of_mem member)
    rw [path]
  obtain ⟨files, after, writtenToo⟩ :=
    written.exists_filter relative (fun source => ¬ source.1.Below more) _ _
  rw [← sameOutput] at writtenToo
  exact ⟨_, run_eq_ok_iff.2 ⟨generatedToo, writtenToo⟩, rfl, rfl, rfl⟩

/-! ## Two installations, one without its package -/

theorem sampleInstallation_named {name index : Text} {messages : List Text}
    (component : Path.IsComponent name) (files : ∀ file ∈ messages, Path.IsComponent file) :
    (sampleInstallation name index messages).Named := by
  have single {folder : Text} {node : Node} (folder_ : Path.IsComponent folder)
      (named : node.Named) :
      (Node.folder [(folder, node)]).Named :=
    .folder (List.forall_mem_singleton.2 ⟨folder_, named⟩)
  have messageFiles : (Node.folder (messages.map fun file => (file, .file []))).Named :=
    .folder (List.forall_mem_map.2 fun file member => ⟨files file member, .of_leaf rfl⟩)
  have indexName : Path.IsComponent "ament_index" := by decide
  have indexFiles : (Node.folder [("resource_index", .folder [("rosidl_interfaces", .folder
      [(name, .file (index.flatMap Utf8.bytesOf))])])]).Named :=
    single (by decide) (single (by decide) (single component (.of_leaf rfl)))
  refine single (by decide) (.folder (List.forall_mem_cons.2 ⟨⟨indexName, indexFiles⟩, ?_⟩))
  exact List.forall_mem_singleton.2 ⟨component, single (by decide) messageFiles⟩

theorem pairTree_named : pairTree.root.Named := by
  refine .folder
    (List.forall_mem_cons.2 ⟨⟨by decide, ?_⟩, List.forall_mem_singleton.2 ⟨by decide, ?_⟩⟩)
  · exact sampleInstallation_named (by decide) (by decide)
  · exact sampleInstallation_named (by decide) (by decide)

/-- Of two packages, one is excluded and the other one stays as it is. -/
theorem run_excluding_pair :
    pairTree.root.Named ∧ pairSettings.layout ≠ .single ∧
      ∃ result rest, run pairSettings [] pairTree = .ok result ∧ result.packageNames = ["p", "q"] ∧
        run (excluding pairSettings ["q"]) [] pairTree = .ok rest ∧ rest.packageNames = ["p"] ∧
        rest.packages = result.packages.filter (fun package => package.name ∉ (["q"] : List Text)) ∧
        rest.sources = result.sources.filter (fun source => ¬ source.1.Below ["q"]) := by
  have many : pairSettings.layout ≠ .single := by decide
  obtain ⟨result, returned, names⟩ := pairTree_run
  obtain ⟨rest, again, restNames, packages, sources⟩ :=
    run_excluding pairTree_named many returned ["q"]
  rw [names] at restNames
  exact ⟨pairTree_named, many, result, rest, returned, names, again, restNames, packages, sources⟩

end Compile

end RosInterface
