/-
# RosInterface.Proofs.Compile.Order -- the order of locations and of index lines

A run sorts what it has found by name, and it refuses names that come twice, so the order in
which packages and definitions were found leaves no trace in the modules.  Two things are put in
another order here: the locations that are searched, and the lines of every index file.  What
is found then is the same up to order (`InstalledPackage.exists_discover_of_reorders`), each
package has the same definitions (`Compile.withoutFiles_packageOf`), and the same sources are
generated and written (`Compile.run_of_reorders`).

One thing must be left alone.  An index can name any file as a definition, and that may be an
index file: such a file is read for the order of its lines as well
(`Compile.not_run_of_reorders`).
-/
import RosInterface.Proofs.Compile.Success
import RosInterface.Proofs.Compile.Writing
import RosInterface.Proofs.Files.Rewriting
import RosInterface.Proofs.Output.ClassNames

set_option autoImplicit false

namespace RosInterface

/-! ## Index files with their lines in another order -/

/-- The place is that of an index file at one of the locations. -/
def FileTree.IsIndexAt (tree : FileTree) (locations : List Path) (place : List Text) : Prop :=
  ∃ location ∈ locations, ∃ name,
    tree.locate (InstalledPackage.indexFile location name) = .ok place

/-- The bytes encode the same lines, perhaps in another order. -/
def SameLines (bytes others : List UInt8) : Prop :=
  ∃ text more, Utf8.decode bytes = .ok text ∧ Utf8.decode others = .ok more ∧
    more.unifyNewlines.lines.Perm text.unifyNewlines.lines

/-- The other tree is the same but for the order of the lines in the index files. -/
def FileTree.Reorders (tree other : FileTree) (locations : List Path) : Prop :=
  tree.Rewrites (fun place bytes others =>
    others = bytes ∨ tree.IsIndexAt locations place ∧ SameLines bytes others) other

/-- Changing the order of the lines in one index file is an instance. -/
theorem FileTree.reorders_setAt {tree : FileTree} {locations : List Path} {place : List Text}
    {bytes others : List UInt8} (file : tree.root.get? place = some (.file bytes))
    (isIndex : tree.IsIndexAt locations place) (lines : SameLines bytes others) :
    tree.Reorders (tree.setAt (.file others) place) locations :=
  rewrites_setAt file (fun _ _ => .inl rfl) (.inr ⟨isIndex, lines⟩)

/-- The definitions of the packages that are found are in the same files in both trees. -/
def FileTree.KeepsDefinitions (tree other : FileTree) (settings : Settings) : Prop :=
  ∀ found, InstalledPackage.discover tree settings.excluded settings.locations = .ok found →
    ∀ p ∈ found, ∀ path ∈ p.paths, other.read path = tree.read path

/-- The other settings search the same locations in another order. -/
structure Settings.Reorders (settings other : Settings) : Prop where
  locations : other.locations.Perm settings.locations
  same : other = { settings with locations := other.locations }

namespace InstalledPackage

variable {tree other : FileTree} {locations : List Path} {excluded : List Text}
  {location : Path} {name : Text} {p q : InstalledPackage}

/-- The other package has the same entries in another order. -/
structure Reorders (p q : InstalledPackage) : Prop where
  name : q.name = p.name
  location : q.location = p.location
  entries : q.entries.Perm p.entries

theorem Reorders.paths (reorders : p.Reorders q) : q.paths.Perm p.paths := by
  have same : q.entryPath = p.entryPath := by
    funext entry
    rw [entryPath, entryPath, reorders.name, reorders.location]
  rw [paths_eq, paths_eq, same]
  exact reorders.entries.map _

/-! ## What is found -/

section Reordered

variable (reorders : tree.Reorders other locations)
include reorders

theorem exists_indexLines {lines : List Text} (has : tree.IndexLines location name lines) :
    ∃ more, other.IndexLines location name more ∧ more.Perm lines := by
  obtain ⟨bytes, text, file, decoded, rfl⟩ := has
  obtain ⟨place, others, -, also, same | ⟨-, reordered⟩⟩ := reorders.exists_read file
  · subst same
    exact ⟨_, ⟨others, text, also, decoded, rfl⟩, .refl _⟩
  · obtain ⟨first, more, ofBytes, ofOthers, perm⟩ := reordered
    rw [decoded] at ofBytes
    cases ofBytes
    exact ⟨_, ⟨others, more, also, ofOthers, rfl⟩, perm⟩

theorem exists_ofIndexFile (read : ofIndexFile tree location name = .ok p) :
    ∃ q, ofIndexFile other location name = .ok q ∧ p.Reorders q := by
  obtain ⟨lines, found, has, each, rfl⟩ := ofIndexFile_eq_ok_iff.1 read
  obtain ⟨more, hasMore, perm⟩ := exists_indexLines reorders has
  obtain ⟨results, eachMore, reordered⟩ := Outcome.exists_mapM_of_perm each perm
  exact ⟨_, ofIndexFile_eq_ok_iff.2 ⟨more, results, hasMore, eachMore, rfl⟩, rfl, rfl,
    reordered.filterMap id⟩

theorem indexEntries_of_reorders : indexEntries other location = indexEntries tree location := by
  rw [indexEntries, indexEntries]
  rcases reorders.find_cases (indexFolder location) with
    ⟨fault, failed, also⟩ | ⟨_, node, found, -, here, there, alike⟩
  · rw [failed, also]
  · have same : found.listing = node.listing := by
      cases alike with
      | file => rfl
      | folder same => exact same.symm
    rw [here, there]
    simp only [same]

theorem exists_ofIndexEntry {entry : Text × Bool} {result : Option InstalledPackage}
    (looked : ofIndexEntry tree excluded location entry = .ok result) :
    ∃ again, ofIndexEntry other excluded location entry = .ok again ∧
      Option.Rel Reorders result again := by
  cases result with
  | none => exact ⟨none, ofIndexEntry_eq_none_iff.2 (ofIndexEntry_eq_none_iff.1 looked), .none⟩
  | some p =>
      obtain ⟨file, notExcluded, read⟩ := ofIndexEntry_eq_some_iff.1 looked
      obtain ⟨q, readOther, related⟩ := exists_ofIndexFile reorders read
      exact ⟨some q, ofIndexEntry_eq_some_iff.2 ⟨file, notExcluded, readOther⟩, .some related⟩

theorem exists_atLocation {part : List InstalledPackage}
    (read : atLocation tree excluded location = .ok part) :
    ∃ others, atLocation other excluded location = .ok others ∧
      List.Forall₂ Reorders part others := by
  obtain ⟨entries, found, gotEntries, each, rfl⟩ := atLocation_eq_ok_iff.1 read
  obtain ⟨others, eachOther, related⟩ := Outcome.exists_mapM_of_rel each
    fun entry _ result looked => exists_ofIndexEntry reorders looked
  rw [← indexEntries_of_reorders reorders] at gotEntries
  exact ⟨_, atLocation_eq_ok_iff.2 ⟨entries, others, gotEntries, eachOther, rfl⟩,
    List.rel_filterMap (fun _ _ same => same) related⟩

/-- **The same packages are found**, with their entries and themselves in another order. -/
theorem exists_discover_of_reorders {found : List InstalledPackage} {searched permuted : List Path}
    (perm : permuted.Perm searched) (read : discover tree excluded searched = .ok found) :
    ∃ again others, discover other excluded permuted = .ok again ∧ again.Perm others ∧
      List.Forall₂ Reorders found others := by
  obtain ⟨parts, each, whole⟩ := Outcome.bind_eq_ok_iff.1 read
  cases whole
  obtain ⟨others, eachOther, related⟩ := Outcome.exists_mapM_of_rel each
    fun location _ part result => exists_atLocation reorders result
  obtain ⟨again, eachAgain, reordered⟩ := Outcome.exists_mapM_of_perm eachOther perm
  exact ⟨again.flatten, others.flatten, Outcome.bind_eq_ok_iff.2 ⟨again, eachAgain, rfl⟩,
    reordered.flatten, List.rel_flatten related⟩

end Reordered

end InstalledPackage

/-! ## Packages without their files -/

namespace Package

/-- The package without the list of the files that it was read from. -/
def withoutFiles (package : Package) : Package := { package with shareFiles := [] }

theorem declarationNames_withoutFiles (package : Package) :
    package.withoutFiles.declarationNames = package.declarationNames := rfl

/-- Definitions in another order make the same package, unless two of them have one name. -/
theorem withoutFiles_ofInterfaces_of_perm {name : Text} {interfaces others : List Interface}
    {files more : List Path} (perm : others.Perm interfaces)
    (distinct : (ofInterfaces name interfaces files).declarationNames.Nodup) :
    (ofInterfaces name others more).withoutFiles =
      (ofInterfaces name interfaces files).withoutFiles := by
  have sorted {α : Type} (key : α → Text) (pick : Interface → Option α)
      (named : ((Text.sortOn key (interfaces.filterMap pick)).map key).Nodup) :
      Text.sortOn key (others.filterMap pick) = Text.sortOn key (interfaces.filterMap pick) := by
    apply Text.sortOn_of_perm (perm.filterMap pick)
    exact ((Text.perm_sortOn key _).map key).nodup_iff.1 named
  have messages := nodup_declarationNames_iff.1 distinct .message
  have services := nodup_declarationNames_iff.1 distinct .service
  have actions := nodup_declarationNames_iff.1 distinct .action
  simp only [namesOf, Package.interfaces, List.map_map] at messages services actions
  simp only [ofInterfaces, withoutFiles, Package.mk.injEq, true_and, and_true]
  exact ⟨sorted _ _ messages, sorted _ _ services, sorted _ _ actions⟩

variable {package : Package} {layout : ModuleLayout} {kind : Kind}

theorem ownModules_withoutFiles {taken : List Text} {interfaces : List Interface} :
    package.withoutFiles.ownModules kind taken interfaces =
      package.ownModules kind taken interfaces := by
  induction interfaces generalizing taken with
  | nil => rfl
  | cons interface rest ih =>
      rw [ownModules, ownModules, ih]
      rfl

theorem modules_withoutFiles : package.withoutFiles.modules layout = package.modules layout := by
  have ofKind : package.withoutFiles.kindModules layout = package.kindModules layout := by
    funext kind
    cases layout with
    | declaration =>
        rw [kindModules, kindModules, ownModules_withoutFiles]
        rfl
    | package | single => rfl
  rw [modules, modules, ofKind]
  rfl

end Package

/-- **Generation does not ask which files a package was read from.** -/
theorem Sources.ofPackages_withoutFiles {packages : List Package} {layout : ModuleLayout}
    {comments : Bool} :
    ofPackages (packages.map Package.withoutFiles) layout comments =
      ofPackages packages layout comments := by
  by_cases single : layout = .single
  · subst single
    simp only [ofPackages, ofSingleFile, List.mapM_map]
    rfl
  · have own : (fun package => ofPackage package layout comments) ∘ Package.withoutFiles =
        fun package => ofPackage package layout comments := by
      funext package
      rw [Function.comp, ofPackage_eq single, ofPackage_eq single, Package.modules_withoutFiles]
    rw [ofPackages_eq single, ofPackages_eq single, List.mapM_map, own]

/-! ## Whole runs -/

theorem InstalledPackage.readDefinition_congr {tree other : FileTree} {package : Text} {path : Path}
    (same : other.read path = tree.read path) :
    readDefinition other package path = readDefinition tree package path := by
  have bytes : other.bytes path = tree.bytes path := by
    rw [FileTree.bytes, FileTree.bytes, same]
  have file : Interface.ofFile other package path = Interface.ofFile tree package path := by
    simp only [Interface.ofFile, Interface.ofFileAs, bytes]
  rw [readDefinition, readDefinition, file]

namespace Compile

variable {tree other : FileTree} {p q : InstalledPackage} {settings again : Settings}

/-- The definitions of a package are read as before, in the order of its entries. -/
theorem perm_outcomes (reorders : p.Reorders q)
    (kept : ∀ path ∈ p.paths, other.read path = tree.read path) :
    (outcomes other q).Perm (outcomes tree p) := by
  have same : p.paths.map (InstalledPackage.readDefinition other p.name) = outcomes tree p :=
    List.map_congr_left fun path member => InstalledPackage.readDefinition_congr (kept path member)
  rw [outcomes, reorders.name, ← same]
  exact reorders.paths.map _

theorem withoutFiles_packageOf (reorders : p.Reorders q)
    (kept : ∀ path ∈ p.paths, other.read path = tree.read path)
    (distinct : (packageOf tree p).declarationNames.Nodup) :
    (packageOf other q).withoutFiles = (packageOf tree p).withoutFiles := by
  rw [packageOf, reorders.name]
  exact Package.withoutFiles_ofInterfaces_of_perm ((perm_outcomes reorders kept).filterMap _)
    distinct

theorem map_withoutFiles_sorted (packages : List Package) :
    ((Text.sortOn Package.name packages).filter fun package => !package.isEmpty).map
        Package.withoutFiles =
      (Text.sortOn Package.name (packages.map Package.withoutFiles)).filter
        fun package => !package.isEmpty := by
  have sorted : (Text.sortOn Package.name packages).map Package.withoutFiles =
      Text.sortOn Package.name (packages.map Package.withoutFiles) :=
    Text.map_sortOn Package.name Package.withoutFiles packages
  rw [← sorted, List.filter_map]
  rfl

/-- Every stage comes to the same as before, but for the order in which packages were found and
the lists of their files. -/
theorem Stages.exists_of_reorders {found : List InstalledPackage} {names : List Text}
    {packages : List Package} (stages : Stages settings tree found names packages)
    (searches : settings.Reorders again) (indexes : tree.Reorders other settings.locations)
    (keeps : tree.KeepsDefinitions other settings) :
    ∃ foundAgain kept, Stages again other foundAgain names kept ∧
      kept.map Package.withoutFiles = packages.map Package.withoutFiles := by
  obtain ⟨foundAgain, others, discovered, perm, each⟩ :=
    InstalledPackage.exists_discover_of_reorders indexes searches.locations stages.discovered
  have files := keeps found stages.discovered
  have related : List.Forall₂ (fun p q => p ∈ found ∧ p.Reorders q) found others :=
    (List.forall₂_and_left _ _).2 ⟨fun _ member => member, each⟩
  have excluded : again.excluded = settings.excluded := by rw [searches.same]
  have samePackage (p q : InstalledPackage) (both : p ∈ found ∧ p.Reorders q) :
      (packageOf tree p).withoutFiles = (packageOf other q).withoutFiles :=
    (withoutFiles_packageOf both.2 (files p both.1) (stages.distinct p both.1)).symm
  have sameNames : found.map (·.name) = others.map (·.name) :=
    Outcome.map_eq_of_forall₂ each fun p q reorders => reorders.name.symm
  have samePackages : found.map (fun p => (packageOf tree p).withoutFiles) =
      others.map fun q => (packageOf other q).withoutFiles :=
    Outcome.map_eq_of_forall₂ related samePackage
  have values : ∀ q ∈ others, ∀ outcome ∈ outcomes other q, ∃ value, outcome = .ok value := by
    refine Outcome.forall_mem_of_forall₂ related fun p q both outcome member => ?_
    exact stages.values p both.1 outcome ((perm_outcomes both.2 (files p both.1)).subset member)
  have distinct : ∀ q ∈ others, (packageOf other q).declarationNames.Nodup := by
    refine Outcome.forall_mem_of_forall₂ related fun p q both => ?_
    rw [← Package.declarationNames_withoutFiles, ← samePackage p q both]
    exact stages.distinct p both.1
  have permNames : (foundAgain.map (·.name)).Perm (found.map (·.name)) :=
    (perm.map _).trans (.of_eq sameNames.symm)
  refine ⟨foundAgain, _,
    { discovered := excluded ▸ discovered
      values := fun q member => values q (perm.subset member)
      names_eq := stages.names_eq.trans (Text.sort_of_perm permNames).symm
      nodup := permNames.nodup_iff.2 stages.nodup
      distinct := fun q member => distinct q (perm.subset member)
      packages_eq := rfl }, ?_⟩
  rw [stages.packages_eq, map_withoutFiles_sorted, map_withoutFiles_sorted, List.map_map,
    List.map_map]
  refine congrArg (List.filter _) (Text.sortOn_of_perm ?_ ?_)
  · exact (perm.map _).trans (.of_eq samePackages.symm)
  · rw [List.map_map]
    exact stages.nodup

/-- **The order of locations and of index lines leaves no trace.**  When a run ends well, so
does one that searches the same locations in another order, in a tree with the lines of its
index files in another order; and it gives the same names, the same sources in the same order,
and the same files.  The definitions that were read must not be among the files that have
changed. -/
theorem run_of_reorders {environment otherEnvironment : Environment} {result : Result}
    (returned : run settings environment tree = .ok result)
    (searches : (settings.resolve environment).Reorders (again.resolve otherEnvironment))
    (indexes : tree.Reorders other (settings.resolve environment).locations)
    (keeps : tree.KeepsDefinitions other (settings.resolve environment)) :
    ∃ rest, run again otherEnvironment other = .ok rest ∧
      rest.packageNames = result.packageNames ∧ rest.sources = result.sources ∧
      rest.generatedFiles = result.generatedFiles := by
  obtain ⟨generated, written⟩ := run_eq_ok_iff.1 returned
  obtain ⟨positive, ⟨found, stages⟩, rendered⟩ := generate_eq_ok_iff.1 generated
  obtain ⟨foundAgain, kept, stagesAgain, same⟩ := stages.exists_of_reorders searches indexes keeps
  have renderedAgain : Sources.ofPackages kept (again.resolve otherEnvironment).layout
      (again.resolve otherEnvironment).comments = .ok result.sources := by
    rw [searches.same, ← Sources.ofPackages_withoutFiles, same, Sources.ofPackages_withoutFiles]
    exact rendered
  have positiveAgain : ∀ count, (again.resolve otherEnvironment).workers = some count →
      0 < count := by
    rw [searches.same]
    exact positive
  have generatedAgain := generate_eq_ok_iff.2 ⟨positiveAgain, ⟨_, stagesAgain⟩, renderedAgain⟩
  have output :
      (again.resolve otherEnvironment).output = (settings.resolve environment).output := by
    rw [searches.same]
  obtain ⟨after, writtenAgain⟩ :=
    written.exists_of_within indexes.within indexes.within_back kept
  rw [← output] at writtenAgain
  exact ⟨_, run_eq_ok_iff.2 ⟨generatedAgain, writtenAgain⟩, rfl, rfl, rfl⟩

/-! ## Two installations in another order -/

/-- The index of the first of two installations, with its lines in another order. -/
def swappedIndex : Text := "msg/B.idl\nmsg/A.idl\n"

def swappedTree : FileTree :=
  pairTree.setAt (.file (swappedIndex.flatMap Utf8.bytesOf))
    ["a", "share", "ament_index", "resource_index", "rosidl_interfaces", "p"]

def swappedSettings : Settings :=
  { pairSettings with locations := [⟨.root, ["b"]⟩, ⟨.root, ["a"]⟩] }

/-- The second installation is searched first, and the first one lists its messages the other
way round. -/
theorem run_of_reorders_pair :
    pairSettings.Reorders swappedSettings ∧ pairTree.Reorders swappedTree pairSettings.locations ∧
      pairTree.KeepsDefinitions swappedTree pairSettings ∧
      ∃ result rest, run pairSettings [] pairTree = .ok result ∧
        result.packageNames = ["p", "q"] ∧ run swappedSettings [] swappedTree = .ok rest ∧
        rest.packageNames = result.packageNames ∧ rest.sources = result.sources ∧
        rest.generatedFiles = result.generatedFiles := by
  have searches : pairSettings.Reorders swappedSettings := ⟨by decide +kernel, rfl⟩
  have lines : SameLines (pairIndex.flatMap Utf8.bytesOf) (swappedIndex.flatMap Utf8.bytesOf) :=
    ⟨pairIndex, swappedIndex, by decide +kernel, by decide +kernel, by decide +kernel⟩
  have isIndex : pairTree.IsIndexAt pairSettings.locations
      ["a", "share", "ament_index", "resource_index", "rosidl_interfaces", "p"] :=
    ⟨⟨.root, ["a"]⟩, List.mem_cons_self, "p", by decide +kernel⟩
  have indexes : pairTree.Reorders swappedTree pairSettings.locations :=
    FileTree.reorders_setAt rfl isIndex lines
  have keeps : pairTree.KeepsDefinitions swappedTree pairSettings := by
    intro found discovered
    have same : Except.ok found = Except.ok pairFound := discovered.symm.trans pairTree_discover
    cases same
    decide +kernel
  obtain ⟨result, returned, names⟩ := pairTree_run
  have again : ∃ rest, run swappedSettings [] swappedTree = .ok rest ∧
      rest.packageNames = result.packageNames ∧ rest.sources = result.sources ∧
      rest.generatedFiles = result.generatedFiles :=
    run_of_reorders returned searches indexes keeps
  obtain ⟨rest, returnedAgain, same⟩ := again
  exact ⟨searches, indexes, keeps, result, rest, returned, names, returnedAgain, same⟩

/-! ## An index that is a definition -/

/-- A line that leads from the definitions of a package back to the index. -/
def loopLine : Text := "srv/../../ament_index/resource_index/rosidl_interfaces/q.idl\n"

/-- An installation whose first index file names the second one, as a service. -/
def loopTree (service : Text) : FileTree where
  root := .folder [("share", .folder
    [("ament_index", .folder [("resource_index", .folder [("rosidl_interfaces", .folder
      [("p", .file (loopLine.flatMap Utf8.bytesOf)),
       ("q.srv", .file (service.flatMap Utf8.bytesOf))])])]),
     ("p", .folder [("srv", .folder [])])])]
  workingFolder := []

def loopEntry : IndexEntry :=
  ⟨.service, ⟨.none, ["..", "..", "ament_index", "resource_index", "rosidl_interfaces", "q.srv"]⟩⟩

def loopFound : List InstalledPackage :=
  [⟨"p", ⟨.root, []⟩, [loopEntry]⟩, ⟨"q.srv", ⟨.root, []⟩, []⟩]

def loopService : Text := "int32 a\n---\nint32 a\n"

/-- The same lines, so that the two members are in one section. -/
def loopSwapped : Text := "int32 a\nint32 a\n---\n"

theorem loopTree_discover {service : Text}
    (decoded : Utf8.decode (service.flatMap Utf8.bytesOf) = .ok service)
    (each : service.unifyNewlines.lines.mapM IndexEntry.ofLine = .ok [none, none, none]) :
    InstalledPackage.discover (loopTree service) [] [⟨.root, []⟩] = .ok loopFound := by
  have entries : InstalledPackage.indexEntries (loopTree service) ⟨.root, []⟩ =
      .ok [("p", false), ("q.srv", false)] := by
    have folder : (loopTree service).find (InstalledPackage.indexFolder ⟨.root, []⟩) =
        .ok (.folder [("p", .file (loopLine.flatMap Utf8.bytesOf)),
          ("q.srv", .file (service.flatMap Utf8.bytesOf))]) := rfl
    have inOrder : ([("p", false), ("q.srv", false)] : List (Text × Bool)).Pairwise
        fun a b => Text.le a.1 b.1 = true := by decide
    rw [InstalledPackage.indexEntries, folder]
    exact congrArg Except.ok (Text.sortOn_of_pairwise inOrder)
  have first : InstalledPackage.ofIndexFile (loopTree service) ⟨.root, []⟩ "p" =
      .ok ⟨"p", ⟨.root, []⟩, [loopEntry]⟩ := by
    have decodedLine : Utf8.decode (loopLine.flatMap Utf8.bytesOf) = .ok loopLine := by
      decide +kernel
    have eachLine : loopLine.unifyNewlines.lines.mapM IndexEntry.ofLine = .ok [some loopEntry] := by
      decide +kernel
    exact InstalledPackage.ofIndexFile_of_decode rfl decodedLine eachLine
  have second : InstalledPackage.ofIndexFile (loopTree service) ⟨.root, []⟩ "q.srv" =
      .ok ⟨"q.srv", ⟨.root, []⟩, []⟩ :=
    InstalledPackage.ofIndexFile_of_decode rfl decoded each
  have found : InstalledPackage.atLocation (loopTree service) [] ⟨.root, []⟩ = .ok loopFound := by
    refine InstalledPackage.atLocation_eq_ok_iff.2
      ⟨_, loopFound.map some, entries, Outcome.mapM_eq_ok_iff.2 ?_, rfl⟩
    exact .cons (InstalledPackage.ofIndexEntry_eq_some_iff.2 ⟨rfl, List.not_mem_nil, first⟩)
      (.cons (InstalledPackage.ofIndexEntry_eq_some_iff.2 ⟨rfl, List.not_mem_nil, second⟩) .nil)
  exact Outcome.bind_eq_ok_iff.2 ⟨_, Outcome.mapM_eq_ok_iff.2 (.cons found .nil), rfl⟩

/-- The file that both index files are about, as its path spells it. -/
def loopPath : Path :=
  ⟨.root, ["share", "p", "srv", "..", "..", "ament_index", "resource_index", "rosidl_interfaces",
    "q.srv"]⟩

theorem loopTree_paths : ∀ p ∈ loopFound, ∀ path ∈ p.paths, p.name = "p" ∧ path = loopPath := by
  decide +kernel

/-- The definition in that file is what the service says. -/
theorem loopTree_readDefinition {service : Text} {interface : Interface}
    (decoded : Utf8.decode (service.flatMap Utf8.bytesOf) = .ok service)
    (unified : service.unifyNewlines = service) :
    InstalledPackage.readDefinition (loopTree service) "p" loopPath = .ok interface ↔
      Interface.ofText .service "p" "q" service = .ok interface := by
  have file : (loopTree service).read loopPath = .ok (service.flatMap Utf8.bytesOf) := rfl
  have text : Interface.decode (service.flatMap Utf8.bytesOf) = .ok service := by
    rw [Interface.decode, decoded]
    exact congrArg Except.ok unified
  rw [InstalledPackage.readDefinition_eq_ok_iff, Interface.ofFile_eq_ok_iff]
  constructor
  · intro ⟨kind, bytes, found, isKind, isFile, isText, parsed⟩
    rw [file] at isFile
    cases isFile
    rw [text] at isText
    cases isText
    cases isKind
    exact parsed
  · intro parsed
    exact ⟨.service, _, service, rfl, file, text, parsed⟩

theorem loopService_decoded : Utf8.decode (loopService.flatMap Utf8.bytesOf) = .ok loopService := by
  decide +kernel

theorem loopSwapped_decoded : Utf8.decode (loopSwapped.flatMap Utf8.bytesOf) = .ok loopSwapped := by
  decide +kernel

theorem loopTree_run : ∃ result, run sampleSettings [] (loopTree loopService) = .ok result := by
  have parsed : (Interface.ofText .service "p" "q" loopService).isOk = true := by decide +kernel
  have values : ∀ p ∈ loopFound, ∀ outcome ∈ outcomes (loopTree loopService) p,
      ∃ value, outcome = .ok value := by
    intro p member outcome inOutcomes
    obtain ⟨path, inPaths, rfl⟩ := List.mem_map.1 inOutcomes
    obtain ⟨name, rfl⟩ := loopTree_paths p member path inPaths
    rw [name]
    cases read : Interface.ofText .service "p" "q" loopService with
    | error failure =>
        rw [read] at parsed
        cases parsed
    | ok interface =>
        exact ⟨interface, (loopTree_readDefinition loopService_decoded (by decide +kernel)).2 read⟩
  have discovered : InstalledPackage.discover (loopTree loopService) sampleSettings.excluded
      sampleSettings.locations = .ok loopFound :=
    loopTree_discover loopService_decoded (by decide +kernel)
  obtain ⟨packages, sources, -, generated⟩ := exists_generate (fun _ none_ => by cases none_)
    discovered values (by decide) (by decide) (by decide)
  exact ⟨_, run_of_generate rfl generated⟩

theorem loopTree_reorders :
    (loopTree loopService).Reorders (loopTree loopSwapped) sampleSettings.locations := by
  have lines : SameLines (loopService.flatMap Utf8.bytesOf) (loopSwapped.flatMap Utf8.bytesOf) :=
    ⟨loopService, loopSwapped, loopService_decoded, loopSwapped_decoded, by decide +kernel⟩
  have isIndex : (loopTree loopService).IsIndexAt sampleSettings.locations
      ["share", "ament_index", "resource_index", "rosidl_interfaces", "q.srv"] :=
    ⟨⟨.root, []⟩, List.mem_cons_self, "q.srv", rfl⟩
  have changed : loopTree loopSwapped =
      (loopTree loopService).setAt (.file (loopSwapped.flatMap Utf8.bytesOf))
        ["share", "ament_index", "resource_index", "rosidl_interfaces", "q.srv"] := rfl
  rw [changed]
  exact FileTree.reorders_setAt rfl isIndex lines

/-- **An index file that is read as a definition must keep its lines in order.**  A service in
an index file keeps two members of one name apart; its lines in another order do not. -/
theorem not_run_of_reorders :
    (∃ result, run sampleSettings [] (loopTree loopService) = .ok result) ∧
      (loopTree loopService).Reorders (loopTree loopSwapped) sampleSettings.locations ∧
      ¬ ∃ rest, run sampleSettings [] (loopTree loopSwapped) = .ok rest := by
  refine ⟨loopTree_run, loopTree_reorders, ?_⟩
  intro ⟨rest, returned⟩
  have refused : (Interface.ofText .service "p" "q" loopSwapped).isOk = false := by decide +kernel
  obtain ⟨found, stages⟩ := exists_stages returned
  have discovered := loopTree_discover loopSwapped_decoded (by decide +kernel)
  have same : Except.ok found = Except.ok loopFound := stages.discovered.symm.trans discovered
  cases same
  have inOutcomes : InstalledPackage.readDefinition (loopTree loopSwapped) "p" loopPath ∈
      outcomes (loopTree loopSwapped) ⟨"p", ⟨.root, []⟩, [loopEntry]⟩ :=
    List.mem_map_of_mem (by decide +kernel)
  obtain ⟨interface, read⟩ := stages.values _ List.mem_cons_self _ inOutcomes
  rw [loopTree_readDefinition loopSwapped_decoded (by decide +kernel)] at read
  rw [read] at refused
  cases refused

end Compile

end RosInterface
