/-
# RosInterface.Proofs.Compile.AllOrNothing -- a run writes all of its sources or is refused first

A run that fails before writing, and a run without an output folder, leave the tree as it was.
A run with an output folder ends well exactly when nothing is in the way of its sources
(`Compile.Clear`): no file on the way to one, no folder in the place of one, and nothing that the
file system refuses.  Then it has written every source, each once and in the order of the paths,
and besides folders on the way nothing else in the tree has changed (`Result.Stored`).  Even a run
that fails while writing changes no file but those of its sources.

The main result is `Compile.perform_allOrNothing`.  A tree is asked to have names that can be
spelled in a path, as every file system's have (`Node.Named`).
-/
import RosInterface.Proofs.Compile.Perform
import RosInterface.Proofs.Compile.Targets

set_option autoImplicit false

namespace RosInterface.Compile

open FileTree (Effect)
open FileTree.Effect

variable {tree middle after : FileTree} {folder : Path} {source : Path × Text}
  {sources ordered : Sources} {settings : Settings} {environment : Environment} {result : Result}

/-! ## Nothing in the way -/

/-- Nothing is in the way of some sources below a folder. -/
structure Clear (tree : FileTree) (folder : Path) (sources : Sources) : Prop where
  /-- What is above a source is no file, and will not become one. -/
  above : ∀ source ∈ sources, ∀ place, tree.Passes (folder ++ source.1).parent place →
    tree.isFolderAt? place ≠ some false ∧ ¬ IsTarget tree folder sources place
  /-- No folder has the place of a source. -/
  free : ∀ source ∈ sources, tree.isFolderAt? (tree.aim (folder ++ source.1)) ≠ some true
  /-- The folder is looked for from somewhere that is there. -/
  start : ∀ source ∈ sources, tree.isFolderAt? (tree.start (folder ++ source.1)) = some true
  fine : ∀ source ∈ sources, FileTree.checkPath (folder ++ source.1) = .ok ()
  short : ∀ source ∈ sources, ∀ name ∈ (folder ++ source.1).components,
    FileTree.byteLength name ≤ FileTree.maximalName
  encodable : ∀ source ∈ sources, ∃ bytes, Utf8.encode? source.2 = some bytes

theorem IsTarget.of_subset {place : List Text} (some_ : ordered ⊆ sources)
    (target : IsTarget tree folder ordered place) : IsTarget tree folder sources place := by
  obtain ⟨source, member, same⟩ := target
  exact ⟨source, some_ member, same⟩

/-- The order of the sources does not matter. -/
theorem Clear.of_perm (perm : ordered.Perm sources) (clear : Clear tree folder sources) :
    Clear tree folder ordered where
  above source member place passes :=
    ⟨(clear.above source (perm.subset member) place passes).1, fun target =>
      (clear.above source (perm.subset member) place passes).2 (target.of_subset perm.subset)⟩
  free source member := clear.free source (perm.subset member)
  start source member := clear.start source (perm.subset member)
  fine source member := clear.fine source (perm.subset member)
  short source member := clear.short source (perm.subset member)
  encodable source member := clear.encodable source (perm.subset member)

/-- Nothing is in the way of a source either when others have been stored. -/
theorem Clear.takes (clear : Clear tree folder sources) (member : source ∈ sources)
    (descends : source.1.Descends)
    (changes : ChangesOnly folder sources tree middle) :
    middle.Takes (folder ++ source.1) source.2 where
  start := by
    rw [changes.start_eq]
    exact changes.within.kept _ true (clear.start source member)
  fine := clear.fine source member
  entry := descends.exists_child
  short := clear.short source member
  above place passes isFile := by
    obtain ⟨noFile, noTarget⟩ := clear.above source member place (changes.passes_iff.1 passes)
    exact (changes.isFolderAt?_of_isFile isFile).elim noFile noTarget
  free isFolder := by
    rw [changes.aim_eq] at isFolder
    rcases changes.isFolderAt?_of_folder isFolder with before | ⟨other, inSources, passes⟩
    · exact clear.free source member before
    · exact (clear.above other inSources _ passes).2 ⟨source, member, rfl⟩
  apart passes := by
    rw [changes.aim_eq, changes.passes_iff] at passes
    exact (clear.above source member _ passes).2 ⟨source, member, rfl⟩
  encodable := clear.encodable source member

/-- Sources can be stored one after the other where nothing is in the way of any. -/
theorem Clear.exists_storeAll (clear : Clear tree folder sources)
    (descend : ∀ source ∈ sources, source.1.Descends) (some_ : ordered ⊆ sources)
    (changes : ChangesOnly folder sources tree middle) :
    ∃ after, storeAll folder ordered middle = .ok () after := by
  induction ordered generalizing middle with
  | nil => exact ⟨middle, rfl⟩
  | cons source rest ih =>
      have member := some_ List.mem_cons_self
      have takes := clear.takes member (descend source member) changes
      obtain ⟨next, first⟩ := FileTree.exists_store_iff.2 takes
      have step : ChangesOnly folder sources middle (left (storeSource folder source middle)) :=
        changesOnly_storeSource member
      rw [storeSource, first] at step
      obtain ⟨after, others⟩ :=
        ih (fun _ later => some_ (List.mem_cons_of_mem _ later)) (changes.trans step)
      exact ⟨after, bind_eq_ok_iff.2 ⟨(), next, first, others⟩⟩

/-! ## What has been stored -/

/-- Where all sources have been stored, each one could be when its turn came; its folder is
there, and its file holds its text still. -/
theorem of_storeAll (descend : ∀ source ∈ ordered, source.1.Descends)
    (distinct : (Sources.paths ordered).Nodup)
    (ended : storeAll folder ordered tree = .ok () after) (member : source ∈ ordered) :
    ∃ middle, ChangesOnly folder ordered tree middle ∧
      middle.Takes (folder ++ source.1) source.2 ∧
      after.Opens (folder ++ source.1).parent (tree.aim (folder ++ source.1).parent) ∧
      ∃ bytes, Utf8.encode? source.2 = some bytes ∧
        after.contentAt? (tree.aim (folder ++ source.1)) = some (some bytes) ∧
        after.read (folder ++ source.1) = .ok bytes := by
  obtain ⟨before, later, rfl⟩ := List.append_of_mem member
  obtain ⟨middle, next, first, stored, last⟩ := exists_between ended
  have earlier : ChangesOnly folder (before ++ source :: later) tree middle :=
    (changesOnly_of_storeAll first).of_subset (List.subset_append_left _ _)
  have step : middle.Changes next (middle.Passes (folder ++ source.1).parent)
      (· = middle.aim (folder ++ source.1)) := FileTree.changes_of_store stored
  have lastly := changesOnly_of_storeAll last
  -- no source that is stored later goes to the same place
  have apart : ¬ IsTarget next folder later (next.aim (folder ++ source.1)) := by
    rintro ⟨other, inLater, same⟩
    have samePath := FileTree.aim_inj (descend source member)
      (descend other (List.mem_append_right _ (List.mem_cons_of_mem _ inLater))) same
    rw [Sources.paths, List.map_append, List.map_cons, List.nodup_append,
      List.nodup_cons] at distinct
    exact distinct.2.1.1 (samePath ▸ List.mem_map_of_mem inLater)
  have place (path : Path) : next.aim path = tree.aim path :=
    (step.aim_eq path).trans (earlier.aim_eq path)
  obtain ⟨opens, bytes, encoded, holds, reads⟩ := FileTree.of_store stored
  rw [← step.aim_eq, place] at holds
  rw [earlier.aim_eq] at opens
  refine ⟨middle, earlier, FileTree.exists_store_iff.1 ⟨next, stored⟩, lastly.within.opens opens,
    bytes, encoded, ?_, lastly.read_of_read apart reads⟩
  rw [place] at apart
  exact (lastly.contentAt?_of_file apart).2 holds

/-- **Sources can be stored exactly when nothing is in the way of any.** -/
theorem exists_storeAll_iff (descend : ∀ source ∈ ordered, source.1.Descends)
    (distinct : (Sources.paths ordered).Nodup) :
    (∃ after, storeAll folder ordered tree = .ok () after) ↔ Clear tree folder ordered := by
  constructor
  · rintro ⟨after, ended⟩
    have each {source : Path × Text} (member : source ∈ ordered) :=
      of_storeAll descend distinct ended member
    constructor
    · intro source member place passes
      obtain ⟨middle, changes, takes, opens, -⟩ := each member
      refine ⟨fun isFile => ?_, ?_⟩
      · exact takes.above place (changes.passes_iff.2 passes) (changes.within.kept _ false isFile)
      · rintro ⟨other, inOrdered, rfl⟩
        obtain ⟨_, _, _, _, bytes, _, holds, _⟩ := each inOrdered
        have only := changesOnly_of_storeAll ended
        have folder_ := opens.isFolderAt?_of_passes (only.passes_iff.2 passes)
        rw [FileTree.isFolderAt?_eq_true_iff, holds] at folder_
        cases folder_
    · intro source member isFolder
      obtain ⟨middle, changes, takes, -⟩ := each member
      refine takes.free ?_
      rw [changes.aim_eq]
      exact changes.within.kept _ true isFolder
    · intro source member
      cases ordered with
      | nil => cases member
      | cons first rest =>
          -- all sources are looked for from the place where the first one was
          obtain ⟨_, next, stored, -⟩ := bind_eq_ok_iff.1 ended
          have start := (FileTree.exists_store_iff.1 ⟨next, stored⟩).start
          rw [start_append (descend first List.mem_cons_self).relative] at start
          rw [start_append (descend source member).relative]
          exact start
    · intro source member
      obtain ⟨_, _, takes, -⟩ := each member
      exact takes.fine
    · intro source member
      obtain ⟨_, _, takes, -⟩ := each member
      exact takes.short
    · intro source member
      obtain ⟨_, _, takes, -⟩ := each member
      exact takes.encodable
  · exact fun clear => clear.exists_storeAll descend (List.Subset.refl _) (.refl tree)

/-! ## Whole runs -/

/-- What a run with an output folder has done: its files are those of its sources, each once and
in order; each file holds its text; the folders for them are there; and nothing else is new but
such folders. -/
structure Result.Stored (result : Result) (folder : Path) (tree after : FileTree) : Prop where
  perm : result.generatedFiles.Perm (result.sources.map fun source => folder ++ source.1)
  nodup : result.generatedFiles.Nodup
  inOrder : result.generatedFiles.Pairwise fun p q => p.le q = true
  holds : ∀ source ∈ result.sources, ∃ bytes, Utf8.encode? source.2 = some bytes ∧
    after.read (folder ++ source.1) = .ok bytes
  folders : ∀ source ∈ result.sources, after.isFolder (folder ++ source.1).parent = true
  /-- Every other file is as it was. -/
  others : ∀ place bytes, ¬ IsTarget tree folder result.sources place →
    (after.contentAt? place = some (some bytes) ↔ tree.contentAt? place = some (some bytes))
  /-- Every folder is still there, and the new ones are on the way to sources. -/
  folders_iff : ∀ place, after.isFolderAt? place = some true ↔
    tree.isFolderAt? place = some true ∨ OnTheWay tree folder result.sources place

theorem output_resolve (settings : Settings) (environment : Environment) :
    (settings.resolve environment).output = settings.output := by
  unfold Settings.resolve
  split <;> rfl

theorem pairwise_inOrder (sources : Sources) :
    (inOrder sources).Pairwise fun a b => a.1.le b.1 = true := by
  refine List.pairwise_mergeSort (fun a b c first second => ?_) (fun a b => ?_) sources
  · exact Path.componentsLe_trans first second
  · rw [Bool.or_eq_true]
    exact Path.componentsLe_total _ _

theorem nodup_paths_inOrder (distinct : sources.paths.Nodup) :
    (Sources.paths (inOrder sources)).Nodup := by
  rw [Sources.paths, ((perm_inOrder sources).map _).nodup_iff]
  exact distinct

/-- Sources that were written are stored. -/
theorem Result.Written.stored (descend : ∀ source ∈ result.sources, source.1.Descends)
    (distinct : result.sources.paths.Nodup)
    (written : result.Written (some folder) tree) : result.Stored folder tree result.tree := by
  obtain ⟨all, files⟩ := writeSources_eq_ok_iff.1 written
  have ended : storeAll folder (Compile.inOrder result.sources) tree = .ok () result.tree :=
    storeAll_eq_ok_iff.2 all
  have perm := perm_inOrder result.sources
  have descendToo : ∀ source ∈ Compile.inOrder result.sources, source.1.Descends :=
    fun source member => descend source (perm.subset member)
  have distinctToo := nodup_paths_inOrder distinct
  have only : ChangesOnly folder result.sources tree result.tree :=
    (changesOnly_of_storeAll ended).of_subset perm.subset
  have each {source : Path × Text} (member : source ∈ result.sources) :=
    of_storeAll descendToo distinctToo ended (perm.symm.subset member)
  constructor
  · rw [files]
    exact perm.map _
  · have ofPaths : result.generatedFiles =
        (Sources.paths (Compile.inOrder result.sources)).map (folder ++ ·) := by
      rw [files, Sources.paths, List.map_map]
      rfl
    rw [ofPaths]
    refine distinctToo.map_on fun p inPaths q alsoInPaths same => ?_
    obtain ⟨source, member, rfl⟩ := List.mem_map.1 inPaths
    obtain ⟨other, otherMember, rfl⟩ := List.mem_map.1 alsoInPaths
    exact Path.append_inj (descendToo source member) (descendToo other otherMember) same
  · rw [files, List.pairwise_map]
    refine (pairwise_inOrder result.sources).imp_of_mem fun {a b} first second below => ?_
    rw [Path.append_le_append (descendToo a first) (descendToo b second)]
    exact below
  · intro source member
    obtain ⟨_, _, _, _, bytes, encoded, -, reads⟩ := each member
    exact ⟨bytes, encoded, reads⟩
  · intro source member
    obtain ⟨_, _, takes, opens, -⟩ := each member
    exact FileTree.isFolder_iff.2 ⟨FileTree.checkPath_parent takes.fine, _, opens⟩
  · intro place bytes apart
    exact only.contentAt?_of_file apart
  · intro place
    constructor
    · exact only.isFolderAt?_of_folder
    · rintro (before | ⟨source, member, passes⟩)
      · exact only.within.kept place true before
      · obtain ⟨_, _, _, opens, -⟩ := each member
        exact opens.isFolderAt?_of_passes (only.passes_iff.2 passes)

/-- The output of a run can be stored exactly when nothing is in its way. -/
theorem exists_storeOutput_iff (descend : ∀ source ∈ sources, source.1.Descends)
    (distinct : sources.paths.Nodup) :
    (∃ files after, storeOutput (some folder) sources tree = .ok files after) ↔
      Clear tree folder sources := by
  have perm := perm_inOrder sources
  have all : (∃ after, storeAll folder (inOrder sources) tree = .ok () after) ↔
      Clear tree folder (inOrder sources) :=
    exists_storeAll_iff (fun source member => descend source (perm.subset member))
      (nodup_paths_inOrder distinct)
  constructor
  · rintro ⟨files, after, ended⟩
    obtain ⟨_, middle, stored, -⟩ := bind_eq_ok_iff.1 (adaptExcept_eq_ok_iff.1 ended)
    exact (all.1 ⟨middle, stored⟩).of_perm perm.symm
  · intro clear
    obtain ⟨after, stored⟩ := all.2 (clear.of_perm perm)
    exact ⟨_, after, adaptExcept_eq_ok_iff.2 (bind_eq_ok_iff.2 ⟨(), after, stored, rfl⟩)⟩

/-- **A run is all or nothing up to writing, and writes exactly its sources.**  As an effect it
answers what it answers as a function.  A stage that fails leaves the tree as it was, and so does
every run without an output folder.  With one, no other file changes, however the run ends; it
ends well exactly when nothing is in the way of its sources, and then they are stored. -/
theorem perform_allOrNothing (settings : Settings) (environment : Environment)
    (named : tree.root.Named) :
    answer (perform settings environment tree) = run settings environment tree ∧
    (∀ failure, FailsBeforeWriting (settings.resolve environment) tree failure →
      perform settings environment tree = .error failure tree) ∧
    (settings.output = none → left (perform settings environment tree) = tree) ∧
    ∀ folder names packages sources, settings.output = some folder →
      generate (settings.resolve environment) tree = .ok (names, packages, sources) →
      (∀ place bytes, ¬ IsTarget tree folder sources place →
        ((left (perform settings environment tree)).contentAt? place = some (some bytes) ↔
          tree.contentAt? place = some (some bytes))) ∧
      ((∃ result after, perform settings environment tree = .ok result after) ↔
        Clear tree folder sources) ∧
      ∀ result after, perform settings environment tree = .ok result after →
        result.tree = after ∧ result.sources = sources ∧ result.Stored folder tree after := by
  refine ⟨answer_perform, fun failure fails => perform_of_fails fails, fun none_ => ?_, ?_⟩
  · exact left_perform_of_none ((output_resolve settings environment).trans none_)
  · intro folder names packages sources toFolder generated
    have output := (output_resolve settings environment).trans toFolder
    have descend : ∀ source ∈ sources, source.1.Descends := fun source member =>
      Sources.descends_of_generate named generated source.1 (List.mem_map_of_mem member)
    have distinct : sources.paths.Nodup := by
      obtain ⟨-, -, rendered⟩ := generate_eq_ok_iff.1 generated
      exact Sources.nodup_paths_ofPackages rendered
    refine ⟨fun place bytes apart => ?_, ?_, fun result after ended => ?_⟩
    · exact (changesOnly_perform generated output).contentAt?_of_file apart
    · rw [← exists_storeOutput_iff descend distinct, perform_of_generate generated, output]
      constructor
      · rintro ⟨result, after, ended⟩
        obtain ⟨files, middle, stored, -⟩ := bind_eq_ok_iff.1 ended
        exact ⟨files, middle, stored⟩
      · rintro ⟨files, after, stored⟩
        exact ⟨_, after, bind_eq_ok_iff.2 ⟨files, after, stored, rfl⟩⟩
    · obtain ⟨returned, same⟩ := perform_eq_ok_iff.1 ended
      obtain ⟨again, written⟩ := run_eq_ok_iff.1 returned
      rw [generated, Except.ok.injEq, Prod.mk.injEq, Prod.mk.injEq] at again
      obtain ⟨-, -, rfl⟩ := again
      rw [output] at written
      exact ⟨same, rfl, same ▸ written.stored descend distinct⟩

/-! ## The small installation, written into its own folder -/

theorem sampleTree_named : sampleTree.root.Named := by
  have installation : (sampleInstallation "p" sampleIndex ["Empty.msg"]).Named :=
    sampleInstallation_named (by decide) (by decide)
  exact installation

def shareFolder : Path := ⟨.none, ["share"]⟩

/-- The settings of the small installation, with its share folder as output folder. -/
def storingSettings : Settings := { sampleSettings with output := some shareFolder }

def sampleTargets : List Path := [⟨.none, ["p", "__init__.py"]⟩, ⟨.none, ["p", "msg.py"]⟩]

/-- The sources of the small package are two, and both can be encoded. -/
theorem sample_sources {sources : Sources}
    (rendered : Sources.ofPackages [samplePackage] .package true = .ok sources) :
    sources.paths = sampleTargets ∧
      ∀ source ∈ sources, ∃ bytes, Utf8.encode? source.2 = some bytes := by
  have fits : (match Sources.ofPackages [samplePackage] .package true with
      | .ok sources => decide (sources.paths = sampleTargets) &&
          sources.all fun source => (Utf8.encode? source.2).isSome
      | .error _ => false) = true := by decide +kernel
  rw [rendered, Bool.and_eq_true, decide_eq_true_eq, List.all_eq_true] at fits
  exact ⟨fits.1, fun source member => Option.isSome_iff_exists.1 (fits.2 source member)⟩

theorem sampleTree_clear {sources : Sources} (paths : sources.paths = sampleTargets)
    (encodable : ∀ source ∈ sources, ∃ bytes, Utf8.encode? source.2 = some bytes) :
    Clear sampleTree shareFolder sources := by
  have inTargets {source : Path × Text} (member : source ∈ sources) : source.1 ∈ sampleTargets :=
    paths ▸ List.mem_map_of_mem member
  have onTheWay : ∀ path ∈ sampleTargets,
      ∀ count, count ≤ (shareFolder ++ path).parent.components.length →
        sampleTree.isFolderAt? (sampleTree.aim ((shareFolder ++ path).parent.upTo count)) ≠
            some false ∧
          ∀ other ∈ sampleTargets, sampleTree.aim ((shareFolder ++ path).parent.upTo count) ≠
            sampleTree.aim (shareFolder ++ other) := by decide +kernel
  constructor
  · rintro source member _ ⟨count, below, rfl⟩
    obtain ⟨noFile, apart⟩ := onTheWay source.1 (inTargets member) count below
    refine ⟨noFile, ?_⟩
    rintro ⟨other, inSources, same⟩
    exact apart other.1 (inTargets inSources) same
  · intro source member
    exact (show ∀ path ∈ sampleTargets,
      sampleTree.isFolderAt? (sampleTree.aim (shareFolder ++ path)) ≠ some true by decide +kernel)
        source.1 (inTargets member)
  · intro source member
    exact (show ∀ path ∈ sampleTargets,
      sampleTree.isFolderAt? (sampleTree.start (shareFolder ++ path)) = some true by decide +kernel)
        source.1 (inTargets member)
  · intro source member
    exact (show ∀ path ∈ sampleTargets,
      FileTree.checkPath (shareFolder ++ path) = .ok () by decide +kernel)
        source.1 (inTargets member)
  · intro source member
    exact (show ∀ path ∈ sampleTargets, ∀ name ∈ (shareFolder ++ path).components,
      FileTree.byteLength name ≤ FileTree.maximalName by decide +kernel) source.1 (inTargets member)
  · exact encodable

/-- Without workers nothing is read and the tree stays as it was; with an output folder that has
other files in it already, both sources are stored there. -/
theorem perform_allOrNothing_sample :
    sampleTree.root.Named ∧
      perform { sampleSettings with workers := some 0 } [] sampleTree =
        .error (.single (.abort .noWorkers)) sampleTree ∧
      left (perform sampleSettings [] sampleTree) = sampleTree ∧
      ∃ result after, perform storingSettings [] sampleTree = .ok result after ∧
        run storingSettings [] sampleTree = .ok result ∧
        result.sources.paths = sampleTargets ∧ result.Stored shareFolder sampleTree after := by
  have noWorkers : FailsBeforeWriting { sampleSettings with workers := some 0 } sampleTree
      (.single (.abort .noWorkers)) := .reading sampleTree_discover rfl
  obtain ⟨-, failing, -, -⟩ :=
    perform_allOrNothing { sampleSettings with workers := some 0 } [] sampleTree_named
  obtain ⟨-, -, unwritten, -⟩ := perform_allOrNothing sampleSettings [] sampleTree_named
  obtain ⟨answers, -, -, writing⟩ := perform_allOrNothing storingSettings [] sampleTree_named
  obtain ⟨sources, generated⟩ := sampleTree_generate
  obtain ⟨-, -, rendered⟩ := generate_eq_ok_iff.1 generated
  obtain ⟨paths, encodable⟩ := sample_sources rendered
  obtain ⟨-, ends, stores⟩ := writing shareFolder ["p"] [samplePackage] sources rfl generated
  obtain ⟨result, after, ended⟩ := ends.2 (sampleTree_clear paths encodable)
  obtain ⟨-, same, stored⟩ := stores result after ended
  rw [ended, answer] at answers
  exact ⟨sampleTree_named, failing _ noWorkers, unwritten rfl, result, after, ended, answers.symm,
    same ▸ paths, stored⟩

end RosInterface.Compile
