/-
# RosInterface.Proofs.Compile.Perform -- a run that leaves a tree behind

`Compile.run` answers a result with the tree after the run, or a failure, and then says nothing
of the tree.  `Compile.perform` is the same run as an effect, stage by stage on the tree that is
there: it leaves a tree behind in every case, also where writing ends half way.  It answers what
the run answers (`Compile.answer_perform`), and leaves the tree of the result where there is one
(`Compile.perform_eq_ok_iff`).

Everything up to writing looks at the tree alone.  A run that fails in one of these stages
(`Compile.FailsBeforeWriting`) leaves the tree that it was given (`Compile.perform_of_fails`).
-/
import RosInterface.Proofs.Compile.Writing
import RosInterface.Proofs.Files.Effect

set_option autoImplicit false

namespace RosInterface.Compile

open FileTree (Effect)
open FileTree.Effect

variable {tree middle after : FileTree} {folder : Path} {source : Path × Text} {sources : Sources}
  {settings : Settings} {environment : Environment} {result : Result}

/-! ## The run as an effect -/

/-- Look at the tree and leave it alone. -/
def inspect {α : Type} (look : FileTree → CompileOutcome α) : Effect CompileFailure α := fun tree =>
  match look tree with
  | .ok value => .ok value tree
  | .error failure => .error failure tree

/-- Store one source below a folder. -/
def storeSource (folder : Path) (source : Path × Text) : Effect FileFault Unit :=
  FileTree.store (folder ++ source.1) source.2

/-- Store some sources below a folder, one after the other. -/
def storeAll (folder : Path) : Sources → Effect FileFault Unit
  | [] => pure ()
  | source :: rest => do
      storeSource folder source
      storeAll folder rest

/-- Store some sources below a folder, by path. -/
def storeSources (folder : Path) (sources : Sources) : Effect FileFault (List Path) := do
  storeAll folder (inOrder sources)
  return (inOrder sources).map fun source => folder ++ source.1

/-- The names of the packages, where nothing comes twice. -/
def acceptedNames (packages : List Package) (found : List InstalledPackage) :
    CompileOutcome (List Text) :=
  match checkDuplicates packages found with
  | .error fault => (Outcome.fault (.duplicate fault)).lift
  | .ok names => .ok names

/-- The packages that are generated: those that define anything, by name. -/
def generatedPackages (packages : List Package) : List Package :=
  (Text.sortOn (·.name) packages).filter fun package => !package.isEmpty

/-- Store what was generated, if there is a folder for it. -/
def storeOutput (output : Option Path) (sources : Sources) : Effect CompileFailure (List Path) :=
  match output with
  | none => pure []
  | some folder =>
      (storeSources folder sources).adaptExcept fun fault => .single (.abort (.file fault))

/-- The end of a run. -/
def finish (output : Option Path) (packageNames : List Text) (packages : List Package)
    (sources : Sources) : Effect CompileFailure Result := do
  let generatedFiles ← storeOutput output sources
  return { packageNames, packages, sources, generatedFiles, tree := ← get }

/-- A whole run, which leaves a tree behind however it ends. -/
def perform (settings : Settings) (environment : Environment) : Effect CompileFailure Result := do
  let settings := settings.resolve environment
  let found ← inspect fun tree =>
    (InstalledPackage.discover tree settings.excluded settings.locations).lift
  let packages ← inspect fun tree =>
    readPackages tree settings.workers settings.failFast found
  let packageNames ← inspect fun _ => acceptedNames packages found
  let packages := generatedPackages packages
  let sources ← inspect fun _ =>
    (Sources.ofPackages packages settings.layout settings.comments).lift
  finish settings.output packageNames packages sources

/-! ## Stages that fail -/

/-- A stage before writing fails: discovery, reading, the check for duplicates, or rendering. -/
inductive FailsBeforeWriting (settings : Settings) (tree : FileTree) : CompileFailure → Prop
  | discovery {failure : Failure}
      (failed :
        InstalledPackage.discover tree settings.excluded settings.locations = .error failure) :
      FailsBeforeWriting settings tree (.single failure)
  | reading {found : List InstalledPackage} {failure : CompileFailure}
      (discovered : InstalledPackage.discover tree settings.excluded settings.locations = .ok found)
      (failed : readPackages tree settings.workers settings.failFast found = .error failure) :
      FailsBeforeWriting settings tree failure
  | duplicates {found : List InstalledPackage} {packages : List Package} {fault : DuplicateFault}
      (discovered : InstalledPackage.discover tree settings.excluded settings.locations = .ok found)
      (read : readPackages tree settings.workers settings.failFast found = .ok packages)
      (failed : checkDuplicates packages found = .error fault) :
      FailsBeforeWriting settings tree (.single (.diagnostic (.ofFault (.duplicate fault))))
  | rendering {found : List InstalledPackage} {packages : List Package} {names : List Text}
      {failure : Failure}
      (discovered : InstalledPackage.discover tree settings.excluded settings.locations = .ok found)
      (read : readPackages tree settings.workers settings.failFast found = .ok packages)
      (accepted : checkDuplicates packages found = .ok names)
      (failed : Sources.ofPackages (generatedPackages packages) settings.layout settings.comments =
        .error failure) :
      FailsBeforeWriting settings tree (.single failure)

theorem inspect_of_ok {α : Type} {look : FileTree → CompileOutcome α} {value : α}
    (seen : look tree = .ok value) : inspect look tree = .ok value tree := by
  rw [inspect, seen]

theorem inspect_of_error {α : Type} {look : FileTree → CompileOutcome α} {failure : CompileFailure}
    (failed : look tree = .error failure) : inspect look tree = .error failure tree := by
  rw [inspect, failed]

theorem lift_eq_error_iff {α : Type} {outcome : Outcome α} {failure : CompileFailure} :
    outcome.lift = .error failure ↔ ∃ first, outcome = .error first ∧ failure = .single first := by
  cases outcome <;> simp [Outcome.lift, Except.mapError, eq_comm]

/-- Generation fails exactly where one of its stages does. -/
theorem generate_eq_error_iff {failure : CompileFailure} :
    generate settings tree = .error failure ↔ FailsBeforeWriting settings tree failure := by
  rw [generate, Outcome.bind_eq_error_iff, lift_eq_error_iff]
  constructor
  · rintro (⟨_, failed, rfl⟩ | ⟨found, discovered, rest⟩)
    · exact .discovery failed
    · replace discovered := Outcome.lift_eq_ok_iff.1 discovered
      rcases Outcome.bind_eq_error_iff.1 rest with failed | ⟨packages, read, rest⟩
      · exact .reading discovered failed
      · cases checked : checkDuplicates packages found with
        | error fault =>
            rw [checked] at rest
            cases rest
            exact .duplicates discovered read checked
        | ok names =>
            rw [checked] at rest
            rcases Outcome.bind_eq_error_iff.1 rest with lifted | ⟨_, _, ended⟩
            · obtain ⟨_, failed, rfl⟩ := lift_eq_error_iff.1 lifted
              exact .rendering discovered read checked failed
            · cases ended
  · intro fails
    cases fails with
    | discovery failed => exact .inl ⟨_, failed, rfl⟩
    | reading discovered failed =>
        exact .inr
          ⟨_, Outcome.lift_eq_ok_iff.2 discovered, Outcome.bind_eq_error_iff.2 (.inl failed)⟩
    | duplicates discovered read failed =>
        refine .inr ⟨_, Outcome.lift_eq_ok_iff.2 discovered,
          Outcome.bind_eq_error_iff.2 (.inr ⟨_, read, ?_⟩)⟩
        rw [failed]
        rfl
    | rendering discovered read accepted failed =>
        refine .inr ⟨_, Outcome.lift_eq_ok_iff.2 discovered,
          Outcome.bind_eq_error_iff.2 (.inr ⟨_, read, ?_⟩)⟩
        rw [accepted]
        exact Outcome.bind_eq_error_iff.2 (.inl (lift_eq_error_iff.2 ⟨_, failed, rfl⟩))

theorem acceptedNames_eq_ok_iff {packages : List Package} {found : List InstalledPackage}
    {names : List Text} :
    acceptedNames packages found = .ok names ↔ checkDuplicates packages found = .ok names := by
  rw [acceptedNames]
  cases checkDuplicates packages found <;> simp [Outcome.fault, Outcome.lift, Except.mapError]

theorem exists_stages_of_generate {names : List Text} {packages : List Package}
    (generated : generate settings tree = .ok (names, packages, sources)) :
    ∃ found all, InstalledPackage.discover tree settings.excluded settings.locations = .ok found ∧
      readPackages tree settings.workers settings.failFast found = .ok all ∧
      checkDuplicates all found = .ok names ∧ packages = generatedPackages all ∧
      Sources.ofPackages packages settings.layout settings.comments = .ok sources := by
  obtain ⟨found, discovered, rest⟩ := Outcome.bind_eq_ok_iff.1 generated
  obtain ⟨all, read, rest⟩ := Outcome.bind_eq_ok_iff.1 rest
  cases checked : checkDuplicates all found with
  | error fault =>
      rw [checked] at rest
      cases rest
  | ok accepted =>
      rw [checked] at rest
      obtain ⟨_, rendered, whole⟩ := Outcome.bind_eq_ok_iff.1 rest
      cases whole
      exact ⟨found, all, Outcome.lift_eq_ok_iff.1 discovered, read, checked, rfl,
        Outcome.lift_eq_ok_iff.1 rendered⟩

/-! ## How a run ends -/

/-- **A run that fails before writing leaves the tree as it was.** -/
theorem perform_of_fails {failure : CompileFailure}
    (fails : FailsBeforeWriting (settings.resolve environment) tree failure) :
    perform settings environment tree = .error failure tree := by
  unfold perform
  cases fails with
  | discovery failed =>
      exact bind_of_error (inspect_of_error (lift_eq_error_iff.2 ⟨_, failed, rfl⟩))
  | reading discovered failed =>
      rw [bind_of_ok (inspect_of_ok (Outcome.lift_eq_ok_iff.2 discovered))]
      exact bind_of_error (inspect_of_error failed)
  | duplicates discovered read failed =>
      rw [bind_of_ok (inspect_of_ok (Outcome.lift_eq_ok_iff.2 discovered)),
        bind_of_ok (inspect_of_ok read)]
      refine bind_of_error (inspect_of_error ?_)
      rw [acceptedNames, failed]
      rfl
  | rendering discovered read accepted failed =>
      rw [bind_of_ok (inspect_of_ok (Outcome.lift_eq_ok_iff.2 discovered)),
        bind_of_ok (inspect_of_ok read),
        bind_of_ok (inspect_of_ok (acceptedNames_eq_ok_iff.2 accepted))]
      exact bind_of_error (inspect_of_error (lift_eq_error_iff.2 ⟨_, failed, rfl⟩))

/-- A run that has generated its sources has writing left. -/
theorem perform_of_generate {names : List Text} {packages : List Package}
    (generated : generate (settings.resolve environment) tree = .ok (names, packages, sources)) :
    perform settings environment tree =
      finish (settings.resolve environment).output names packages sources tree := by
  obtain ⟨found, all, discovered, read, accepted, rfl, rendered⟩ :=
    exists_stages_of_generate generated
  unfold perform
  rw [bind_of_ok (inspect_of_ok (Outcome.lift_eq_ok_iff.2 discovered)),
    bind_of_ok (inspect_of_ok read),
    bind_of_ok (inspect_of_ok (acceptedNames_eq_ok_iff.2 accepted)),
    bind_of_ok (inspect_of_ok (Outcome.lift_eq_ok_iff.2 rendered))]

/-! ## Writing -/

theorem toExcept_storeSource :
    (toExcept (storeSource folder source tree)).mapError (fun fault => .abort (.file fault)) =
      writeSource folder tree source := by
  rw [storeSource, FileTree.toExcept_store, writeSource]
  cases (do
    let made ← tree.makeFolders (folder ++ source.1).parent
    made.writeText (folder ++ source.1) source.2) <;> rfl

/-- Storing ends as writing does, with the same tree or the same fault. -/
theorem toExcept_storeAll :
    (toExcept (storeAll folder sources tree)).mapError (fun fault => .abort (.file fault)) =
      sources.foldlM (writeSource folder) tree := by
  induction sources generalizing tree with
  | nil => rfl
  | cons source rest ih =>
      rw [storeAll, List.foldlM_cons, toExcept_bind, ← toExcept_storeSource]
      cases toExcept (storeSource folder source tree) with
      | error fault => rfl
      | ok middle => exact ih

theorem storeAll_eq_ok_iff {u : Unit} :
    storeAll folder sources tree = .ok u after ↔
      sources.foldlM (writeSource folder) tree = .ok after := by
  rw [← toExcept_storeAll, ← toExcept_eq_ok_iff]
  cases toExcept (storeAll folder sources tree) <;> simp [Except.mapError]

theorem foldlM_of_storeAll_eq_error {fault : FileFault}
    (failed : storeAll folder sources tree = .error fault after) :
    sources.foldlM (writeSource folder) tree = .error (.abort (.file fault)) := by
  rw [← toExcept_storeAll, failed]
  rfl

/-- Storing ends well exactly when writing does. -/
theorem storeSources_eq_ok_iff {files : List Path} :
    storeSources folder sources tree = .ok files after ↔
      writeSources folder tree sources = .ok (after, files) := by
  rw [storeSources, bind_eq_ok_iff, writeSources_eq_ok_iff]
  simp only [storeAll_eq_ok_iff]
  constructor
  · rintro ⟨_, middle, written, ended⟩
    cases ended
    exact ⟨written, rfl⟩
  · rintro ⟨written, rfl⟩
    exact ⟨(), after, written, rfl⟩

theorem adaptExcept_eq_ok_iff {ε δ α : Type} {x : Effect ε α} {f : ε → δ} {a : α} :
    x.adaptExcept f tree = .ok a after ↔ x tree = .ok a after := by
  rw [EStateM.adaptExcept]
  cases x tree <;> simp

theorem adaptExcept_eq_error_iff {ε δ α : Type} {x : Effect ε α} {f : ε → δ} {failure : δ} :
    x.adaptExcept f tree = .error failure after ↔
      ∃ fault, x tree = .error fault after ∧ f fault = failure := by
  rw [EStateM.adaptExcept]
  cases x tree with
  | ok a middle => simp
  | error fault middle => simp [and_comm]

theorem left_adaptExcept {ε δ α : Type} {x : Effect ε α} {f : ε → δ} :
    left (x.adaptExcept f tree) = left (x tree) := by
  rw [EStateM.adaptExcept]
  cases x tree <;> rfl

theorem storeOutput_eq_ok_iff {output : Option Path} {files : List Path} {names : List Text}
    {packages : List Package} :
    storeOutput output sources tree = .ok files after ↔
      Result.Written ⟨names, packages, sources, files, after⟩ output tree := by
  unfold Result.Written
  cases output with
  | none =>
      constructor
      · intro ended
        cases ended
        exact ⟨rfl, rfl⟩
      · rintro ⟨rfl, rfl⟩
        rfl
  | some folder => exact adaptExcept_eq_ok_iff.trans storeSources_eq_ok_iff

theorem finish_eq_ok_iff {output : Option Path} {names : List Text} {packages : List Package} :
    finish output names packages sources tree = .ok result after ↔
      result.packageNames = names ∧ result.packages = packages ∧ result.sources = sources ∧
        result.Written output tree ∧ result.tree = after := by
  obtain ⟨resultNames, resultPackages, resultSources, files, resultTree⟩ := result
  rw [finish, bind_eq_ok_iff]
  constructor
  · rintro ⟨_, _, written, whole⟩
    cases whole
    exact ⟨rfl, rfl, rfl, storeOutput_eq_ok_iff.1 written, rfl⟩
  · rintro ⟨rfl, rfl, rfl, written, rfl⟩
    exact ⟨files, resultTree, storeOutput_eq_ok_iff.2 written, rfl⟩

/-- Where the output cannot be stored, it cannot be written, for the same reason. -/
theorem writeSources_of_storeOutput {failure : CompileFailure}
    (failed : storeOutput (some folder) sources tree = .error failure after) :
    (writeSources folder tree sources).lift = .error failure := by
  obtain ⟨fault, ended, rfl⟩ := adaptExcept_eq_error_iff.1 failed
  rcases bind_eq_error_iff.1 ended with stored | ⟨_, _, _, returned⟩
  · rw [writeSources, foldlM_of_storeAll_eq_error stored]
    rfl
  · cases returned

/-- **The effect has the result of the run**, and leaves the tree of that result. -/
theorem perform_eq_ok_iff :
    perform settings environment tree = .ok result after ↔
      run settings environment tree = .ok result ∧ result.tree = after := by
  rw [run_eq_ok_iff]
  cases generated : generate (settings.resolve environment) tree with
  | error failure =>
      rw [perform_of_fails (generate_eq_error_iff.1 generated)]
      simp
  | ok all =>
      obtain ⟨names, packages, sources⟩ := all
      rw [perform_of_generate generated, finish_eq_ok_iff, Except.ok.injEq, Prod.mk.injEq,
        Prod.mk.injEq]
      constructor
      · rintro ⟨rfl, rfl, rfl, written, same⟩
        exact ⟨⟨⟨rfl, rfl, rfl⟩, written⟩, same⟩
      · rintro ⟨⟨⟨rfl, rfl, rfl⟩, written⟩, same⟩
        exact ⟨rfl, rfl, rfl, written, same⟩

theorem run_of_perform {failure : CompileFailure}
    (failed : perform settings environment tree = .error failure after) :
    run settings environment tree = .error failure := by
  cases generated : generate (settings.resolve environment) tree with
  | error other =>
      rw [perform_of_fails (generate_eq_error_iff.1 generated)] at failed
      cases failed
      exact Outcome.bind_eq_error_iff.2 (.inl generated)
  | ok all =>
      obtain ⟨names, packages, sources⟩ := all
      rw [perform_of_generate generated] at failed
      refine Outcome.bind_eq_error_iff.2 (.inr ⟨_, generated, ?_⟩)
      rcases bind_eq_error_iff.1 failed with stored | ⟨_, _, _, ended⟩
      · cases output : (settings.resolve environment).output with
        | none =>
            rw [output] at stored
            cases stored
        | some folder =>
            rw [output] at stored
            exact Outcome.bind_eq_error_iff.2 (.inl (writeSources_of_storeOutput stored))
      · cases ended

/-- **The effect answers what the run answers**, also where it fails. -/
theorem answer_perform :
    answer (perform settings environment tree) = run settings environment tree := by
  cases ended : perform settings environment tree with
  | ok result after => exact (perform_eq_ok_iff.1 ended).1.symm
  | error failure after => exact (run_of_perform ended).symm

/-! ## What writing changes -/

/-- The place is on the way to one of the sources below a folder. -/
def OnTheWay (tree : FileTree) (folder : Path) (sources : Sources) (place : List Text) : Prop :=
  ∃ source ∈ sources, tree.Passes (folder ++ source.1).parent place

/-- The place is that of one of the sources below a folder. -/
def IsTarget (tree : FileTree) (folder : Path) (sources : Sources) (place : List Text) : Prop :=
  ∃ source ∈ sources, place = tree.aim (folder ++ source.1)

/-- Folders are new only on the way to the sources, and no file is changed but theirs. -/
def ChangesOnly (folder : Path) (sources : Sources) (tree after : FileTree) : Prop :=
  tree.Changes after (OnTheWay tree folder sources) (IsTarget tree folder sources)

namespace ChangesOnly

variable {some_ : Sources}

/-- What is on the way and what is a target does not change with the tree. -/
theorem rebase (first : ChangesOnly folder sources tree middle)
    (second : ChangesOnly folder sources middle after) :
    middle.Changes after (OnTheWay tree folder sources) (IsTarget tree folder sources) := by
  refine second.mono (fun place way => ?_) fun place target => ?_
  · obtain ⟨source, member, passes⟩ := way
    exact ⟨source, member, first.passes_iff.1 passes⟩
  · obtain ⟨source, member, rfl⟩ := target
    exact ⟨source, member, first.aim_eq _⟩

theorem trans (first : ChangesOnly folder sources tree middle)
    (second : ChangesOnly folder sources middle after) : ChangesOnly folder sources tree after :=
  FileTree.Changes.trans first (first.rebase second)

theorem of_subset (subset : some_ ⊆ sources) (changes : ChangesOnly folder some_ tree after) :
    ChangesOnly folder sources tree after := by
  refine changes.mono (fun place way => ?_) fun place target => ?_
  · obtain ⟨source, member, passes⟩ := way
    exact ⟨source, subset member, passes⟩
  · obtain ⟨source, member, same⟩ := target
    exact ⟨source, subset member, same⟩

end ChangesOnly

theorem changesOnly_storeSource (member : source ∈ sources) :
    ChangesOnly folder sources tree (left (storeSource folder source tree)) :=
  FileTree.changes_store.mono (fun _ passes => ⟨source, member, passes⟩)
    fun _ same => ⟨source, member, same⟩

/-- However storing sources ends, they alone have been stored. -/
theorem changesOnly_storeAll :
    ChangesOnly folder sources tree (left (storeAll folder sources tree)) := by
  induction sources generalizing tree with
  | nil => exact .refl tree
  | cons source rest ih =>
      refine changes_bind (changesOnly_storeSource List.mem_cons_self) ?_
      intro _ middle _ changes
      have later :
          ChangesOnly folder (source :: rest) middle (left (storeAll folder rest middle)) :=
        ih.of_subset (List.subset_cons_self source rest)
      exact ChangesOnly.rebase changes later

theorem changesOnly_of_storeAll {u : Unit} (ended : storeAll folder sources tree = .ok u after) :
    ChangesOnly folder sources tree after := by
  have stored : ChangesOnly folder sources tree (left (storeAll folder sources tree)) :=
    changesOnly_storeAll
  rwa [ended] at stored

/-- Storing sources stores each of them at some point. -/
theorem exists_between {before later : Sources} {u : Unit}
    (ended : storeAll folder (before ++ source :: later) tree = .ok u after) :
    ∃ middle next, storeAll folder before tree = .ok () middle ∧
      storeSource folder source middle = .ok () next ∧
      storeAll folder later next = .ok () after := by
  induction before generalizing tree with
  | nil =>
      obtain ⟨_, next, first, others⟩ := bind_eq_ok_iff.1 ended
      exact ⟨tree, next, rfl, first, others⟩
  | cons earlier rest ih =>
      obtain ⟨_, between, first, others⟩ := bind_eq_ok_iff.1 ended
      obtain ⟨middle, next, there, stored, last⟩ := ih others
      exact ⟨middle, next, bind_eq_ok_iff.2 ⟨(), between, first, there⟩, stored, last⟩

theorem left_storeOutput_none : left (storeOutput none sources tree) = tree := rfl

theorem changesOnly_storeOutput :
    ChangesOnly folder sources tree (left (storeOutput (some folder) sources tree)) := by
  have stored : ChangesOnly folder sources tree (left (storeAll folder (inOrder sources) tree)) :=
    changesOnly_storeAll.of_subset (perm_inOrder sources).subset
  rw [storeOutput, left_adaptExcept]
  exact changes_bind stored fun _ middle _ _ => .refl middle

theorem left_finish {output : Option Path} {names : List Text} {packages : List Package} :
    left (finish output names packages sources tree) = left (storeOutput output sources tree) := by
  rw [finish]
  cases ended : storeOutput output sources tree with
  | ok files after => exact congrArg left (bind_of_ok ended)
  | error failure after => exact congrArg left (bind_of_error ended)

/-- A run without an output folder leaves the tree as it was, whether or not it has a result. -/
theorem left_perform_of_none (none_ : (settings.resolve environment).output = none) :
    left (perform settings environment tree) = tree := by
  cases generated : generate (settings.resolve environment) tree with
  | error failure =>
      rw [perform_of_fails (generate_eq_error_iff.1 generated)]
      rfl
  | ok all =>
      rw [perform_of_generate generated, left_finish, none_, left_storeOutput_none]

/-- **However a run ends** that has generated its sources, no file is changed but theirs. -/
theorem changesOnly_perform {names : List Text} {packages : List Package}
    (generated : generate (settings.resolve environment) tree = .ok (names, packages, sources))
    (output : (settings.resolve environment).output = some folder) :
    ChangesOnly folder sources tree (left (perform settings environment tree)) := by
  rw [perform_of_generate generated, left_finish, output]
  exact changesOnly_storeOutput

end RosInterface.Compile
