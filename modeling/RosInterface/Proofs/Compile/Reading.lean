/-
# RosInterface.Proofs.Compile.Reading -- from index entries to packages

The kind and the name of a definition go a long way: they are read off a line of an index,
made part of a path, read off that path again, and sorted by.  `readDefinition_named` is the
step in the middle: the definition in the file of an entry has the kind and the name of the
entry.  So the packages of a run declare what their entries name, in whatever order
(`Compile.perm_declarationNames`).
-/
import RosInterface.Compile
import RosInterface.Proofs.Definition.Package
import RosInterface.Proofs.Install.Package

set_option autoImplicit false

namespace RosInterface

/-! ## One definition -/

theorem Kind.ofPath_of_suffix {path : Path} {kind : Kind} (suffix : path.suffix = kind.suffix) :
    Kind.ofPath path = .ok kind := by
  rw [Kind.ofPath, suffix]
  cases kind <;> rfl

variable {tree : FileTree} {package : Text} {interface : Interface}

/-- A definition in a file is read from the text of the file, under the stem of its path. -/
theorem Interface.ofFile_eq_ok_iff {path : Path} :
    ofFile tree package path = .ok interface ↔
      ∃ kind bytes text, Kind.ofPath path = .ok kind ∧ tree.read path = .ok bytes ∧
        decode bytes = .ok text ∧ ofText kind package path.stem text = .ok interface := by
  simp only [ofFile, ofFileAs, Outcome.bind_eq_ok_iff, Outcome.mapDiagnostic_eq_ok_iff,
    InstalledPackage.bytes_eq_ok_iff]
  constructor
  · intro ⟨kind, isKind, bytes, file, text, decoded, parsed⟩
    exact ⟨kind, bytes, text, isKind, file, decoded, parsed⟩
  · intro ⟨kind, bytes, text, isKind, file, decoded, parsed⟩
    exact ⟨kind, isKind, bytes, file, text, decoded, parsed⟩

theorem Interface.named_of_ofFile {path : Path} {kind : Kind} (suffix : path.suffix = kind.suffix)
    (read : ofFile tree package path = .ok interface) :
    interface.kind = kind ∧ interface.name = path.stem := by
  obtain ⟨other, bytes, text, isKind, -, -, parsed⟩ := ofFile_eq_ok_iff.1 read
  rw [Kind.ofPath_of_suffix suffix] at isKind
  cases isKind
  obtain ⟨sameKind, wellFormed⟩ := wellFormed_of_ofText parsed
  exact ⟨sameKind, wellFormed.name_eq⟩

namespace InstalledPackage

theorem readDefinition_eq_ok_iff {path : Path} :
    readDefinition tree package path = .ok interface ↔
      Interface.ofFile tree package path = .ok interface := by
  unfold readDefinition
  cases read : Interface.ofFile tree package path with
  | ok _ => rfl
  | error failure =>
      constructor
      · intro whole
        split at whole
        case h_1 => split at whole <;> cases whole
        case h_2 => exact whole
      · intro whole
        cases whole

/-- The file of an entry, below the folder of a package at a location. -/
def entryPath (package : InstalledPackage) (entry : IndexEntry) : Path :=
  package.location ++ Path.ofText "share" ++
    (Path.ofText package.name ++ Path.ofText entry.kind.text ++ entry.file)

theorem paths_eq (package : InstalledPackage) :
    package.paths = package.entries.map package.entryPath := by
  rw [paths, shareFiles, List.map_map]
  rfl

/-- The definition in the file of an entry has the kind and the name of the entry. -/
theorem readDefinition_named {package : InstalledPackage} {entry : IndexEntry}
    (placed : entry.Placed)
    (read : readDefinition tree package.name (package.entryPath entry) = .ok interface) :
    interface.kind = entry.kind ∧ interface.name = entry.name := by
  have file : (package.entryPath entry).name = entry.file.name := by
    rw [entryPath, Path.name_append (Path.components_append_ne_nil placed.components),
      Path.name_append placed.components]
  have suffix : (package.entryPath entry).suffix = entry.kind.suffix := by
    rw [Path.suffix, file]
    exact placed.suffix
  have stem : (package.entryPath entry).stem = entry.name := by
    rw [Path.stem, file]
    rfl
  rw [← stem]
  exact Interface.named_of_ofFile suffix (readDefinition_eq_ok_iff.1 read)

end InstalledPackage

/-! ## All definitions -/

namespace Compile

/-- A package as it is made of the definitions that were read. -/
def packageOf (tree : FileTree) (package : InstalledPackage) : Package :=
  .ofInterfaces package.name ((outcomes tree package).filterMap (·.value?)) package.shareFiles

/-- Outcomes of which none is an abort and none a diagnostic are values. -/
theorem forall_value_iff {α : Type} {outcomes : List (Outcome α)} :
    (∀ outcome ∈ outcomes, ∃ value, outcome = .ok value) ↔
      outcomes.findSome? (·.abort?) = none ∧ outcomes.filterMap (·.diagnostic?) = [] := by
  rw [List.findSome?_eq_none_iff, List.filterMap_eq_nil_iff, ← forall₂_and]
  refine forall₂_congr fun outcome _ => ?_
  match outcome with
  | .ok value => simp [Outcome.abort?, Outcome.diagnostic?]
  | .error (.abort _) => simp [Outcome.abort?]
  | .error (.diagnostic _) => simp [Outcome.diagnostic?]

theorem forall₂_values {α : Type} {outcomes : List (Outcome α)}
    (values : ∀ outcome ∈ outcomes, ∃ value, outcome = .ok value) :
    List.Forall₂ (fun outcome value => outcome = .ok value) outcomes
      (outcomes.filterMap (·.value?)) := by
  induction outcomes with
  | nil => exact .nil
  | cons outcome rest ih =>
      obtain ⟨value, rfl⟩ := values outcome List.mem_cons_self
      exact .cons rfl (ih fun other member => values other (List.mem_cons_of_mem _ member))

variable {workers : Option Int} {failFast : Bool} {found : List InstalledPackage}
  {packages : List Package}

theorem assemble_eq_ok_iff {read : List (InstalledPackage × List (Outcome Interface))} :
    assemble failFast read = .ok packages ↔
      (∀ outcome ∈ read.flatMap (·.2), ∃ value, outcome = .ok value) ∧
        packages = read.map fun (package, outcomes) =>
          .ofInterfaces package.name (outcomes.filterMap (·.value?)) package.shareFiles := by
  rw [forall_value_iff, assemble]
  simp only
  split
  case h_1 abort ends => simp [ends]
  case h_2 noAbort =>
    split
    case h_1 noDiagnostic => simp [noAbort, noDiagnostic, eq_comm]
    case h_2 first others diagnosed => simp [diagnosed]

theorem forall_outcomes_iff {p : Outcome Interface → Prop} :
    (∀ outcome ∈ (found.map fun package => (package, outcomes tree package)).flatMap (·.2),
      p outcome) ↔ ∀ package ∈ found, ∀ outcome ∈ outcomes tree package, p outcome := by
  rw [List.flatMap_map, List.forall_mem_flatMap]

/-- Packages are read when some worker may run and every definition of every package is. -/
theorem readPackages_eq_ok_iff :
    readPackages tree workers failFast found = .ok packages ↔
      (∀ count, workers = some count → 0 < count) ∧
        (∀ package ∈ found, ∀ outcome ∈ outcomes tree package, ∃ value, outcome = .ok value) ∧
        packages = found.map (packageOf tree) := by
  have allowed : (∀ count, workers = some count → 0 < count) ↔ ¬ workers.any (· ≤ 0) = true := by
    cases workers <;> simp
  rw [allowed, readPackages]
  split
  case isTrue refused => simp [refused]
  case isFalse positive =>
    rw [assemble_eq_ok_iff, forall_outcomes_iff, List.map_map]
    exact (and_iff_right positive).symm

/-- **A package declares what its entries name.** -/
theorem perm_declarationNames {package : InstalledPackage}
    (values : ∀ outcome ∈ outcomes tree package, ∃ value, outcome = .ok value)
    (placed : ∀ entry ∈ package.entries, entry.Placed) :
    (packageOf tree package).declarationNames.Perm
      (package.entries.map fun entry => (entry.kind, entry.name)) := by
  let interfaces := (outcomes tree package).filterMap (·.value?)
  have each : List.Forall₂ (fun entry interface => InstalledPackage.readDefinition tree package.name
      (package.entryPath entry) = .ok interface) package.entries interfaces := by
    have read := forall₂_values values
    rwa [outcomes, package.paths_eq, List.map_map, List.forall₂_map_left_iff, ← List.map_map,
      ← package.paths_eq] at read
  have named : package.entries.map (fun entry => (entry.kind, entry.name)) =
      interfaces.map fun i => (i.kind, i.name) := by
    refine Outcome.map_eq_of_forall₂ ((List.forall₂_and_left _ _).2 ⟨placed, each⟩)
      fun entry interface both => ?_
    obtain ⟨sameKind, sameName⟩ := InstalledPackage.readDefinition_named both.1 both.2
    rw [sameKind, sameName]
  rw [named]
  exact Package.perm_declarationNames_ofInterfaces

end Compile

end RosInterface
