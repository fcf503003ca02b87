/-
# RosInterface.Proofs.Compile.Report -- what is reported when definitions cannot be read

The definitions of all packages are read before anything is reported, and there are three
ways in which that can end.  A file that ends the request does so in every mode, and it is the
first such file that does.  If there is none and every file was read, both modes give the same
packages.  Otherwise the files that failed have a diagnostic each, with their path in it: one
mode reports the first of these and the other one all of them, in the order of the files.
`Compile.readPackages_reports` states all three.

Files are taken in the order of the packages and, within a package, of its index
(`Compile.definitionFiles`).
-/
import RosInterface.Proofs.Compile.Run
import RosInterface.Proofs.Failure

set_option autoImplicit false

namespace RosInterface

/-! ## One definition -/

/-- A diagnostic about a definition file carries the path of the file, wherever it comes from:
the suffix, the bytes, the text or the file system. -/
theorem InstalledPackage.path_of_readDefinition {tree : FileTree} {package : Text} {path : Path}
    {d : Diagnostic} (failed : readDefinition tree package path = .error (.diagnostic d)) :
    d.path = some path := by
  unfold readDefinition at failed
  split at failed
  case h_1 fault same =>
    split at failed
    case h_1 report isReport =>
      cases failed
      rfl
    case h_2 => cases failed
  case h_2 =>
    rcases Outcome.bind_eq_error_iff.1 failed with unknown | ⟨kind, -, unread⟩
    · unfold Kind.ofPath at unknown
      split at unknown
      · cases unknown
      · cases unknown
        rfl
    · obtain ⟨inner, -, rfl⟩ := Outcome.mapDiagnostic_eq_diagnostic_iff.1 unread
      rfl

namespace Compile

variable {tree : FileTree} {workers : Option Int} {failFast : Bool}
  {found : List InstalledPackage}

/-! ## All definitions in order -/

/-- The definition files of some packages, each with the name of its package. -/
def definitionFiles (found : List InstalledPackage) : List (Text × Path) :=
  found.flatMap fun package => package.paths.map fun path => (package.name, path)

/-- What comes of reading one of them. -/
def outcomeOf (tree : FileTree) (file : Text × Path) : Outcome Interface :=
  InstalledPackage.readDefinition tree file.1 file.2

/-- The files that are not read, in order. -/
def unreadFiles (tree : FileTree) (found : List InstalledPackage) : List (Text × Path) :=
  (definitionFiles found).filter fun file => !(outcomeOf tree file).isOk

/-- The package has the name and the files of the one that was found, and its definitions are
those in the files, each once. -/
structure Gathers (tree : FileTree) (p : InstalledPackage) (package : Package) : Prop where
  name : package.name = p.name
  shareFiles : package.shareFiles = p.shareFiles
  definitions : ∃ interfaces,
    List.Forall₂ (fun path interface => outcomeOf tree (p.name, path) = .ok interface)
      p.paths interfaces ∧
    ∀ kind, (package.interfaces kind).Perm (interfaces.filter fun i => i.kind = kind)

theorem outcomes_eq (p : InstalledPackage) :
    outcomes tree p = (p.paths.map fun path => (p.name, path)).map (outcomeOf tree) := by
  rw [outcomes, List.map_map]
  rfl

theorem flatMap_outcomes :
    (found.map fun package => (package, outcomes tree package)).flatMap (·.2) =
      (definitionFiles found).map (outcomeOf tree) := by
  simp only [List.flatMap_map, definitionFiles, List.map_flatMap, outcomes_eq]

theorem forall_definitionFiles_iff :
    (∀ file ∈ definitionFiles found, ∃ value, outcomeOf tree file = .ok value) ↔
      ∀ p ∈ found, ∀ outcome ∈ outcomes tree p, ∃ value, outcome = .ok value := by
  simp only [outcomes_eq, List.forall_mem_map, definitionFiles, List.forall_mem_flatMap]

theorem gathers_packageOf {p : InstalledPackage}
    (values : ∀ outcome ∈ outcomes tree p, ∃ value, outcome = .ok value) :
    Gathers tree p (packageOf tree p) := by
  let interfaces : List Interface := (outcomes tree p).filterMap Outcome.value?
  refine ⟨rfl, rfl, interfaces, ?_, fun kind => Package.perm_interfaces_ofInterfaces⟩
  have read := forall₂_values values
  rw [outcomes, List.forall₂_map_left_iff] at read
  exact read

/-! ## How reading ends -/

/-- Reading, as it depends on the files alone. -/
theorem readPackages_eq (positive : ∀ count, workers = some count → 0 < count) :
    readPackages tree workers failFast found =
      match (definitionFiles found).findSome? fun file => (outcomeOf tree file).abort? with
      | some abort => .error (.single (.abort abort))
      | none =>
          match (definitionFiles found).filterMap fun file => (outcomeOf tree file).diagnostic? with
          | [] => .ok (found.map (packageOf tree))
          | first :: others =>
              .error (if failFast then .single (.diagnostic first)
                else .collected (first :: others)) := by
  have allowed : ¬ workers.any (· ≤ 0) = true := by
    cases workers with
    | none => simp
    | some count => simpa using positive count rfl
  unfold readPackages assemble
  rw [if_neg allowed]
  simp only [flatMap_outcomes, List.findSome?_map, List.filterMap_map, List.map_map]
  rfl

theorem abort?_eq_some_iff {outcome : Outcome Interface} {abort : Abort} :
    outcome.abort? = some abort ↔ outcome = .error (.abort abort) := by
  match outcome with
  | .ok _ => simp [Outcome.abort?]
  | .error (.abort a) => simp [Outcome.abort?]
  | .error (.diagnostic d) => simp [Outcome.abort?]

theorem abort?_eq_none_iff {outcome : Outcome Interface} :
    outcome.abort? = none ↔ ¬ outcome.Aborts := by
  rw [Option.eq_none_iff_forall_ne_some]
  simp only [ne_eq, abort?_eq_some_iff, Outcome.Aborts, not_exists]

/-- Files of which none ends the request have a diagnostic each where they are not read. -/
theorem forall₂_diagnostics {files : List (Text × Path)}
    (tame : ∀ file ∈ files, ¬ (outcomeOf tree file).Aborts) :
    List.Forall₂ (fun file d => outcomeOf tree file = .error (.diagnostic d))
      (files.filter fun file => !(outcomeOf tree file).isOk)
      (files.filterMap fun file => (outcomeOf tree file).diagnostic?) := by
  induction files with
  | nil => exact .nil
  | cons file rest ih =>
      have others := ih fun other member => tame other (List.mem_cons_of_mem _ member)
      match result : outcomeOf tree file with
      | .ok _ =>
          rw [List.filter_cons_of_neg (by rw [result]; exact Bool.false_ne_true),
            List.filterMap_cons_none (by rw [result]; rfl)]
          exact others
      | .error (.diagnostic d) =>
          rw [List.filter_cons_of_pos (by rw [result]; rfl),
            List.filterMap_cons_some (by rw [result]; rfl)]
          exact .cons result others
      | .error (.abort a) => exact absurd ⟨a, result⟩ (tame file List.mem_cons_self)

/-- **Both modes report the same failures, and completely.**  With a positive number of workers:
a file that ends the request ends it in both modes, and the first one does; where every file is
read, both modes give one package for each that was found, in order, with the definitions in
its files; and where some file is not read but none ends the request, the files that are not
read have a diagnostic each, in order and with their path, of which one mode reports the first
and the other one all. -/
theorem readPackages_reports (positive : ∀ count, workers = some count → 0 < count) :
    ((∃ file ∈ definitionFiles found, (outcomeOf tree file).Aborts) →
      ∃ before file after abort, definitionFiles found = before ++ file :: after ∧
        (∀ earlier ∈ before, ¬ (outcomeOf tree earlier).Aborts) ∧
        outcomeOf tree file = .error (.abort abort) ∧
        ∀ failFast, readPackages tree workers failFast found = .error (.single (.abort abort))) ∧
    ((∀ file ∈ definitionFiles found, ∃ value, outcomeOf tree file = .ok value) →
      ∃ packages, List.Forall₂ (Gathers tree) found packages ∧
        ∀ failFast, readPackages tree workers failFast found = .ok packages) ∧
    ((∀ file ∈ definitionFiles found, ¬ (outcomeOf tree file).Aborts) →
      (∃ file ∈ definitionFiles found, ∀ value, outcomeOf tree file ≠ .ok value) →
      ∃ first others,
        List.Forall₂ (fun file d => outcomeOf tree file = .error (.diagnostic d) ∧
          d.path = some file.2) (unreadFiles tree found) (first :: others) ∧
        readPackages tree workers true found = .error (.single (.diagnostic first)) ∧
        readPackages tree workers false found = .error (.collected (first :: others))) := by
  refine ⟨?_, ?_, ?_⟩
  · intro ⟨file, member, aborts⟩
    cases first : (definitionFiles found).findSome? fun file => (outcomeOf tree file).abort? with
    | none =>
        exact absurd aborts (abort?_eq_none_iff.1 (List.findSome?_eq_none_iff.1 first file member))
    | some abort =>
        obtain ⟨before, file, after, whole, ends, earlier⟩ := List.findSome?_eq_some_iff.1 first
        refine ⟨before, file, after, abort, whole, ?_, ?_, ?_⟩
        · intro other inBefore
          exact abort?_eq_none_iff.1 (earlier other inBefore)
        · exact abort?_eq_some_iff.1 ends
        · intro failFast
          rw [readPackages_eq positive, first]
  · intro each
    have values := forall_definitionFiles_iff.1 each
    refine ⟨found.map (packageOf tree), ?_, ?_⟩
    · rw [List.forall₂_map_right_iff, List.forall₂_same]
      intro p member
      exact gathers_packageOf (values p member)
    · intro failFast
      exact readPackages_eq_ok_iff.2 ⟨positive, values, rfl⟩
  · intro tame ⟨file, member, unread⟩
    have each := forall₂_diagnostics tame
    have noAbort : (definitionFiles found).findSome? (fun file => (outcomeOf tree file).abort?) =
        none := List.findSome?_eq_none_iff.2 fun other inFiles =>
      abort?_eq_none_iff.2 (tame other inFiles)
    have inUnread : file ∈ unreadFiles tree found := by
      refine List.mem_filter.2 ⟨member, ?_⟩
      cases result : outcomeOf tree file with
      | ok value => exact absurd result (unread value)
      | error _ => rfl
    cases diagnostics : (definitionFiles found).filterMap fun file =>
        (outcomeOf tree file).diagnostic? with
    | nil =>
        rw [diagnostics, List.forall₂_nil_right_iff] at each
        rw [unreadFiles, each] at inUnread
        cases inUnread
    | cons first others =>
        rw [diagnostics] at each
        refine ⟨first, others, ?_, ?_, ?_⟩
        · refine each.imp fun other d result => ?_
          exact ⟨result, InstalledPackage.path_of_readDefinition result⟩
        · rw [readPackages_eq positive, noAbort, diagnostics]
          rfl
        · rw [readPackages_eq positive, noAbort, diagnostics]
          rfl

/-! ## Two missing files -/

def sampleEmptyFile : Text × Path := ("p", ⟨.root, ["share", "p", "msg", "Empty.msg"]⟩)

def sampleGoneFile : Text × Path := ("p", ⟨.root, ["share", "p", "msg", "Gone.msg"]⟩)

def sampleLostFile : Text × Path := ("q", ⟨.root, ["share", "q", "srv", "Lost.srv"]⟩)

/-- Packages whose indexes name two files that are not in the tree, and one that is. -/
def sampleUnread : List InstalledPackage :=
  [⟨"p", ⟨.root, []⟩, [⟨.message, ⟨.none, ["Empty.msg"]⟩⟩, ⟨.message, ⟨.none, ["Gone.msg"]⟩⟩]⟩,
   ⟨"q", ⟨.root, []⟩, [⟨.service, ⟨.none, ["Lost.srv"]⟩⟩]⟩]

/-- What is said of a file that is not there. -/
def missingDiagnostic (path : Path) : Diagnostic :=
  (Diagnostic.ofFault (.file (.unreadable "No such file or directory"))).withPath path

/-- One mode reports the first of the missing files, the other one both. -/
theorem readPackages_reports_sample :
    readPackages sampleTree (some 2) true sampleUnread =
        .error (.single (.diagnostic (missingDiagnostic sampleGoneFile.2))) ∧
      readPackages sampleTree (some 2) false sampleUnread =
        .error (.collected [missingDiagnostic sampleGoneFile.2,
          missingDiagnostic sampleLostFile.2]) := by
  have files : definitionFiles sampleUnread = [sampleEmptyFile, sampleGoneFile, sampleLostFile] :=
    by decide +kernel
  have read : outcomeOf sampleTree sampleEmptyFile = .ok (.message ⟨"p", "Empty", [], []⟩) :=
    (List.cons.inj sampleTree_outcomes).1
  have gone : outcomeOf sampleTree sampleGoneFile =
      .error (.diagnostic (missingDiagnostic sampleGoneFile.2)) := rfl
  have lost : outcomeOf sampleTree sampleLostFile =
      .error (.diagnostic (missingDiagnostic sampleLostFile.2)) := rfl
  have unread : unreadFiles sampleTree sampleUnread = [sampleGoneFile, sampleLostFile] := by
    rw [unreadFiles, files]
    simp [read, gone, lost, Except.isOk, Except.toBool]
  have positive : ∀ count, some (2 : Int) = some count → 0 < count := by simp
  have tame : ∀ file ∈ definitionFiles sampleUnread, ¬ (outcomeOf sampleTree file).Aborts := by
    simp [files, read, gone, lost, Outcome.Aborts]
  have some_unread : ∃ file ∈ definitionFiles sampleUnread,
      ∀ value, outcomeOf sampleTree file ≠ .ok value :=
    ⟨sampleGoneFile, by simp [files], by simp [gone]⟩
  obtain ⟨first, others, each, one, all⟩ :=
    (readPackages_reports positive).2.2 tame some_unread
  rw [unread] at each
  cases each with
  | cons onFirst rest =>
      cases rest with
      | cons onSecond rest =>
          cases rest
          obtain ⟨result, -⟩ := onFirst
          obtain ⟨second, -⟩ := onSecond
          rw [gone] at result
          rw [lost] at second
          cases result
          cases second
          exact ⟨one, all⟩

end Compile

end RosInterface
