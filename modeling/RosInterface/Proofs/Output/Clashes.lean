/-
# RosInterface.Proofs.Output.Clashes -- what generation can lose to a name clash

Modules that share a path are one file in the end, and classes that share a name are one
class.  The check for duplicates compares definitions of one kind by name, and a layout
with a module for each definition compares module names.  Two things are compared by
neither: a module with the initial module of its kind, and a class with the classes that
another definition brings.  `Package.FilesApart` and `ClassesApart` say that nothing of
that kind happens, and the main result is that they say exactly what has to be ruled out
(`Package.generated_apart_iff`).  The package `Package.clashing` passes the check and is
generated, and it has both clashes.
-/
import RosInterface.Proofs.Compile.Duplicates
import RosInterface.Proofs.Files.Path
import RosInterface.Proofs.Output.ClassNames
import RosInterface.Proofs.Output.Source
import RosInterface.Proofs.Text.Order

set_option autoImplicit false

namespace RosInterface.Package

variable {package : Package} {layout : ModuleLayout} {kind : Kind}

/-! ## The paths of modules -/

/-- Where the module of a definition lies in the folder of its kind. -/
def ownPlace (interface : Interface) : List Text :=
  Path.componentsOf (moduleStem interface ++ ".py")

/-- What lies in the folder of a package for a kind. -/
def place (layout : ModuleLayout) (kind : Kind) : Text :=
  if layout = .declaration then kind.text else kind.text ++ ".py"

theorem place_inj {other : Kind} : place layout kind = place layout other ↔ kind = other := by
  cases layout <;> cases kind <;> cases other <;> decide

theorem place_ne_initialName : place layout kind ≠ ModuleFile.initialName := by
  cases layout <;> cases kind <;> decide

theorem pathTo_eq {below : List Text} (component : Path.IsComponent package.name)
    (relative : ∀ part ∈ below, Path.anchorOf part = .none) :
    package.pathTo below = ⟨.none, package.name :: below.flatMap Path.componentsOf⟩ := by
  rw [pathTo, Path.foldl_append_of_relative relative, component]
  rfl

variable (component : Path.IsComponent package.name)
include component

theorem pathTo_initial :
    package.pathTo [ModuleFile.initialName] = ⟨.none, [package.name, ModuleFile.initialName]⟩ :=
  pathTo_eq component (by decide)

theorem pathTo_whole :
    package.pathTo [kind.text ++ ".py"] = ⟨.none, [package.name, kind.text ++ ".py"]⟩ := by
  rw [pathTo_eq component (by cases kind <;> decide)]
  cases kind <;> rfl

theorem path_ownModule (interface : Interface) :
    (package.ownModule kind interface).path =
      ⟨.none, package.name :: kind.text :: ownPlace interface⟩ := by
  have relative : ∀ part ∈ [kind.text, moduleStem interface ++ ".py"],
      Path.anchorOf part = .none := by
    rw [List.forall_mem_cons, List.forall_mem_singleton]
    exact ⟨by cases kind <;> decide, rfl⟩
  have folder : Path.componentsOf kind.text = [kind.text] := by cases kind <;> decide
  refine (pathTo_eq component relative).trans ?_
  rw [List.flatMap_cons, folder, List.flatMap_singleton]
  rfl

theorem path_exportModule (named : List (Text × ModuleFile)) :
    (package.exportModule kind named).path =
      ⟨.none, [package.name, kind.text, ModuleFile.initialName]⟩ := by
  refine (pathTo_eq component ?_).trans ?_
  · cases kind <;> decide
  · cases kind <;> rfl

/-- The paths of the modules of the definitions of a kind, and of its initial module. -/
theorem paths_kindFiles_declaration (some_ : package.interfaces kind ≠ []) :
    (package.kindFiles .declaration kind).map (·.path) =
      ((package.interfaces kind).map ownPlace ++ [[ModuleFile.initialName]]).map fun rest =>
        ⟨.none, package.name :: kind.text :: rest⟩ := by
  have own : (package.interfaces kind).map (fun i => (package.ownModule kind i).path) =
      (package.interfaces kind).map fun i => ⟨.none, package.name :: kind.text :: ownPlace i⟩ :=
    List.map_congr_left fun i _ => path_ownModule component i
  rw [kindFiles_declaration some_, List.map_append, List.map_append, List.map_singleton,
    path_exportModule component, namedModules, List.map_map, List.map_map, List.map_map]
  exact congrArg (· ++ _) own

/-- The paths of a kind begin with the package and the place of the kind. -/
theorem path_of_mem_kindFiles {file : ModuleFile} (member : file ∈ package.kindFiles layout kind) :
    ∃ rest, file.path = ⟨.none, package.name :: place layout kind :: rest⟩ := by
  have some_ : package.interfaces kind ≠ [] := by
    intro empty
    rw [kindFiles_of_eq_nil empty] at member
    cases member
  by_cases chosen : layout = .declaration
  · subst chosen
    have inPaths := List.mem_map_of_mem (f := (·.path)) member
    rw [paths_kindFiles_declaration component some_] at inPaths
    obtain ⟨rest, -, same⟩ := List.mem_map.1 inPaths
    exact ⟨rest, same.symm⟩
  · rw [kindFiles_of_ne chosen some_, List.mem_singleton] at member
    subst member
    exact ⟨[], (pathTo_whole component).trans (by rw [place, if_neg chosen])⟩

/-- The paths of a package begin with its name. -/
theorem path_of_mem_files {file : ModuleFile} (member : file ∈ package.files layout) :
    ∃ rest, file.path = ⟨.none, package.name :: rest⟩ := by
  rcases mem_files_iff.1 member with rfl | ⟨kind, ofKind⟩
  · exact ⟨_, pathTo_initial component⟩
  · obtain ⟨rest, path⟩ := path_of_mem_kindFiles component ofKind
    exact ⟨_, path⟩

/-! ## When paths are distinct -/

omit component in
/-- No definition of a kind has its module where another one has it, or where the initial
module of the kind is. -/
structure FilesApart (package : Package) (kind : Kind) : Prop where
  distinct : ((package.interfaces kind).map ownPlace).Nodup
  initial : ∀ i ∈ package.interfaces kind, ownPlace i ≠ [ModuleFile.initialName]

omit component in
/-- A module name without a slash is one component. -/
theorem ownPlace_of_plain {interface : Interface}
    (plain : CodePoint.slash ∉ moduleStem interface) :
    ownPlace interface = [moduleStem interface ++ ".py"] := by
  have free : CodePoint.slash ∉ moduleStem interface ++ Text.ofString ".py" := by
    rw [List.mem_append, not_or]
    exact ⟨plain, by decide⟩
  exact Path.componentsOf_of_not_mem free (by simp [moduleStem, Text.ofString])
    (by simp [moduleStem, Text.ofString])

omit component in
/-- Among definitions without a slash in their module names, which differ, only the initial
module can be met. -/
theorem filesApart_iff_of_plain
    (plain : ∀ i ∈ package.interfaces kind, CodePoint.slash ∉ moduleStem i)
    (distinct : ((package.interfaces kind).map moduleStem).Nodup) :
    package.FilesApart kind ↔ ∀ i ∈ package.interfaces kind, moduleStem i ≠ "__init__" := by
  have single : ∀ i ∈ package.interfaces kind, ownPlace i = [moduleStem i ++ ".py"] :=
    fun i member => ownPlace_of_plain (plain i member)
  have places : (package.interfaces kind).map ownPlace =
      ((package.interfaces kind).map moduleStem).map fun stem => [stem ++ Text.ofString ".py"] := by
    rw [List.map_map]
    exact List.map_congr_left single
  have injective : Function.Injective fun stem : Text => [stem ++ Text.ofString ".py"] := by
    intro first second same
    simpa using same
  have initial : ∀ i ∈ package.interfaces kind,
      ownPlace i = [ModuleFile.initialName] ↔ moduleStem i = "__init__" := by
    intro i member
    rw [single i member]
    exact injective.eq_iff (b := Text.ofString "__init__")
  constructor
  · intro apart i member same
    exact apart.initial i member ((initial i member).2 same)
  · intro none_
    refine ⟨?_, fun i member same => none_ i member ((initial i member).1 same)⟩
    rw [places]
    exact distinct.map injective

theorem nodup_paths_kindFiles_iff :
    ((package.kindFiles layout kind).map (·.path)).Nodup ↔
      (layout = .declaration → package.FilesApart kind) := by
  by_cases empty : package.interfaces kind = []
  · have apart : package.FilesApart kind := ⟨by simp [empty], by simp [empty]⟩
    simp [kindFiles_of_eq_nil empty, apart]
  · by_cases chosen : layout = .declaration
    · subst chosen
      have injective : Function.Injective fun rest : List Text =>
          (⟨.none, package.name :: kind.text :: rest⟩ : Path) := by
        intro first second same
        simpa using same
      rw [paths_kindFiles_declaration component empty, List.nodup_map_iff injective,
        List.nodup_append]
      constructor
      · rintro ⟨distinct, -, apart⟩ -
        exact ⟨distinct, fun i member => apart _ (List.mem_map_of_mem member) _
          (List.mem_singleton_self _)⟩
      · intro apart
        obtain ⟨distinct, initial⟩ := apart rfl
        refine ⟨distinct, List.pairwise_singleton _ _, ?_⟩
        simpa using initial
    · simp [kindFiles_of_ne chosen empty, chosen]

theorem nodup_paths_files_iff :
    ((package.files layout).map (·.path)).Nodup ↔
      (layout = .declaration → ∀ kind, package.FilesApart kind) := by
  have all : Kind.all.Nodup := by decide
  have apart : ∀ a ∈ Kind.all, ∀ b ∈ Kind.all, a ≠ b →
      List.Disjoint ((package.kindFiles layout a).map (·.path))
        ((package.kindFiles layout b).map (·.path)) := by
    intro a _ b _ differ path inFirst inSecond
    obtain ⟨file, member, rfl⟩ := List.mem_map.1 inFirst
    obtain ⟨other, otherMember, same⟩ := List.mem_map.1 inSecond
    obtain ⟨rest, first⟩ := path_of_mem_kindFiles component member
    obtain ⟨more, second⟩ := path_of_mem_kindFiles component otherMember
    rw [first, second] at same
    simp only [Path.mk.injEq, List.cons.injEq, true_and] at same
    exact differ (place_inj.1 same.1).symm
  have initial : package.pathTo [ModuleFile.initialName] ∉
      Kind.all.flatMap fun kind => (package.kindFiles layout kind).map (·.path) := by
    intro member
    obtain ⟨kind, -, inPaths⟩ := List.mem_flatMap.1 member
    obtain ⟨file, ofKind, same⟩ := List.mem_map.1 inPaths
    obtain ⟨rest, path⟩ := path_of_mem_kindFiles component ofKind
    rw [path, pathTo_initial component] at same
    simp only [Path.mk.injEq, List.cons.injEq, true_and] at same
    exact place_ne_initialName same.1
  rw [files, List.map_cons, List.map_flatMap, List.nodup_cons,
    nodup_flatMap_iff_of_nodup all]
  simp only [nodup_paths_kindFiles_iff component]
  constructor
  · rintro ⟨-, each, -⟩ chosen kind
    exact each kind kind.mem_all chosen
  · intro each
    exact ⟨initial, fun kind _ chosen => each chosen kind, apart⟩

omit component

/-- The modules of packages of different names share no path. -/
theorem nodup_paths_iff {packages : List Package}
    (components : ∀ p ∈ packages, Path.IsComponent p.name)
    (distinct : (packages.map (·.name)).Nodup) :
    ((packages.flatMap (·.files layout)).map (·.path)).Nodup ↔
      (layout = .declaration → ∀ p ∈ packages, ∀ kind, p.FilesApart kind) := by
  have apart : ∀ a ∈ packages, ∀ b ∈ packages, a ≠ b →
      List.Disjoint ((a.files layout).map (·.path)) ((b.files layout).map (·.path)) := by
    intro a inPackages b inPackages' differ path inFirst inSecond
    obtain ⟨file, member, rfl⟩ := List.mem_map.1 inFirst
    obtain ⟨other, otherMember, same⟩ := List.mem_map.1 inSecond
    obtain ⟨rest, first⟩ := path_of_mem_files (components a inPackages) member
    obtain ⟨more, second⟩ := path_of_mem_files (components b inPackages') otherMember
    rw [first, second] at same
    simp only [Path.mk.injEq, List.cons.injEq, true_and] at same
    exact differ (List.inj_on_of_nodup_map distinct inPackages inPackages' same.1.symm)
  rw [List.map_flatMap, nodup_flatMap_iff_of_nodup distinct.of_map]
  constructor
  · rintro ⟨each, -⟩ chosen p member
    exact (nodup_paths_files_iff (components p member)).1 (each p member) chosen
  · intro each
    refine ⟨fun p member => ?_, apart⟩
    exact (nodup_paths_files_iff (components p member)).2 fun chosen => each chosen p member

/-! ## What generation keeps -/

/-- **Which clashes generation does not rule out.**  For packages that pass the check for
duplicates and are generated, every module keeps its text, and no two of them share a path,
exactly when in a layout with a module for each definition none of these is where another
module of its kind is; and the classes of a kind have distinct names exactly when no
definition has the name of another one with what is added for a class. -/
theorem generated_apart_iff {packages : List Package} {found : List InstalledPackage}
    {names : List Text} {layout : ModuleLayout} {comments : Bool} {sources : Sources}
    (parsed : ∀ p ∈ packages, p.Parsed)
    (components : ∀ p ∈ packages, Path.IsComponent p.name)
    (accepted : Compile.checkDuplicates packages found = .ok names)
    (generated : Sources.ofPackages packages layout comments = .ok sources) :
    ∃ parts, packages.mapM (·.modules layout) = .ok parts ∧
      ((parts.flatten.map (·.path)).Nodup ↔
        (layout = .declaration → ∀ p ∈ packages, ∀ kind, p.FilesApart kind)) ∧
      (layout ≠ .single →
        (sources.Hold layout comments parts.flatten ↔ (parts.flatten.map (·.path)).Nodup)) ∧
      (layout = .single → sources.paths = [Path.ofText Sources.singleFileName]) ∧
      ∀ p ∈ packages, ∀ files, p.modules layout = .ok files →
        ∀ kind, (classNames kind files).Nodup ↔ p.ClassesApart kind := by
  obtain ⟨rfl, distinctNames, each⟩ := Compile.checkDuplicates_eq_ok_iff.1 accepted
  have distinct := (Text.perm_sort _).nodup_iff.1 distinctNames
  have classes : ∀ p ∈ packages, ∀ files, p.modules layout = .ok files →
      ∀ kind, (classNames kind files).Nodup ↔ p.ClassesApart kind := by
    intro p member files laidOut kind
    obtain ⟨-, rfl⟩ := modules_eq_ok_iff.1 laidOut
    exact nodup_classNames_iff (parsed p member) (each p member)
  have paths {parts : List (List ModuleFile)}
      (laidOut : packages.mapM (·.modules layout) = .ok parts) :
      (parts.flatten.map (·.path)).Nodup ↔
        (layout = .declaration → ∀ p ∈ packages, ∀ kind, p.FilesApart kind) := by
    obtain ⟨-, rfl⟩ := (Outcome.mapM_eq_ok_map_iff fun _ _ => modules_eq_ok_iff).1 laidOut
    rw [← List.flatMap_def]
    exact nodup_paths_iff components distinct
  by_cases single : layout = .single
  · subst single
    have laidOut : packages.mapM (·.modules .single) = .ok (packages.map (·.files .single)) :=
      (Outcome.mapM_eq_ok_map_iff fun _ _ => modules_eq_ok_iff).2
        ⟨fun _ _ chosen => absurd chosen (by decide), rfl⟩
    exact ⟨_, laidOut, paths laidOut, fun many => absurd rfl many,
      fun _ => Sources.paths_of_ofPackages_single generated, classes⟩
  · obtain ⟨parts, laidOut, kept⟩ := Sources.hold_iff_of_ofPackages single generated
    exact ⟨parts, laidOut, paths laidOut, fun _ => kept, fun chosen => absurd chosen single,
      classes⟩

/-! ## A package with clashes -/

/-- A message with the name of the initial module, and a service with the name of the
request of another one. -/
def clashing : Package where
  name := "p"
  messages := [⟨"p", "_init__", [], []⟩]
  services :=
    [⟨"p", "A", ⟨"p", "A_Request", [], []⟩, ⟨"p", "A_Response", [], []⟩⟩,
     ⟨"p", "A_Request", ⟨"p", "A_Request_Request", [], []⟩, ⟨"p", "A_Request_Response", [], []⟩⟩]
  actions := []
  shareFiles := []

theorem clashing_parsed : clashing.Parsed := by
  have blank : Section.all "" = [[(1, [])]] := by decide +kernel
  have cut : Section.all "---\n" = [[], []] := by decide +kernel
  have message : Interface.ofText .message "p" "_init__" "" =
      .ok (.message ⟨"p", "_init__", [], []⟩) :=
    Interface.ofText_message blank (Message.ofSection_of_silent rfl)
  have service (name : Text) : Interface.ofText .service "p" name "---\n" =
      .ok (.service ⟨"p", name, ⟨"p", name ++ "_Request", [], []⟩,
        ⟨"p", name ++ "_Response", [], []⟩⟩) := by
    refine Interface.ofText_eq_ok_iff.2 ⟨rfl, Interface.readMessages_eq_ok_iff.2 ?_,
      .inr ⟨rfl, rfl⟩⟩
    rw [cut]
    exact ⟨rfl, .cons (Message.ofSection_of_silent rfl)
      (.cons (Message.ofSection_of_silent rfl) .nil)⟩
  apply parsed_of_inOrder
  · intro kind
    cases kind <;> decide +kernel
  · intro kind interface member
    cases kind with
    | message =>
        cases List.mem_singleton.1 member
        exact ⟨_, _, message⟩
    | service =>
        rcases List.mem_pair.1 member with rfl | rfl
        · exact ⟨_, _, service "A"⟩
        · exact ⟨_, _, service "A_Request"⟩
    | action => cases member

theorem clashing_accepted : Compile.checkDuplicates [clashing] [] = .ok ["p"] :=
  Compile.checkDuplicates_eq_ok_iff.2 ⟨by decide +kernel, by decide, by decide +kernel⟩

theorem clashing_modules : clashing.modules .declaration = .ok (clashing.files .declaration) := by
  refine modules_eq_ok_iff.2 ⟨fun _ kind => ?_, rfl⟩
  cases kind <;> decide +kernel

theorem clashing_generated :
    ∃ sources, Sources.ofPackages [clashing] .declaration true = .ok sources := by
  have texts : ∃ texts, (clashing.files .declaration).mapM (·.text .declaration true) = .ok texts :=
    ⟨_, rfl⟩
  obtain ⟨texts, written⟩ := texts
  have own : Sources.ofPackage clashing .declaration true =
      .ok (Sources.merge [] (((clashing.files .declaration).map (·.path)).zip texts)) := by
    rw [Sources.ofPackage_eq (by decide), clashing_modules]
    exact Outcome.bind_eq_ok_iff.2 ⟨texts, written, rfl⟩
  rw [Sources.ofPackages_eq (by decide)]
  exact ⟨_, Outcome.bind_eq_ok_iff.2 ⟨[_], Outcome.mapM_eq_ok_iff.2 (.cons own .nil), rfl⟩⟩

/-- The package with clashes is let through, and it loses a module and a class. -/
theorem clashing_loses :
    ∃ sources files, clashing.Parsed ∧ Path.IsComponent clashing.name ∧
      Compile.checkDuplicates [clashing] [] = .ok ["p"] ∧
      Sources.ofPackages [clashing] .declaration true = .ok sources ∧
      clashing.modules .declaration = .ok files ∧ ¬ (files.map (·.path)).Nodup ∧
      ¬ (classNames .service files).Nodup := by
  obtain ⟨sources, generated⟩ := clashing_generated
  refine ⟨sources, _, clashing_parsed, by decide, clashing_accepted, generated, clashing_modules,
    ?_, ?_⟩
  · decide +kernel
  · decide +kernel

theorem generated_apart_iff_clashing :
    ∃ parts, [clashing].mapM (·.modules .declaration) = .ok parts ∧
      ¬ (parts.flatten.map (·.path)).Nodup ∧
      ∀ files, clashing.modules .declaration = .ok files →
        ¬ (classNames .service files).Nodup ∧ (classNames .action files).Nodup := by
  obtain ⟨sources, generated⟩ := clashing_generated
  have parsed : ∀ p ∈ [clashing], p.Parsed := by simpa using clashing_parsed
  obtain ⟨parts, laidOut, paths, -, -, classes⟩ :=
    generated_apart_iff parsed (by decide) clashing_accepted generated
  have member : clashing ∈ [clashing] := List.mem_singleton_self _
  refine ⟨parts, laidOut, fun distinct => ?_, fun files found => ⟨fun distinct => ?_, ?_⟩⟩
  · -- the module of a message is named like the initial module
    have named := (filesApart_iff_of_plain (by decide +kernel) (by decide +kernel)).1
      (paths.1 distinct rfl clashing member .message)
    exact named _ (List.mem_singleton_self _) (by decide +kernel)
  · have apart := (classes clashing member files found .service).1 distinct
    exact apart _ List.mem_cons_self _ (List.mem_cons_of_mem _ List.mem_cons_self) "_Request"
      (by decide) (by decide) (by decide)
  · exact (classes clashing member files found .action).2 fun _ none_ => by cases none_

end RosInterface.Package
