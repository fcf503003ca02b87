/-
# RosInterface.Proofs.Output.Layout -- the modules of a package, said without failure

The modules of a package are made kind by kind.  Only a layout with a module for each
definition can stop on the way, at a module name that is taken; all else is a list that
can be written down.  `Package.kindFiles` are the modules of one kind and `Package.files`
all of them, and `Package.modules_eq_ok_iff` says that a package is laid out exactly
when no module name is asked for twice, and then as these.

A module that declares anything is `Package.moduleOf` of some definitions of its kind
(`mem_kindFiles`), so what holds of every such module holds of a whole package.
-/
import RosInterface.Output.ModuleFile
import RosInterface.Proofs.Definition.Package

set_option autoImplicit false

namespace RosInterface

theorem Kind.mem_all (kind : Kind) : kind ∈ Kind.all := by cases kind <;> decide

/-- The modules of one kind among others, in their order. -/
def ModuleFile.ofKind (kind : Kind) (files : List ModuleFile) : List ModuleFile :=
  files.filter fun file => file.kind = some kind

namespace Package

variable {package : Package} {layout : ModuleLayout} {kind : Kind}

/-- The scope that the classes of a module are made in. -/
def scopeOf (package : Package) (layout : ModuleLayout) (kind : Kind)
    (interfaces : List Interface) : Scope :=
  .ofInterfaces package.name kind interfaces (layout = .single)

theorem declarations_moduleOf {path : Path} {interfaces : List Interface} :
    (package.moduleOf layout kind path interfaces).declarations = interfaces.flatMap
      (ClassDeclaration.ofInterface (package.scopeOf layout kind interfaces)) := rfl

/-! ## The modules as a list -/

/-- The module of a single definition. -/
def ownModule (package : Package) (kind : Kind) (interface : Interface) : ModuleFile :=
  package.moduleOf .declaration kind
    (package.pathTo [kind.text, moduleStem interface ++ ".py"]) [interface]

/-- The modules of the definitions of a kind with their names, one for each. -/
def namedModules (package : Package) (kind : Kind) : List (Text × ModuleFile) :=
  (package.interfaces kind).map fun interface =>
    (moduleStem interface, package.ownModule kind interface)

/-- The modules of one kind. -/
def kindFiles (package : Package) (layout : ModuleLayout) (kind : Kind) : List ModuleFile :=
  if package.interfaces kind = [] then []
  else
    match layout with
    | .declaration =>
        (package.namedModules kind).map (·.2) ++
          [package.exportModule kind (package.namedModules kind)]
    | _ =>
        [package.moduleOf layout kind (package.pathTo [kind.text ++ ".py"])
          (package.interfaces kind)]

theorem kindFiles_of_eq_nil (empty : package.interfaces kind = []) :
    package.kindFiles layout kind = [] := if_pos empty

theorem kindFiles_declaration (some_ : package.interfaces kind ≠ []) :
    package.kindFiles .declaration kind = (package.namedModules kind).map (·.2) ++
      [package.exportModule kind (package.namedModules kind)] := if_neg some_

theorem kindFiles_of_ne (other : layout ≠ .declaration) (some_ : package.interfaces kind ≠ []) :
    package.kindFiles layout kind =
      [package.moduleOf layout kind (package.pathTo [kind.text ++ ".py"])
        (package.interfaces kind)] := by
  cases layout with
  | declaration => exact absurd rfl other
  | package | single => exact if_neg some_

/-- The modules of a package, its initial module first. -/
def files (package : Package) (layout : ModuleLayout) : List ModuleFile :=
  .empty (package.pathTo [ModuleFile.initialName]) none ::
    Kind.all.flatMap (package.kindFiles layout)

/-- In a layout that names modules after definitions, no two definitions of a kind ask
for the same name. -/
def StemsDistinct (package : Package) (layout : ModuleLayout) : Prop :=
  layout = .declaration → ∀ kind, ((package.interfaces kind).map moduleStem).Nodup

/-! ## When a package is laid out -/

/-- Own modules are found as long as no name comes again, neither among them nor from
those that are taken. -/
theorem ownModules_eq_ok_iff {taken : List Text} {interfaces : List Interface}
    {named : List (Text × ModuleFile)} :
    package.ownModules kind taken interfaces = .ok named ↔
      (interfaces.map moduleStem).Nodup ∧ (∀ i ∈ interfaces, moduleStem i ∉ taken) ∧
        named = interfaces.map fun i => (moduleStem i, package.ownModule kind i) := by
  induction interfaces generalizing taken named with
  | nil => simp [ownModules, eq_comm]
  | cons interface rest ih =>
      rw [ownModules, List.map_cons, List.nodup_cons, List.forall_mem_cons]
      by_cases isTaken : moduleStem interface ∈ taken
      · simp [isTaken]
      · have later : (∀ i ∈ rest, moduleStem i ∉ moduleStem interface :: taken) ↔
            moduleStem interface ∉ rest.map moduleStem ∧ ∀ i ∈ rest, moduleStem i ∉ taken := by
          simp only [List.mem_cons, not_or, forall_and, List.mem_map, not_exists, not_and]
        have free : ¬ taken.contains (moduleStem interface) = true := by simpa using isTaken
        rw [if_neg free, Outcome.bind_eq_ok_iff]
        constructor
        · rintro ⟨others, found, whole⟩
          obtain ⟨distinct, apart, rfl⟩ := ih.1 found
          cases whole
          exact ⟨⟨(later.1 apart).1, distinct⟩, ⟨isTaken, (later.1 apart).2⟩, rfl⟩
        · rintro ⟨⟨fresh, distinct⟩, ⟨-, apart⟩, rfl⟩
          exact ⟨_, ih.2 ⟨distinct, later.2 ⟨fresh, apart⟩, rfl⟩, rfl⟩

theorem kindModules_eq_ok_iff {found : List ModuleFile} :
    package.kindModules layout kind = .ok found ↔
      (layout = .declaration → ((package.interfaces kind).map moduleStem).Nodup) ∧
        found = package.kindFiles layout kind := by
  unfold kindModules kindFiles
  by_cases empty : package.interfaces kind = []
  · simp [empty, eq_comm]
  · have some_ : ¬ (package.interfaces kind).isEmpty = true := by simpa using empty
    rw [if_neg empty, if_neg some_]
    cases layout with
    | declaration =>
        rw [Outcome.bind_eq_ok_iff]
        constructor
        · rintro ⟨named, read, whole⟩
          obtain ⟨distinct, -, rfl⟩ := ownModules_eq_ok_iff.1 read
          cases whole
          exact ⟨fun _ => distinct, rfl⟩
        · rintro ⟨distinct, rfl⟩
          exact ⟨_, ownModules_eq_ok_iff.2 ⟨distinct rfl, by simp, rfl⟩, rfl⟩
    | package => simp [eq_comm]
    | single => simp [eq_comm]

/-- **A package is laid out exactly when no module name is asked for twice.** -/
theorem modules_eq_ok_iff {found : List ModuleFile} :
    package.modules layout = .ok found ↔
      package.StemsDistinct layout ∧ found = package.files layout := by
  have distinct : (∀ kind ∈ Kind.all, layout = .declaration →
      ((package.interfaces kind).map moduleStem).Nodup) ↔ package.StemsDistinct layout := by
    constructor
    · intro each chosen kind
      exact each kind kind.mem_all chosen
    · intro each kind _ chosen
      exact each chosen kind
  rw [modules, Outcome.bind_eq_ok_iff, files, List.flatMap_def, ← distinct]
  simp only [Outcome.mapM_eq_ok_map_iff fun _ _ => kindModules_eq_ok_iff]
  constructor
  · rintro ⟨parts, ⟨each, rfl⟩, whole⟩
    cases whole
    exact ⟨each, rfl⟩
  · rintro ⟨each, rfl⟩
    exact ⟨_, ⟨each, rfl⟩, rfl⟩

/-! ## The modules of a kind -/

/-- A module of a kind exports from its neighbours, or it is the module of some
definitions of the kind. -/
theorem mem_kindFiles {file : ModuleFile} (member : file ∈ package.kindFiles layout kind) :
    (∃ named, file = package.exportModule kind named) ∨
      ∃ path interfaces, (∀ i ∈ interfaces, i ∈ package.interfaces kind) ∧
        file = package.moduleOf layout kind path interfaces := by
  by_cases empty : package.interfaces kind = []
  · rw [kindFiles_of_eq_nil empty] at member
    cases member
  · by_cases chosen : layout = .declaration
    · subst chosen
      rw [kindFiles_declaration empty] at member
      rcases List.mem_append.1 member with own | last
      · obtain ⟨named, inNamed, rfl⟩ := List.mem_map.1 own
        obtain ⟨i, inKind, rfl⟩ := List.mem_map.1 inNamed
        exact .inr ⟨_, [i], by simpa using inKind, rfl⟩
      · exact .inl ⟨_, List.mem_singleton.1 last⟩
    · rw [kindFiles_of_ne chosen empty] at member
      exact .inr ⟨_, _, fun _ inKind => inKind, List.mem_singleton.1 member⟩

theorem kind_of_mem_kindFiles {file : ModuleFile} (member : file ∈ package.kindFiles layout kind) :
    file.kind = some kind := by
  rcases mem_kindFiles member with ⟨_, rfl⟩ | ⟨_, _, -, rfl⟩ <;> rfl

/-- The modules of a kind are told from the others by their kind. -/
theorem ofKind_files :
    ModuleFile.ofKind kind (package.files layout) = package.kindFiles layout kind := by
  have part (other : Kind) : ModuleFile.ofKind kind (package.kindFiles layout other) =
      if other = kind then package.kindFiles layout other else [] := by
    split
    case isTrue same =>
      refine List.filter_eq_self.2 fun file member => ?_
      simp [kind_of_mem_kindFiles member, same]
    case isFalse differ =>
      refine List.filter_eq_nil_iff.2 fun file member => ?_
      simp [kind_of_mem_kindFiles member, differ]
  have root : ModuleFile.ofKind kind
      [.empty (package.pathTo [ModuleFile.initialName]) none] = [] := rfl
  simp only [ModuleFile.ofKind] at part root ⊢
  rw [files, ← List.singleton_append, List.filter_append, root, List.filter_flatMap]
  cases kind <;> simp [Kind.all, part]

theorem mem_files_iff {file : ModuleFile} :
    file ∈ package.files layout ↔
      file = .empty (package.pathTo [ModuleFile.initialName]) none ∨
        ∃ kind, file ∈ package.kindFiles layout kind := by
  rw [files, List.mem_cons, List.mem_flatMap]
  simp [Kind.mem_all]

theorem mem_kindFiles_iff {file : ModuleFile} :
    file ∈ package.kindFiles layout kind ↔
      file ∈ package.files layout ∧ file.kind = some kind := by
  rw [← ofKind_files, ModuleFile.ofKind, List.mem_filter, decide_eq_true_eq]

/-- Every definition has a module that declares its classes. -/
theorem exists_moduleOf (layout : ModuleLayout) {interface : Interface}
    (member : interface ∈ package.interfaces kind) :
    ∃ path interfaces, interface ∈ interfaces ∧
      package.moduleOf layout kind path interfaces ∈ package.kindFiles layout kind := by
  have some_ : package.interfaces kind ≠ [] := List.ne_nil_of_mem member
  by_cases chosen : layout = .declaration
  · subst chosen
    have own : package.ownModule kind interface ∈ (package.namedModules kind).map (·.2) :=
      List.mem_map.2 ⟨_, List.mem_map.2 ⟨interface, member, rfl⟩, rfl⟩
    rw [kindFiles_declaration some_]
    exact ⟨_, [interface], List.mem_singleton_self interface, List.mem_append_left _ own⟩
  · rw [kindFiles_of_ne chosen some_]
    exact ⟨_, _, member, List.mem_singleton_self _⟩

theorem stemsDistinct_sample : sample.StemsDistinct layout := by
  intro _ kind
  rw [((perm_interfaces_sample kind).map moduleStem).nodup_iff]
  cases kind <;> decide +kernel

end Package

end RosInterface
