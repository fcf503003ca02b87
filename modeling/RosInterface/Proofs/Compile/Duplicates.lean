/-
# RosInterface.Proofs.Compile.Duplicates -- what the check for duplicates lets through

The check accepts packages exactly when their names are distinct and, within each of them,
no kind has two definitions of one name; and it answers the names in order
(`Compile.checkDuplicates_eq_ok_iff`).

What it says of others is said here without the search that finds it.  `Compile.Refused` names
the smallest package name that is repeated, if there is one, and otherwise the first package
that declares something twice, with the smallest name that is repeated in the first kind where
one is; and that is the fault (`Compile.checkDuplicates_eq_error_iff`).  The search takes the
first repeated name, which is the smallest because names come in order (`Package.InOrder`).

Only the last of these depends on the order of the packages.  `Compile.Reordered` takes packages
and the definitions in them to any other order, and whether they are accepted, and for which
repeated package they are not, stays the same.
-/
import RosInterface.Compile
import RosInterface.Proofs.Definition.Package
import Mathlib.Data.List.Duplicate

set_option autoImplicit false

namespace RosInterface.Compile

/-- No item comes twice exactly when none is found that does. -/
theorem find?_repeated_eq_none_iff {α : Type} [BEq α] [LawfulBEq α]
    {items : List α} :
    (items.find? fun item => 1 < items.count item) = none ↔ items.Nodup := by
  rw [List.find?_eq_none, List.nodup_iff_count]
  constructor
  · intro once item
    by_cases member : item ∈ items
    · simpa using once item member
    · rw [List.count_eq_zero_of_not_mem member]
      omega
  · intro once item _
    simpa using once item

theorem repeatedDeclaration?_eq_none_iff {package : Package} :
    repeatedDeclaration? package = none ↔ package.declarationNames.Nodup := by
  rw [repeatedDeclaration?, Option.map_eq_none_iff, find?_repeated_eq_none_iff]

/-- **Accepted packages have distinct names and distinct definitions.** -/
theorem checkDuplicates_eq_ok_iff {packages : List Package} {found : List InstalledPackage}
    {names : List Text} :
    checkDuplicates packages found = .ok names ↔
      names = Text.sort (packages.map (·.name)) ∧ names.Nodup ∧
        ∀ package ∈ packages, package.declarationNames.Nodup := by
  unfold checkDuplicates
  simp only
  split
  case h_1 name repeated =>
    constructor
    · intro accepted
      cases accepted
    · rintro ⟨rfl, distinct, -⟩
      rw [find?_repeated_eq_none_iff.2 distinct] at repeated
      cases repeated
  case h_2 none_ =>
    have distinct := find?_repeated_eq_none_iff.1 none_
    split
    case h_1 fault first =>
      constructor
      · intro accepted
        cases accepted
      · rintro ⟨rfl, -, each⟩
        obtain ⟨package, member, repeated⟩ := List.exists_of_findSome?_eq_some first
        rw [repeatedDeclaration?_eq_none_iff.2 (each package member)] at repeated
        cases repeated
    case h_2 none_ =>
      constructor
      · intro accepted
        cases accepted
        refine ⟨rfl, distinct, fun package member => ?_⟩
        exact repeatedDeclaration?_eq_none_iff.1 (List.findSome?_eq_none_iff.1 none_ package member)
      · rintro ⟨rfl, -, -⟩
        rfl

/-! ## What is refused -/

/-- The name is repeated among some names, and no smaller one is. -/
structure LeastRepeated (names : List Text) (name : Text) : Prop where
  repeated : List.Duplicate name names
  least : ∀ other, List.Duplicate other names → name.le other = true

theorem LeastRepeated.unique {names : List Text} {name other : Text}
    (smallest : LeastRepeated names name) (another : LeastRepeated names other) : name = other :=
  Text.le_antisymm (smallest.least other another.repeated) (another.least name smallest.repeated)

/-- A repeated name that is below all of them. -/
theorem leastRepeated_of_le {names : List Text} {name : Text}
    (repeated : List.Duplicate name names) (below : ∀ other ∈ names, name.le other = true) :
    LeastRepeated names name :=
  ⟨repeated, fun other again => below other again.mem⟩

/-- An item is repeated when it is counted more than once. -/
theorem duplicate_iff {α : Type} [BEq α] [LawfulBEq α] {items : List α} {item : α} :
    List.Duplicate item items ↔ 1 < items.count item := by
  rw [List.duplicate_iff_sublist, Nat.lt_iff_add_one_le, ← List.replicate_sublist_iff]
  exact Iff.rfl

/-- Among names in order, the first that comes twice is the smallest that does. -/
theorem find?_repeated_eq_some_iff {names : List Text} {name : Text}
    (sorted : names.Pairwise fun s t => s.le t = true) :
    (names.find? fun n => 1 < names.count n) = some name ↔ LeastRepeated names name := by
  have counted (n : Text) : decide (1 < names.count n) = true ↔ List.Duplicate n names := by
    rw [decide_eq_true_eq, duplicate_iff]
  have isLeast {n : Text} (found : (names.find? fun n => 1 < names.count n) = some n) :
      LeastRepeated names n := by
    obtain ⟨here, before, after, whole, earlier⟩ := List.find?_eq_some_iff_append.1 found
    refine ⟨(counted n).1 here, fun other again => ?_⟩
    have member := again.mem
    rw [whole] at member sorted
    rcases List.mem_append.1 member with inBefore | behind
    · have once := earlier other inBefore
      rw [(counted other).2 again] at once
      cases once
    · rcases List.mem_cons.1 behind with rfl | inAfter
      · exact (Text.le_total other other).elim id id
      · exact (List.pairwise_cons.1 (List.pairwise_append.1 sorted).2.1).1 other inAfter
  constructor
  · exact isLeast
  · intro smallest
    have some_ : (names.find? fun n => 1 < names.count n).isSome = true :=
      List.find?_isSome.2 ⟨name, smallest.repeated.mem, (counted name).2 smallest.repeated⟩
    obtain ⟨first, found⟩ := Option.isSome_iff_exists.1 some_
    rw [found, (isLeast found).unique smallest]

theorem leastRepeated_iff_of_perm {names others : List Text} (perm : names.Perm others)
    {name : Text} : LeastRepeated names name ↔ LeastRepeated others name := by
  have again (n : Text) : List.Duplicate n names ↔ List.Duplicate n others := by
    rw [duplicate_iff, duplicate_iff, perm.count_eq]
  constructor
  · intro ⟨repeated, least⟩
    exact ⟨(again name).1 repeated, fun other twice => least other ((again other).2 twice)⟩
  · intro ⟨repeated, least⟩
    exact ⟨(again name).2 repeated, fun other twice => least other ((again other).1 twice)⟩

/-- The smallest repeated name of the first kind in which the package repeats one. -/
structure RepeatsName (package : Package) (kind : Kind) (name : Text) : Prop where
  ofKinds : ∃ before after, Kind.all = before ++ kind :: after ∧
    ∀ k ∈ before, (package.namesOf k).Nodup
  smallest : LeastRepeated (package.namesOf kind) name

/-- Why some packages are refused: the smallest repeated package name, with the locations at
which packages of that name were found; or, where no package name is repeated, the first package
that declares something twice, and what it declares twice. -/
inductive Refused (packages : List Package) (found : List InstalledPackage) :
    DuplicateFault → Prop where
  | package {name : Text} (smallest : LeastRepeated (packages.map (·.name)) name) :
      Refused packages found
        (.package name ((found.filter fun p => p.name = name).map (·.location.text)))
  | declaration {before after : List Package} {package : Package} {kind : Kind} {name : Text}
      (distinct : (packages.map (·.name)).Nodup) (whole : packages = before ++ package :: after)
      (earlier : ∀ p ∈ before, ∀ k, (p.namesOf k).Nodup) (repeats : RepeatsName package kind name) :
      Refused packages found (.declaration package.name kind name)

variable {packages : List Package} {found : List InstalledPackage} {fault : DuplicateFault}

/-- The first declaration that comes twice is sought kind by kind. -/
theorem repeatedDeclaration?_eq (package : Package) :
    repeatedDeclaration? package = Kind.all.findSome? fun kind =>
      ((package.namesOf kind).find? fun name => 1 < (package.namesOf kind).count name).map
        (.declaration package.name kind) := by
  have ofKind (kind : Kind) :
      (((package.interfaces kind).map fun i => (kind, i.name)).find? fun declared =>
        1 < package.declarationNames.count declared) =
      ((package.namesOf kind).find? fun name => 1 < (package.namesOf kind).count name).map
        (Prod.mk kind) := by
    have own : (package.interfaces kind).map (fun i => (kind, i.name)) =
        (package.namesOf kind).map (Prod.mk kind) := List.map_map.symm
    rw [own, List.find?_map]
    simp only [Function.comp_def, Package.count_declarationNames]
  have byKind (p : Kind × Text → Bool) : package.declarationNames.find? p =
      Kind.all.findSome? fun kind =>
        ((package.interfaces kind).map fun i => (kind, i.name)).find? p := List.find?_flatMap
  simp only [repeatedDeclaration?, byKind, ofKind, List.map_findSome?, Function.comp_def,
    Option.map_map]

theorem repeatedDeclaration?_eq_some_iff {package : Package} (inOrder : package.InOrder) :
    repeatedDeclaration? package = some fault ↔
      ∃ kind name, RepeatsName package kind name ∧
        fault = .declaration package.name kind name := by
  have sorted (kind : Kind) : (package.namesOf kind).Pairwise fun s t => s.le t = true :=
    List.pairwise_map.2 (inOrder kind)
  simp only [repeatedDeclaration?_eq, List.findSome?_eq_some_iff, Option.map_eq_some_iff,
    Option.map_eq_none_iff, find?_repeated_eq_none_iff, find?_repeated_eq_some_iff (sorted _)]
  constructor
  · rintro ⟨before, kind, after, whole, ⟨name, smallest, rfl⟩, earlier⟩
    exact ⟨kind, name, ⟨⟨before, after, whole, earlier⟩, smallest⟩, rfl⟩
  · rintro ⟨kind, name, ⟨⟨before, after, whole, earlier⟩, smallest⟩, rfl⟩
    exact ⟨before, kind, after, whole, ⟨name, smallest, rfl⟩, earlier⟩

/-- The check looks at the names of the packages first, and then at each package. -/
theorem checkDuplicates_eq_error_iff_found :
    checkDuplicates packages found = .error fault ↔
      (∃ name, LeastRepeated (packages.map (·.name)) name ∧
        fault = .package name ((found.filter fun p => p.name = name).map (·.location.text))) ∨
      (packages.map (·.name)).Nodup ∧ packages.findSome? repeatedDeclaration? = some fault := by
  have sorted := Text.pairwise_sort (packages.map (·.name))
  have perm := Text.perm_sort (packages.map (·.name))
  unfold checkDuplicates
  simp only
  split
  case h_1 name repeated =>
    have smallest : LeastRepeated (packages.map (·.name)) name :=
      (leastRepeated_iff_of_perm perm).1 ((find?_repeated_eq_some_iff sorted).1 repeated)
    constructor
    · intro refused
      cases refused
      exact .inl ⟨name, smallest, rfl⟩
    · rintro (⟨other, another, rfl⟩ | ⟨distinct, -⟩)
      · rw [another.unique smallest]
      · exact absurd smallest.repeated (List.nodup_iff_forall_not_duplicate.1 distinct name)
  case h_2 none_ =>
    have distinct := perm.nodup_iff.1 (find?_repeated_eq_none_iff.1 none_)
    constructor
    · intro refused
      right
      split at refused
      case h_1 first found =>
        cases refused
        exact ⟨distinct, found⟩
      case h_2 => cases refused
    · rintro (⟨name, smallest, -⟩ | ⟨-, first⟩)
      · exact absurd smallest.repeated (List.nodup_iff_forall_not_duplicate.1 distinct name)
      · rw [first]

/-- **The fault is the one that the rules name.** -/
theorem checkDuplicates_eq_error_iff (inOrder : ∀ package ∈ packages, package.InOrder) :
    checkDuplicates packages found = .error fault ↔ Refused packages found fault := by
  rw [checkDuplicates_eq_error_iff_found, List.findSome?_eq_some_iff]
  constructor
  · rintro (⟨name, smallest, rfl⟩ | ⟨distinct, before, package, after, whole, first, earlier⟩)
    · exact .package smallest
    · have member : package ∈ packages := by simp [whole]
      obtain ⟨kind, name, repeats, rfl⟩ :=
        (repeatedDeclaration?_eq_some_iff (inOrder package member)).1 first
      refine .declaration distinct whole (fun p inBefore => ?_) repeats
      rw [← Package.nodup_declarationNames_iff, ← repeatedDeclaration?_eq_none_iff]
      exact earlier p inBefore
  · intro refused
    cases refused with
    | package smallest => exact .inl ⟨_, smallest, rfl⟩
    | @declaration before after package kind name distinct whole earlier repeats =>
        have member : package ∈ packages := by simp [whole]
        refine .inr ⟨distinct, before, package, after, whole, ?_, fun p inBefore => ?_⟩
        · exact (repeatedDeclaration?_eq_some_iff (inOrder package member)).2
            ⟨kind, name, repeats, rfl⟩
        · rw [repeatedDeclaration?_eq_none_iff, Package.nodup_declarationNames_iff]
          exact earlier p inBefore

/-! ## Other orders -/

/-- The package has the name and, up to their order, the definitions of another one. -/
structure SameDefinitions (package other : Package) : Prop where
  name_eq : package.name = other.name
  perm : ∀ kind, (package.interfaces kind).Perm (other.interfaces kind)

/-- The packages in another order, and the definitions in each of them. -/
def Reordered (packages others : List Package) : Prop :=
  ∃ between, packages.Perm between ∧ List.Forall₂ SameDefinitions between others

variable {others : List Package}

theorem Reordered.perm_names (reordered : Reordered packages others) :
    (packages.map (·.name)).Perm (others.map (·.name)) := by
  obtain ⟨between, perm, same⟩ := reordered
  rw [← Outcome.map_eq_of_forall₂ same fun _ _ each => each.name_eq]
  exact perm.map _

/-- Definitions that are given in another order make such a package. -/
theorem sameDefinitions_of_perm {name : Text} {interfaces more : List Interface}
    {files moreFiles : List Path} (perm : interfaces.Perm more) :
    SameDefinitions (.ofInterfaces name interfaces files) (.ofInterfaces name more moreFiles) :=
  ⟨rfl, fun _ => (Package.perm_interfaces_ofInterfaces.trans (perm.filter _)).trans
    Package.perm_interfaces_ofInterfaces.symm⟩

theorem SameDefinitions.nodup_iff {package other : Package}
    (same : SameDefinitions package other) (kind : Kind) :
    (package.namesOf kind).Nodup ↔ (other.namesOf kind).Nodup :=
  ((same.perm kind).map _).nodup_iff

/-- Each package declares its definitions once, in one order as in the other. -/
theorem Reordered.declareOnce_iff (reordered : Reordered packages others) :
    (∀ p ∈ packages, ∀ kind, (p.namesOf kind).Nodup) ↔
      ∀ p ∈ others, ∀ kind, (p.namesOf kind).Nodup := by
  obtain ⟨between, perm, same⟩ := reordered
  have there : (∀ p ∈ packages, ∀ kind, (p.namesOf kind).Nodup) ↔
      ∀ p ∈ between, ∀ kind, (p.namesOf kind).Nodup := by
    simp only [perm.mem_iff]
  rw [there]
  clear perm there
  induction same with
  | nil => exact Iff.rfl
  | cons first _ ih =>
      simp only [List.forall_mem_cons, ih, first.nodup_iff]

/-- The package name that is reported is the smallest repeated one, wherever it stands. -/
theorem checkDuplicates_eq_package_iff {name : Text} {sources : List Text} :
    checkDuplicates packages found = .error (.package name sources) ↔
      LeastRepeated (packages.map (·.name)) name ∧
        sources = (found.filter fun p => p.name = name).map (·.location.text) := by
  rw [checkDuplicates_eq_error_iff_found]
  constructor
  · rintro (⟨_, smallest, same⟩ | ⟨-, first⟩)
    · cases same
      exact ⟨smallest, rfl⟩
    · obtain ⟨package, -, ofPackage⟩ := List.exists_of_findSome?_eq_some first
      obtain ⟨_, -, declared⟩ := Option.map_eq_some_iff.1 ofPackage
      cases declared
  · rintro ⟨smallest, rfl⟩
    exact .inl ⟨name, smallest, rfl⟩

theorem exists_checkDuplicates_iff :
    (∃ names, checkDuplicates packages found = .ok names) ↔
      (packages.map (·.name)).Nodup ∧ ∀ p ∈ packages, ∀ kind, (p.namesOf kind).Nodup := by
  simp only [checkDuplicates_eq_ok_iff, (Text.perm_sort _).nodup_iff, exists_eq_left,
    Package.nodup_declarationNames_iff]

/-- **Duplicates are refused exactly, and in any order.**  Packages are accepted when their names
are distinct and no kind of any of them has two definitions of one name, and the answer is their
names in order.  Otherwise the fault is the one that `Refused` describes, as the definitions of a
package are in order.  In another order of the packages and of their definitions the same are
accepted, and the same package name is reported. -/
theorem checkDuplicates_exact (packages : List Package) (found : List InstalledPackage) :
    (∀ names, checkDuplicates packages found = .ok names ↔
      (names.Perm (packages.map (·.name)) ∧ names.Pairwise fun s t => s.le t = true) ∧
        (packages.map (·.name)).Nodup ∧ ∀ p ∈ packages, ∀ kind, (p.namesOf kind).Nodup) ∧
    ((∀ p ∈ packages, p.InOrder) → ∀ fault,
      checkDuplicates packages found = .error fault ↔ Refused packages found fault) ∧
    ∀ others, Reordered packages others → ∀ elsewhere,
      ((∃ names, checkDuplicates packages found = .ok names) ↔
        ∃ names, checkDuplicates others elsewhere = .ok names) ∧
      ∀ name, (∃ sources, checkDuplicates packages found = .error (.package name sources)) ↔
        ∃ sources, checkDuplicates others elsewhere = .error (.package name sources) := by
  refine ⟨fun names => ?_, fun inOrder fault => checkDuplicates_eq_error_iff inOrder,
    fun others reordered elsewhere => ⟨?_, fun name => ?_⟩⟩
  · rw [checkDuplicates_eq_ok_iff, ← Text.eq_sort_iff]
    simp only [Package.nodup_declarationNames_iff]
    refine and_congr_right ?_
    rintro rfl
    rw [(Text.perm_sort _).nodup_iff]
  · rw [exists_checkDuplicates_iff, exists_checkDuplicates_iff, reordered.perm_names.nodup_iff,
      reordered.declareOnce_iff]
  · simp only [checkDuplicates_eq_package_iff, exists_and_left, exists_eq, and_true]
    exact leastRepeated_iff_of_perm reordered.perm_names

/-- A package of empty services. -/
def servicesPackage (package : Text) (services : List Text) : Package :=
  .ofInterfaces package
    (services.map fun name =>
      .service ⟨package, name, ⟨package, name ++ "_Request", [], []⟩,
        ⟨package, name ++ "_Response", [], []⟩⟩)
    []

/-- The second package has two services twice. -/
def twicePackages : List Package :=
  [servicesPackage "p" ["B"], servicesPackage "q" ["B", "A", "B", "A"]]

/-- The same in another order. -/
def reorderedPackages : List Package :=
  [servicesPackage "q" ["A", "A", "B", "B"], servicesPackage "p" ["B"]]

theorem twicePackages_inOrder : ∀ p ∈ twicePackages, p.InOrder := by
  intro p member
  rcases List.mem_pair.1 member with rfl | rfl
  all_goals exact Package.inOrder_ofInterfaces

theorem perm_namesOf_servicesPackage (package : Text) (services : List Text) :
    ((servicesPackage package services).namesOf .service).Perm services := by
  refine Package.perm_namesOf_ofInterfaces.trans (List.Perm.of_eq ?_)
  simp [List.filter_map, Function.comp_def, Interface.kind, Interface.name]

theorem twicePackages_refused : Refused twicePackages [] (.declaration "q" .service "A") := by
  have services := perm_namesOf_servicesPackage "q" ["B", "A", "B", "A"]
  have smallest : LeastRepeated ["B", "A", "B", "A"] "A" :=
    leastRepeated_of_le (by decide) (by decide)
  have second : twicePackages =
      [servicesPackage "p" ["B"]] ++ [servicesPackage "q" ["B", "A", "B", "A"]] := rfl
  refine .declaration (by decide) second ?_
    ⟨⟨[.message], [.action], rfl, ?_⟩, (leastRepeated_iff_of_perm services).2 smallest⟩
  · intro p member k
    rw [List.mem_singleton.1 member]
    cases k <;> decide +kernel
  · intro k member
    rw [List.mem_singleton.1 member]
    decide +kernel

theorem twicePackages_reordered : Reordered twicePackages reorderedPackages := by
  have services : (["B", "A", "B", "A"] : List Text).Perm ["A", "A", "B", "B"] := by decide
  exact ⟨_, .swap _ _ [], .cons (sameDefinitions_of_perm (services.map _))
    (.cons ⟨rfl, fun _ => .refl _⟩ .nil)⟩

/-- Of the two services the smaller is reported, and in the other order nothing is accepted
either.  Where the first package comes again, it is reported in their place, with both of its
locations. -/
theorem checkDuplicates_exact_twice :
    (∀ p ∈ twicePackages, p.InOrder) ∧
      checkDuplicates twicePackages [] = .error (.declaration "q" .service "A") ∧
      Reordered twicePackages reorderedPackages ∧
      ¬ (∃ names, checkDuplicates reorderedPackages [] = .ok names) ∧
      checkDuplicates (servicesPackage "p" [] :: twicePackages)
        [⟨"p", Path.ofText "b", []⟩, ⟨"q", Path.ofText "b", []⟩, ⟨"p", Path.ofText "a", []⟩] =
          .error (.package "p" ["b", "a"]) := by
  have inOrder : ∀ p ∈ servicesPackage "p" [] :: twicePackages, p.InOrder :=
    List.forall_mem_cons.2 ⟨Package.inOrder_ofInterfaces, twicePackages_inOrder⟩
  obtain ⟨-, refused, reordered⟩ := checkDuplicates_exact twicePackages []
  obtain ⟨-, refusedAgain, -⟩ := checkDuplicates_exact (servicesPackage "p" [] :: twicePackages)
    [⟨"p", Path.ofText "b", []⟩, ⟨"q", Path.ofText "b", []⟩, ⟨"p", Path.ofText "a", []⟩]
  have first := (refused twicePackages_inOrder _).2 twicePackages_refused
  refine ⟨twicePackages_inOrder, first, twicePackages_reordered, ?_, ?_⟩
  · rw [← (reordered _ twicePackages_reordered []).1, first]
    exact fun ⟨_, accepted⟩ => by cases accepted
  · exact (refusedAgain inOrder _).2 (.package (leastRepeated_of_le (by decide) (by decide)))

end RosInterface.Compile
