/-
# RosInterface.Proofs.Output.ClassNames -- the names of generated classes

Every class of a definition is named after it, and what is added depends on its kind
alone (`Interface.WellFormed.names_ofInterface`), in every layout.  So the classes of a
kind have distinct names exactly when no definition has the name of another one with such
an addition (`Package.nodup_classNames_iff`).  This is a matter of the names that are
added: none of them ends in another one.
-/
import RosInterface.Proofs.Output.Layout
import RosInterface.Proofs.Output.Reference
import Mathlib.Data.List.Nodup
import Mathlib.Data.List.Pairwise

set_option autoImplicit false

namespace RosInterface

/-! ## Suffixes -/

namespace Kind

variable (kind : Kind)

theorem nodup_classSuffixes : kind.classSuffixes.Nodup := by cases kind <;> decide

theorem nil_mem_classSuffixes : [] ∈ kind.classSuffixes := by cases kind <;> decide

/-- No addition ends in another one, unless that is nothing. -/
theorem eq_of_classSuffix_isSuffix :
    ∀ s ∈ kind.classSuffixes, ∀ t ∈ kind.classSuffixes, s ≠ [] → s <:+ t → s = t := by
  cases kind <;> decide

end Kind

/-- Parts made of distinct items are without repetition together when each of them is and
no two of them meet. -/
theorem nodup_flatMap_iff_of_nodup {α β : Type} {items : List α} {f : α → List β}
    (distinct : items.Nodup) :
    (items.flatMap f).Nodup ↔ (∀ a ∈ items, (f a).Nodup) ∧
      ∀ a ∈ items, ∀ b ∈ items, a ≠ b → List.Disjoint (f a) (f b) := by
  rw [List.nodup_flatMap]
  refine and_congr_right fun _ => ⟨fun separate a inItems b inItems' differ => ?_, fun separate =>
    distinct.pairwise_of_forall_ne separate⟩
  have symmetric : Std.Symm (Function.onFun List.Disjoint f) :=
    ⟨fun _ _ disjoint _ inFirst inSecond => disjoint inSecond inFirst⟩
  exact separate.forall inItems inItems' differ

/-- Where no addition ends in another one, names with additions are distinct exactly when
no name is another one with an addition. -/
theorem Text.nodup_flatMap_append_iff {names suffixes : List Text} (distinct : names.Nodup)
    (distinctSuffixes : suffixes.Nodup) (bare : [] ∈ suffixes)
    (apart : ∀ s ∈ suffixes, ∀ t ∈ suffixes, s ≠ [] → s <:+ t → s = t) :
    (names.flatMap fun name => suffixes.map (name ++ ·)).Nodup ↔
      ∀ a ∈ names, ∀ b ∈ names, ∀ s ∈ suffixes, s ≠ [] → b ≠ a ++ s := by
  rw [nodup_flatMap_iff_of_nodup distinct]
  constructor
  · rintro ⟨-, separate⟩ a inNames b inNames' s inSuffixes some_ rfl
    have differ : a ≠ a ++ s := fun same => some_ (List.self_eq_append_right.1 same)
    exact separate a inNames (a ++ s) inNames' differ (List.mem_map_of_mem inSuffixes)
      (List.mem_map.2 ⟨[], bare, List.append_nil _⟩)
  · intro none_
    -- a longer name takes its place within the addition to a shorter one
    have shorter {a b r s t : Text} (inNames : a ∈ names) (inNames' : b ∈ names)
        (inSuffixes : s ∈ suffixes) (inSuffixes' : t ∈ suffixes) (longer : b = a ++ r)
        (rest : s = r ++ t) : a = b := by
      by_cases nothing : t = []
      · subst nothing
        rw [List.append_nil] at rest
        subst rest
        by_contra differ
        refine none_ a inNames b inNames' s inSuffixes (fun empty => differ ?_) longer
        rw [longer, empty, List.append_nil]
      · have same := apart t inSuffixes' s inSuffixes nothing ⟨r, rest.symm⟩
        have empty : r = [] := List.self_eq_append_left.1 (same.trans rest)
        rw [longer, empty, List.append_nil]
    refine ⟨fun name _ => distinctSuffixes.map (List.append_right_injective name),
      fun a inNames b inNames' differ shared ofFirst ofSecond => ?_⟩
    obtain ⟨s, inSuffixes, rfl⟩ := List.mem_map.1 ofFirst
    obtain ⟨t, inSuffixes', same⟩ := List.mem_map.1 ofSecond
    rcases List.append_eq_append_iff.1 same with ⟨r, longer, rest⟩ | ⟨r, longer, rest⟩
    · exact differ (shorter inNames' inNames inSuffixes' inSuffixes longer rest).symm
    · exact differ (shorter inNames inNames' inSuffixes inSuffixes' longer rest)

/-! ## Names of a kind -/

namespace Package

variable {package : Package} {layout : ModuleLayout} {kind : Kind}

/-- The names of the classes of one kind, over all its modules. -/
def classNames (kind : Kind) (files : List ModuleFile) : List Text :=
  ((ModuleFile.ofKind kind files).flatMap (·.declarations)).map (·.name)

theorem names_moduleOf {path : Path} {interfaces : List Interface} (parsed : package.Parsed)
    (given : ∀ i ∈ interfaces, i ∈ package.interfaces kind) :
    (package.moduleOf layout kind path interfaces).declarations.map (·.name) =
      interfaces.flatMap fun i => kind.classSuffixes.map (i.name ++ ·) := by
  rw [declarations_moduleOf, List.map_flatMap]
  refine List.flatMap_congr fun i member => ?_
  obtain ⟨rfl, wellFormed⟩ := parsed.wellFormed (given i member)
  exact wellFormed.names_ofInterface _

/-- Every layout gives the classes of a kind the same names. -/
theorem classNames_files (parsed : package.Parsed) :
    classNames kind (package.files layout) =
      ((package.interfaces kind).map (·.name)).flatMap fun name =>
        kind.classSuffixes.map (name ++ ·) := by
  rw [classNames, ofKind_files, List.flatMap_map]
  by_cases empty : package.interfaces kind = []
  · rw [kindFiles_of_eq_nil empty, empty]
    rfl
  · by_cases chosen : layout = .declaration
    · subst chosen
      have own (i : Interface) (member : i ∈ package.interfaces kind) :
          (package.ownModule kind i).declarations.map (·.name) =
            kind.classSuffixes.map (i.name ++ ·) :=
        (names_moduleOf parsed (by simpa using member)).trans (List.flatMap_singleton _ i)
      have exported : ([package.exportModule kind (package.namedModules kind)].flatMap
          (·.declarations)).map (·.name) = [] := rfl
      rw [kindFiles_declaration empty, List.flatMap_append, List.map_append, exported,
        List.append_nil, List.map_flatMap, namedModules, List.map_map, List.flatMap_map]
      exact List.flatMap_congr own
    · rw [kindFiles_of_ne chosen empty, List.flatMap_singleton]
      exact names_moduleOf parsed fun _ => id

/-- No definition of a kind has the name of another one with what is added for a class. -/
def ClassesApart (package : Package) (kind : Kind) : Prop :=
  ∀ a ∈ package.interfaces kind, ∀ b ∈ package.interfaces kind,
    ∀ suffix ∈ kind.classSuffixes, suffix ≠ [] → b.name ≠ a.name ++ suffix

/-- **Which definitions bring two classes of one name.** -/
theorem nodup_classNames_iff (parsed : package.Parsed)
    (distinct : package.declarationNames.Nodup) :
    (classNames kind (package.files layout)).Nodup ↔ package.ClassesApart kind := by
  have names : ((package.interfaces kind).map (·.name)).Nodup :=
    nodup_declarationNames_iff.1 distinct kind
  rw [classNames_files parsed, Text.nodup_flatMap_append_iff names
    kind.nodup_classSuffixes kind.nil_mem_classSuffixes kind.eq_of_classSuffix_isSuffix]
  simp only [ClassesApart, List.forall_mem_map]

end Package

end RosInterface
