/-
# RosInterface.Proofs.Compile.Targets -- where sources go

The path of a source *descends*: it is relative, and nothing in it steps back
(`Sources.descends_of_generate`).  Packages are found by the names of files, which are
components and no dot-dots, and module names have no slash, because names of definitions are
read from the last component of a path.  Below any folder, a path that descends leads below the
place of that folder, so the sources of a run go to places that differ
(`FileTree.aim_inj`), and a folder in front changes nothing in their order
(`Path.append_le_append`).
-/
import RosInterface.Proofs.Compile.Exclusion
import RosInterface.Proofs.Files.Change
import RosInterface.Proofs.Text.LetterCase

set_option autoImplicit false

namespace RosInterface

/-! ## Paths that descend -/

namespace Path

variable {folder p q : Path}

/-- The path is relative and leads down from wherever it starts. -/
structure Descends (path : Path) : Prop where
  relative : path.anchor = .none
  some_ : path.components ≠ []
  forward : ∀ name ∈ path.components, name ≠ ".."

theorem Descends.components_append (descends : p.Descends) :
    (folder ++ p).components = folder.components ++ p.components := by
  rw [append_of_relative descends.relative]

/-- Below a folder, the path is that of an entry. -/
theorem Descends.exists_child (descends : p.Descends) :
    ∃ (parent : Path) (name : Text), folder ++ p = parent.child name ∧ name ≠ ".." := by
  rcases List.eq_nil_or_concat' p.components with empty | ⟨before, last, whole⟩
  · exact absurd empty descends.some_
  · refine ⟨⟨folder.anchor, folder.components ++ before⟩, last, ?_, descends.forward last ?_⟩
    · rw [append_of_relative descends.relative, whole, child, List.append_assoc]
    · rw [whole]
      exact List.mem_append_right _ (List.mem_singleton_self last)

theorem eq_of_components (first : p.Descends) (second : q.Descends)
    (same : p.components = q.components) : p = q := by
  obtain ⟨anchor, names⟩ := p
  obtain ⟨other, others⟩ := q
  rw [show anchor = Anchor.none from first.relative, show other = Anchor.none from second.relative,
    show names = others from same]

/-- Below a folder, two paths that descend are the same only if they were the same before. -/
theorem append_inj (first : p.Descends) (second : q.Descends) (same : folder ++ p = folder ++ q) :
    p = q := by
  rw [append_of_relative first.relative, append_of_relative second.relative] at same
  exact eq_of_components first second (List.append_cancel_left (Path.mk.inj same).2)

theorem componentsLe_append (before s t : List Text) :
    componentsLe (before ++ s) (before ++ t) = componentsLe s t := by
  induction before with
  | nil => rfl
  | cons name rest ih => rw [List.cons_append, List.cons_append, componentsLe, if_pos rfl, ih]

/-- A folder in front changes nothing in the order. -/
theorem append_le_append (first : p.Descends) (second : q.Descends) :
    (folder ++ p).le (folder ++ q) = p.le q := by
  have key {path : Path} (descends : path.Descends) :
      (folder ++ path).sortKey = folder.sortKey ++ path.components := by
    rw [append_of_relative descends.relative, sortKey, sortKey]
    split <;> rfl
  have own {path : Path} (descends : path.Descends) : path.sortKey = path.components :=
    if_pos descends.relative
  rw [le, le, key first, key second, componentsLe_append, own first, own second]

end Path

namespace FileTree

variable {tree : FileTree} {folder path : Path} {name : Text} {bytes : List UInt8}

theorem aim_append (descends : path.Descends) :
    tree.aim (folder ++ path) = tree.aim folder ++ path.components := by
  rw [aim, descends.components_append, List.foldl_append, Path.append_of_relative descends.relative,
    foldl_advance descends.forward]
  rfl

/-- Below a folder, paths that descend lead to places of their own. -/
theorem aim_inj {other : Path} (first : path.Descends) (second : other.Descends)
    (same : tree.aim (folder ++ path) = tree.aim (folder ++ other)) : path = other := by
  rw [aim_append first, aim_append second] at same
  exact Path.eq_of_components first second (List.append_cancel_left same)

/-- Two dots are no file in any folder. -/
theorem read_back_ne (folder : Path) (bytes : List UInt8) :
    tree.read (folder.child "..") ≠ .ok bytes := by
  intro read
  obtain ⟨-, place, walked, holds⟩ := read_eq_ok_iff.1 read
  rw [walk_child, Outcome.bind_eq_ok_iff] at walked
  obtain ⟨above, -, stepped⟩ := walked
  have isFolder := isFolderAt?_of_step stepped
  rw [step_back isFolder] at stepped
  cases stepped
  rw [isFolderAt?_eq_true_iff.1 (isFolderAt?_dropLast isFolder)] at holds
  cases holds

theorem IndexLines.ne_back {location : Path} {lines : List Text}
    (lines_ : tree.IndexLines location name lines) : name ≠ ".." := by
  rintro rfl
  obtain ⟨bytes, _, read, -⟩ := lines_
  exact read_back_ne (InstalledPackage.indexFolder location) bytes read

end FileTree

/-! ## Names of definitions -/

theorem Path.slash_not_mem_stem (s : Text) : CodePoint.slash ∉ (ofText s).stem := by
  have inName : CodePoint.slash ∉ (ofText s).name := by
    rw [name, List.getLastD_eq_getLast?]
    cases last : (ofText s).components.getLast? with
    | none => exact List.not_mem_nil
    | some component =>
        obtain ⟨inPieces, -⟩ := List.mem_filter.1 (List.mem_of_getLast? last)
        exact Text.not_mem_of_mem_pieces inPieces
  rw [stem, splitName]
  split
  case isTrue => exact inName
  case isFalse => exact fun member => inName (List.mem_of_mem_take member)

namespace Compile

variable {settings : Settings} {tree : FileTree} {found : List InstalledPackage}
  {names : List Text} {packages : List Package} {package : Package}

/-- A package has the name of a file. -/
theorem Stages.isComponent (stages : Stages settings tree found names packages)
    (named : tree.root.Named) (kept : package ∈ packages) :
    Path.IsComponent package.name ∧ package.name ≠ ".." := by
  obtain ⟨p, member, rfl, -⟩ := stages.mem_packages.1 kept
  obtain ⟨finds, lines, hasLines, -⟩ := InstalledPackage.of_mem_discover stages.discovered member
  exact ⟨finds.indexed.isComponent named, hasLines.ne_back⟩

/-- The name of a definition is no path. -/
theorem Stages.slash_not_mem_name (stages : Stages settings tree found names packages)
    (kept : package ∈ packages) {kind : Kind} {interface : Interface}
    (member : interface ∈ package.interfaces kind) : CodePoint.slash ∉ interface.name := by
  obtain ⟨p, inFound, rfl, -⟩ := stages.mem_packages.1 kept
  obtain ⟨lines, declared, -, each, perm⟩ := stages.exists_declared inFound
  have declares : (kind, interface.name) ∈ (packageOf tree p).declarationNames :=
    List.mem_flatMap.2 ⟨kind, kind.mem_all, List.mem_map.2 ⟨interface, member, rfl⟩⟩
  refine Outcome.forall_mem_of_forall₂ each (p := fun both => CodePoint.slash ∉ both.2) ?_
    (kind, interface.name) (perm.subset declares)
  intro line both read
  rw [← read.name]
  exact Path.slash_not_mem_stem _

end Compile

/-! ## Generated paths -/

namespace Package

variable {package : Package} {layout : ModuleLayout}

/-- The paths of the modules of a package descend where its name is a component and the names of
its definitions are no paths. -/
theorem descends_of_mem_files (component : Path.IsComponent package.name)
    (forward : package.name ≠ "..")
    (plain : ∀ kind, ∀ i ∈ package.interfaces kind, CodePoint.slash ∉ i.name) {file : ModuleFile}
    (member : file ∈ package.files layout) : file.path.Descends := by
  have below {rest : List Text} (noBack : ∀ name ∈ rest, name ≠ Text.ofString "..") :
      Path.Descends ⟨.none, package.name :: rest⟩ :=
    ⟨rfl, List.cons_ne_nil _ _, List.forall_mem_cons.2 ⟨forward, noBack⟩⟩
  rcases mem_files_iff.1 member with rfl | ⟨kind, ofKind⟩
  · exact (pathTo_initial component).symm ▸ below (by decide)
  · have some_ : package.interfaces kind ≠ [] := by
      intro empty
      rw [kindFiles_of_eq_nil empty] at ofKind
      cases ofKind
    by_cases chosen : layout = .declaration
    · subst chosen
      have inPaths := List.mem_map_of_mem (f := (·.path)) ofKind
      rw [paths_kindFiles_declaration component some_] at inPaths
      obtain ⟨rest, place, same⟩ := List.mem_map.1 inPaths
      rw [← same]
      refine below (List.forall_mem_cons.2 ⟨by cases kind <;> decide, ?_⟩)
      rcases List.mem_append.1 place with own | initial
      · obtain ⟨i, inKind, rfl⟩ := List.mem_map.1 own
        have stem : CodePoint.slash ∉ moduleStem i := by
          intro inside
          rcases List.mem_append.1 inside with score | inName
          · exact absurd score (by decide)
          · exact plain kind i inKind (Text.mem_of_mem_snakeCase (by decide) inName)
        rw [ownPlace_of_plain stem, List.forall_mem_singleton]
        simp [moduleStem, Text.ofString]
      · rw [List.mem_singleton.1 initial]
        decide
    · rw [kindFiles_of_ne chosen some_, List.mem_singleton] at ofKind
      subst ofKind
      exact (pathTo_whole component).symm ▸ below (by cases kind <;> decide)

end Package

namespace Sources

variable {packages : List Package} {sources : Sources}

/-- **The paths of all sources of a run descend.** -/
theorem descends_of_generate {settings : Settings} {tree : FileTree} {names : List Text}
    (named : tree.root.Named)
    (generated : Compile.generate settings tree = .ok (names, packages, sources)) :
    ∀ path ∈ sources.paths, path.Descends := by
  obtain ⟨-, ⟨found, stages⟩, rendered⟩ := Compile.generate_eq_ok_iff.1 generated
  intro path member
  by_cases single : settings.layout = .single
  · rw [single] at rendered
    rw [paths_of_ofPackages_single rendered, List.mem_singleton] at member
    rw [member]
    exact ⟨by decide, by decide, by decide⟩
  · obtain ⟨p, kept, file, inFiles, rfl⟩ := exists_file_of_ofPackages single rendered member
    obtain ⟨component, forward⟩ := stages.isComponent named kept
    exact Package.descends_of_mem_files component forward
      (fun kind i inKind => stages.slash_not_mem_name kept inKind) inFiles

end Sources

end RosInterface
