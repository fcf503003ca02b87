/-
# RosInterface.Proofs.Compile.Writing -- when sources can be written

Sources are written one after the other, each into what the ones before it have left, and each
adds to it (`Compile.within_of_run`).  Still none of them needs another one: if all can be
written into a tree, then so can any part of them (`Compile.exists_writeSources_filter`).  Nor
does it matter what the files of the tree hold: all that counts is its shape
(`Compile.exists_writeSources_of_within`).  Both are said of a whole run as well, whether or not
it has a folder to write to.
-/
import RosInterface.Proofs.Compile.Run
import RosInterface.Proofs.Files.Path
import RosInterface.Proofs.Files.Writing

set_option autoImplicit false

namespace RosInterface.Compile

variable {tree small large after : FileTree} {folder : Path} {source : Path × Text}
  {sources kept : Sources}

theorem writeSource_eq_ok_iff :
    writeSource folder tree source = .ok after ↔
      ∃ made bytes, tree.makeFolders (folder ++ source.1).parent = .ok made ∧
        Utf8.encode? source.2 = some bytes ∧ made.write (folder ++ source.1) bytes = .ok after := by
  simp only [← FileTree.writeText_eq_ok_iff, exists_and_left]
  rw [← Outcome.bind_eq_ok_iff, writeSource]
  constructor
  · intro written
    split at written
    case h_1 result inner =>
      cases written
      exact inner
    case h_2 => cases written
  · intro inner
    rw [inner]

theorem of_writeSource (written : writeSource folder tree source = .ok after) :
    tree.isFolderAt? (tree.start (folder ++ source.1)) = some true ∧ tree.Within after := by
  obtain ⟨made, bytes, makes, -, writes⟩ := writeSource_eq_ok_iff.1 written
  obtain ⟨start, within, -⟩ := FileTree.of_makeFolders makes
  exact ⟨start, within.trans (FileTree.of_write writes)⟩

/-- A source can be written into a tree within one that it can be written into. -/
theorem exists_writeSource (within : small.Within large)
    (start : small.isFolderAt? (small.start (folder ++ source.1)) = some true)
    (written : writeSource folder large source = .ok after) :
    ∃ result, writeSource folder small source = .ok result ∧ result.Within after := by
  obtain ⟨made, bytes, makes, encoded, writes⟩ := writeSource_eq_ok_iff.1 written
  obtain ⟨-, grows, isFolder⟩ := FileTree.of_makeFolders makes
  have startAbove : small.isFolderAt? (small.start (folder ++ source.1).parent) = some true := start
  obtain ⟨middle, makesToo, stays⟩ :=
    FileTree.exists_makeFolders (within.trans grows) startAbove isFolder
  obtain ⟨-, -, alsoFolder⟩ := FileTree.of_makeFolders makesToo
  obtain ⟨result, writesToo, last⟩ := FileTree.exists_write stays alsoFolder writes
  exact ⟨result, writeSource_eq_ok_iff.2 ⟨middle, bytes, makesToo, encoded, writesToo⟩, last⟩

/-- What is written one after the other adds to the tree. -/
theorem of_foldlM_writeSource
    (written : sources.foldlM (writeSource folder) tree = .ok after) : tree.Within after := by
  induction sources generalizing tree with
  | nil =>
      cases written
      exact .refl _
  | cons source rest ih =>
      obtain ⟨middle, first, others⟩ := Outcome.bind_eq_ok_iff.1 written
      exact (of_writeSource first).2.trans (ih others)

theorem start_append (relative : source.1.anchor = .none) :
    tree.start (folder ++ source.1) = tree.start folder := by
  rw [Path.append_of_relative relative]
  rfl

/-- Some of the sources can be written after each other where all of them can. -/
theorem exists_foldlM_writeSource (some_ : kept.Sublist sources)
    (relative : ∀ source ∈ sources, source.1.anchor = .none) (within : small.Within large)
    (start : small.isFolderAt? (small.start folder) = some true)
    (written : sources.foldlM (writeSource folder) large = .ok after) :
    ∃ result, kept.foldlM (writeSource folder) small = .ok result ∧ result.Within after := by
  induction some_ generalizing small large with
  | slnil =>
      cases written
      exact ⟨small, rfl, within⟩
  | cons source _ ih =>
      obtain ⟨middle, first, others⟩ := Outcome.bind_eq_ok_iff.1 written
      exact ih (fun s member => relative s (List.mem_cons_of_mem _ member))
        (within.trans (of_writeSource first).2) start others
  | cons_cons source _ ih =>
      obtain ⟨middle, first, others⟩ := Outcome.bind_eq_ok_iff.1 written
      have alone := relative source List.mem_cons_self
      obtain ⟨small', firstToo, stays⟩ :=
        exists_writeSource within ((start_append alone).symm ▸ start) first
      have grows := (of_writeSource firstToo).2
      have startToo : small'.isFolderAt? (small'.start folder) = some true := by
        rw [grows.start_eq]
        exact grows.kept _ true start
      obtain ⟨result, rest, last⟩ := ih (fun s member => relative s (List.mem_cons_of_mem _ member))
        stays startToo others
      exact ⟨result, Outcome.bind_eq_ok_iff.2 ⟨small', firstToo, rest⟩, last⟩

theorem perm_inOrder (sources : Sources) : (inOrder sources).Perm sources :=
  List.mergeSort_perm _ _

theorem filter_inOrder (keep : Path × Text → Bool) (sources : Sources) :
    (inOrder sources).filter keep = inOrder (sources.filter keep) := by
  refine Text.filter_mergeSort (fun a b c first second => ?_) (fun a b => ?_) keep sources
  · exact Path.componentsLe_trans first second
  · rw [Bool.or_eq_true]
    exact Path.componentsLe_total _ _

theorem writeSources_eq_ok_iff {files : List Path} :
    writeSources folder tree sources = .ok (after, files) ↔
      (inOrder sources).foldlM (writeSource folder) tree = .ok after ∧
        files = (inOrder sources).map fun source => folder ++ source.1 := by
  rw [writeSources, Outcome.bind_eq_ok_iff]
  constructor
  · intro ⟨_, written, whole⟩
    cases whole
    exact ⟨written, rfl⟩
  · intro ⟨written, same⟩
    rw [same]
    exact ⟨after, written, rfl⟩

/-- **A run adds to the tree.**  What was there is there still, and is what it was. -/
theorem within_of_run {settings : Settings} {environment : Environment} {result : Result}
    (returned : run settings environment tree = .ok result) : tree.Within result.tree := by
  obtain ⟨-, written⟩ := run_eq_ok_iff.1 returned
  unfold Result.Written at written
  split at written
  case h_1 =>
    obtain ⟨-, same⟩ := written
    rw [same]
    exact .refl tree
  case h_2 => exact of_foldlM_writeSource (writeSources_eq_ok_iff.1 written).1

/-- **Sources do not need each other to be written.**  Where relative sources can be written,
any part of them can be. -/
theorem exists_writeSources_filter (keep : Path × Text → Bool)
    (relative : ∀ source ∈ sources, source.1.anchor = .none) {files : List Path}
    (written : writeSources folder tree sources = .ok (after, files)) :
    ∃ result, writeSources folder tree (sources.filter keep) =
      .ok (result, (inOrder (sources.filter keep)).map fun source => folder ++ source.1) := by
  obtain ⟨all, -⟩ := writeSources_eq_ok_iff.1 written
  have relativeToo : ∀ source ∈ inOrder sources, source.1.anchor = .none :=
    fun source member => relative source ((perm_inOrder sources).subset member)
  have sublist : (inOrder (sources.filter keep)).Sublist (inOrder sources) := by
    rw [← filter_inOrder]
    exact List.filter_sublist
  cases ordered : inOrder sources with
  | nil =>
      rw [ordered, List.sublist_nil] at sublist
      exact ⟨tree, writeSources_eq_ok_iff.2 ⟨by rw [sublist]; rfl, rfl⟩⟩
  | cons first rest =>
      -- the first source shows that the folder has a place to start from
      obtain ⟨_, firstWritten, -⟩ := Outcome.bind_eq_ok_iff.1 (ordered ▸ all)
      have start := (of_writeSource firstWritten).1
      rw [start_append (relativeToo first (by rw [ordered]; exact List.mem_cons_self))] at start
      obtain ⟨result, part, -⟩ :=
        exists_foldlM_writeSource sublist relativeToo (.refl tree) start all
      exact ⟨result, writeSources_eq_ok_iff.2 ⟨part, rfl⟩⟩

theorem Result.Written.exists_filter {output : Option Path} {result : Result}
    (written : result.Written output tree)
    (relative : ∀ source ∈ result.sources, source.1.anchor = .none) (keep : Path × Text → Bool)
    (names : List Text) (packages : List Package) :
    ∃ files after, Result.Written ⟨names, packages, result.sources.filter keep, files, after⟩
      output tree := by
  cases output with
  | none => exact ⟨[], tree, rfl, rfl⟩
  | some folder =>
      obtain ⟨after, writtenToo⟩ := exists_writeSources_filter keep relative written
      exact ⟨_, after, writtenToo⟩

/-! ## Another tree of the same shape -/

theorem exists_foldlM_writeSource_of_within (within : small.Within large)
    (back : large.Within small) (written : sources.foldlM (writeSource folder) large = .ok after) :
    ∃ result, sources.foldlM (writeSource folder) small = .ok result := by
  induction sources generalizing small large with
  | nil => exact ⟨small, rfl⟩
  | cons source rest ih =>
      obtain ⟨middle, first, others⟩ := Outcome.bind_eq_ok_iff.1 written
      have start := (of_writeSource first).1
      have startToo : small.isFolderAt? (small.start (folder ++ source.1)) = some true := by
        rw [back.start_eq]
        exact back.kept _ true start
      obtain ⟨alsoMiddle, firstToo, stays⟩ := exists_writeSource within startToo first
      -- writing the same source again from the other side shows that neither tree has more
      obtain ⟨again, same, returns⟩ := exists_writeSource back start firstToo
      rw [first] at same
      cases same
      obtain ⟨result, restToo⟩ := ih stays returns others
      exact ⟨result, Outcome.bind_eq_ok_iff.2 ⟨alsoMiddle, firstToo, restToo⟩⟩

/-- What can be written into a tree can be written into every tree of its shape. -/
theorem exists_writeSources_of_within (within : small.Within large) (back : large.Within small)
    {files : List Path} (written : writeSources folder large sources = .ok (after, files)) :
    ∃ result, writeSources folder small sources = .ok (result, files) := by
  obtain ⟨all, rfl⟩ := writeSources_eq_ok_iff.1 written
  obtain ⟨result, allToo⟩ := exists_foldlM_writeSource_of_within within back all
  exact ⟨result, writeSources_eq_ok_iff.2 ⟨allToo, rfl⟩⟩

theorem Result.Written.exists_of_within {output : Option Path} {result : Result}
    (written : result.Written output large) (within : small.Within large)
    (back : large.Within small) (packages : List Package) :
    ∃ after, Result.Written { result with packages, tree := after } output small := by
  cases output with
  | none => exact ⟨small, written.1, rfl⟩
  | some folder => exact exists_writeSources_of_within within back written

end RosInterface.Compile
