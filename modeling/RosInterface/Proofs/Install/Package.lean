/-
# RosInterface.Proofs.Install.Package -- which packages are found

A package is found at a location when the index of the location has a file of its name
(`FileTree.Indexes`), and it has an entry for each listed line of that file
(`FileTree.IndexLines`).  What is discovered at some locations is described by these two
alone (`InstalledPackage.exists_of_discover`, `of_mem_discover`).
-/
import RosInterface.Install.Package
import RosInterface.Proofs.Files.Place
import RosInterface.Proofs.Install.Index
import RosInterface.Proofs.Text.Order

set_option autoImplicit false

namespace RosInterface

open InstalledPackage (indexFolder indexFile)

/-- The index of the location has a file of this name. -/
def FileTree.Indexes (tree : FileTree) (location : Path) (name : Text) : Prop :=
  ∃ node bytes, tree.find (indexFolder location) = .ok node ∧ (name, .file bytes) ∈ node.entries

/-- The file of a package in the index of a location has these lines. -/
def FileTree.IndexLines (tree : FileTree) (location : Path) (name : Text) (lines : List Text) :
    Prop :=
  ∃ bytes text, tree.read (indexFile location name) = .ok bytes ∧ Utf8.decode bytes = .ok text ∧
    lines = text.unifyNewlines.lines

/-- A package is found at one of the locations, and it is not passed over. -/
structure FileTree.Finds (tree : FileTree) (excluded : List Text) (locations : List Path)
    (location : Path) (name : Text) : Prop where
  searched : location ∈ locations
  notExcluded : name ∉ excluded
  indexed : tree.Indexes location name

namespace InstalledPackage

variable {tree : FileTree} {excluded : List Text} {location : Path} {name : Text}
  {package : InstalledPackage}

/-- The package has an entry for each listed line of its index file. -/
def Indexed (tree : FileTree) (package : InstalledPackage) : Prop :=
  ∃ lines, tree.IndexLines package.location package.name lines ∧
    List.Forall₂ (fun line entry => IndexEntry.ofLine line = .ok (some entry))
      (lines.filter fun line => IndexEntry.Listed line) package.entries

theorem mem_indexEntries {entries : List (Text × Bool)}
    (read : indexEntries tree location = .ok entries) :
    (name, false) ∈ entries ↔ tree.Indexes location name := by
  unfold indexEntries at read
  unfold FileTree.Indexes
  cases found : tree.find (indexFolder location) with
  | error fault =>
      rw [found] at read
      cases fault <;> cases read <;> simp
  | ok node =>
      rw [found] at read
      cases read
      rw [(Text.perm_sortOn _ _).mem_iff, Node.listing, List.mem_map]
      constructor
      · rintro ⟨⟨_, below⟩, member, same⟩
        cases below with
        | file bytes =>
            cases same
            exact ⟨node, bytes, rfl, member⟩
        | folder entries => cases same
      · rintro ⟨_, bytes, same, member⟩
        cases same
        exact ⟨_, member, rfl⟩

theorem bytes_eq_ok_iff {path : Path} {bytes : List UInt8} :
    tree.bytes path = .ok bytes ↔ tree.read path = .ok bytes := by
  unfold FileTree.bytes
  cases tree.read path <;> simp [Outcome.abort]

/-- The package of an index file has an entry for each line of the file that names one. -/
theorem ofIndexFile_eq_ok_iff :
    ofIndexFile tree location name = .ok package ↔
      ∃ lines found, tree.IndexLines location name lines ∧
        lines.mapM IndexEntry.ofLine = .ok found ∧
        package = ⟨name, location, found.filterMap id⟩ := by
  rw [ofIndexFile, Outcome.bind_eq_ok_iff]
  constructor
  · intro ⟨bytes, file, rest⟩
    cases decoded : Utf8.decode bytes with
    | error fault =>
        rw [decoded] at rest
        cases rest
    | ok text =>
        rw [decoded] at rest
        obtain ⟨entries, read, whole⟩ := Outcome.bind_eq_ok_iff.1 rest
        cases whole
        obtain ⟨found, each, rfl⟩ := IndexEntry.ofText_eq_ok_iff.1 read
        exact ⟨_, found, ⟨bytes, text, bytes_eq_ok_iff.1 file, decoded, rfl⟩, each, rfl⟩
  · intro ⟨lines, found, ⟨bytes, text, file, decoded, same⟩, each, whole⟩
    subst same whole
    refine ⟨bytes, bytes_eq_ok_iff.2 file, ?_⟩
    rw [decoded]
    exact Outcome.bind_eq_ok_iff.2 ⟨_, IndexEntry.ofText_eq_ok_iff.2 ⟨found, each, rfl⟩, rfl⟩

theorem ofIndexFile_of_decode {bytes : List UInt8} {text : Text}
    {found : List (Option IndexEntry)}
    (file : tree.read (indexFile location name) = .ok bytes)
    (decoded : Utf8.decode bytes = .ok text)
    (each : text.unifyNewlines.lines.mapM IndexEntry.ofLine = .ok found) :
    ofIndexFile tree location name = .ok ⟨name, location, found.filterMap id⟩ :=
  ofIndexFile_eq_ok_iff.2 ⟨_, found, ⟨bytes, text, file, decoded, rfl⟩, each, rfl⟩

theorem of_ofIndexFile (read : ofIndexFile tree location name = .ok package) :
    package.name = name ∧ package.location = location ∧ package.Indexed tree := by
  obtain ⟨lines, found, hasLines, each, rfl⟩ := ofIndexFile_eq_ok_iff.1 read
  exact ⟨rfl, rfl, lines, hasLines,
    IndexEntry.forall₂_filter_listed (Outcome.mapM_eq_ok_iff.1 each)⟩

/-- The path of an index file that is read is not too long. -/
theorem checkPath_of_ofIndexFile (read : ofIndexFile tree location name = .ok package) :
    FileTree.checkPath (indexFile location name) = .ok () := by
  obtain ⟨-, -, ⟨bytes, -, file, -, -⟩, -, -⟩ := ofIndexFile_eq_ok_iff.1 read
  obtain ⟨node, found, -⟩ := Outcome.bind_eq_ok_iff.1 file
  exact (FileTree.find_eq_ok_iff.1 found).1

/-! ## One location -/

section Entry

variable {entry : Text × Bool}

/-- An entry stands for a package when it is a file that is not excluded. -/
theorem ofIndexEntry_eq_some_iff :
    ofIndexEntry tree excluded location entry = .ok (some package) ↔
      entry.2 = false ∧ entry.1 ∉ excluded ∧ ofIndexFile tree location entry.1 = .ok package := by
  constructor
  · intro looked
    rw [ofIndexEntry] at looked
    split at looked
    case h_1 => cases looked
    case h_2 =>
      split at looked
      case isTrue => cases looked
      case isFalse kept =>
        obtain ⟨_, read, same⟩ := Outcome.map_eq_ok_iff.1 looked
        cases same
        rw [not_or, Bool.not_eq_true] at kept
        exact ⟨kept.1, kept.2, read⟩
  · intro ⟨file, notExcluded, read⟩
    have kept : ¬ (entry.2 = true ∨ entry.1 ∈ excluded) := by simp [file, notExcluded]
    rw [ofIndexEntry, checkPath_of_ofIndexFile read, read]
    exact if_neg kept

/-- An entry is passed over when it is a folder or excluded, and it was looked up before. -/
theorem ofIndexEntry_eq_none_iff :
    ofIndexEntry tree excluded location entry = .ok none ↔
      FileTree.checkPath (indexFile location entry.1) ≠ .error .nameTooLong ∧
        (entry.2 = true ∨ entry.1 ∈ excluded) := by
  rw [ofIndexEntry]
  split
  case h_1 long => simp [long, Outcome.abort]
  case h_2 short =>
    have isShort : FileTree.checkPath (indexFile location entry.1) ≠ .error .nameTooLong := short
    split
    case isTrue passed => simp [isShort, passed]
    case isFalse kept => simp [kept, Outcome.map_eq_ok_iff]

end Entry

variable {part : List InstalledPackage}

theorem atLocation_eq_ok_iff :
    atLocation tree excluded location = .ok part ↔
      ∃ entries found, indexEntries tree location = .ok entries ∧
        entries.mapM (ofIndexEntry tree excluded location) = .ok found ∧
        part = found.filterMap id := by
  rw [atLocation, Outcome.bind_eq_ok_iff]
  constructor
  · intro ⟨entries, gotEntries, rest⟩
    obtain ⟨found, each, whole⟩ := Outcome.bind_eq_ok_iff.1 rest
    cases whole
    exact ⟨entries, found, gotEntries, each, rfl⟩
  · intro ⟨entries, found, gotEntries, each, same⟩
    exact ⟨entries, gotEntries, Outcome.bind_eq_ok_iff.2 ⟨found, each, same ▸ rfl⟩⟩

theorem mem_atLocation (read : atLocation tree excluded location = .ok part) :
    package ∈ part ↔ ∃ name, name ∉ excluded ∧ tree.Indexes location name ∧
      ofIndexFile tree location name = .ok package := by
  obtain ⟨entries, found, gotEntries, each, rfl⟩ := atLocation_eq_ok_iff.1 read
  have inFound : package ∈ found.filterMap id ↔ some package ∈ found := by simp
  rw [inFound, Outcome.mem_iff_of_mapM each]
  constructor
  · rintro ⟨⟨name, _⟩, member, result⟩
    obtain ⟨rfl, notExcluded, gotPackage⟩ := ofIndexEntry_eq_some_iff.1 result
    exact ⟨name, notExcluded, (mem_indexEntries gotEntries).1 member, gotPackage⟩
  · rintro ⟨name, notExcluded, indexed, gotPackage⟩
    exact ⟨_, (mem_indexEntries gotEntries).2 indexed,
      ofIndexEntry_eq_some_iff.2 ⟨rfl, notExcluded, gotPackage⟩⟩

/-- What is found at a location is read there. -/
theorem exists_of_atLocation (read : atLocation tree excluded location = .ok part)
    (notExcluded : name ∉ excluded) (indexed : tree.Indexes location name) :
    ∃ package ∈ part, ofIndexFile tree location name = .ok package := by
  obtain ⟨entries, found, gotEntries, each, -⟩ := atLocation_eq_ok_iff.1 read
  obtain ⟨result, -, looked⟩ :=
    Outcome.exists_of_mapM each ((mem_indexEntries gotEntries).2 indexed)
  cases result with
  | none =>
      obtain ⟨-, folder | isExcluded⟩ := ofIndexEntry_eq_none_iff.1 looked
      · cases folder
      · exact absurd isExcluded notExcluded
  | some package =>
      obtain ⟨-, -, gotPackage⟩ := ofIndexEntry_eq_some_iff.1 looked
      exact ⟨package, (mem_atLocation read).2 ⟨name, notExcluded, indexed, gotPackage⟩, gotPackage⟩

/-- A location with one file in its index has the package of that file. -/
theorem atLocation_of_single {bytes : List UInt8} {text : Text} {found : List (Option IndexEntry)}
    (index : tree.find (indexFolder location) = .ok (.folder [(name, .file bytes)]))
    (notExcluded : name ∉ excluded) (file : tree.read (indexFile location name) = .ok bytes)
    (decoded : Utf8.decode bytes = .ok text)
    (each : text.unifyNewlines.lines.mapM IndexEntry.ofLine = .ok found) :
    atLocation tree excluded location = .ok [⟨name, location, found.filterMap id⟩] := by
  have entries : indexEntries tree location = .ok [(name, false)] := by
    rw [indexEntries, index]
    exact congrArg Except.ok (Text.sortOn_of_pairwise (List.pairwise_singleton _ _))
  have looked : ofIndexEntry tree excluded location (name, false) =
      .ok (some ⟨name, location, found.filterMap id⟩) :=
    ofIndexEntry_eq_some_iff.2 ⟨rfl, notExcluded, ofIndexFile_of_decode file decoded each⟩
  exact atLocation_eq_ok_iff.2
    ⟨_, [some _], entries, Outcome.mapM_eq_ok_iff.2 (.cons looked .nil), rfl⟩

/-! ## All locations -/

variable {locations : List Path} {found : List InstalledPackage}

/-- **Every package that is there is discovered.** -/
theorem exists_of_discover (read : discover tree excluded locations = .ok found)
    (finds : tree.Finds excluded locations location name) :
    ∃ package ∈ found, package.name = name ∧ package.location = location := by
  obtain ⟨parts, each, whole⟩ := Outcome.bind_eq_ok_iff.1 read
  cases whole
  obtain ⟨part, inParts, gotPart⟩ := Outcome.exists_of_mapM each finds.searched
  obtain ⟨package, inPart, gotPackage⟩ :=
    exists_of_atLocation gotPart finds.notExcluded finds.indexed
  obtain ⟨named, located, -⟩ := of_ofIndexFile gotPackage
  exact ⟨package, List.mem_flatten.2 ⟨part, inParts, inPart⟩, named, located⟩

/-- **Every package that is discovered is there**, with an entry for each listed line. -/
theorem of_mem_discover (read : discover tree excluded locations = .ok found)
    (member : package ∈ found) :
    tree.Finds excluded locations package.location package.name ∧ package.Indexed tree := by
  obtain ⟨parts, each, whole⟩ := Outcome.bind_eq_ok_iff.1 read
  cases whole
  obtain ⟨part, inParts, inPart⟩ := List.mem_flatten.1 member
  obtain ⟨location, searched, gotPart⟩ := (Outcome.mem_iff_of_mapM each).1 inParts
  obtain ⟨name, notExcluded, indexes, gotPackage⟩ := (mem_atLocation gotPart).1 inPart
  obtain ⟨rfl, rfl, indexed⟩ := of_ofIndexFile gotPackage
  exact ⟨⟨searched, notExcluded, indexes⟩, indexed⟩

end InstalledPackage

end RosInterface
