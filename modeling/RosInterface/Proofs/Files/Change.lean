/-
# RosInterface.Proofs.Files.Change -- what making folders and writing files changes

What a reader can find in a tree is what is at its places: nothing, a folder, or a file with its
bytes (`FileTree.contentAt?`).  Making the folders of a path puts folders where there was
nothing, and only where the path comes by; writing a file puts it where the path leads to and
nowhere else.  `FileTree.Changes` says this of two trees, with the places at which folders and
files may be new, and such changes add up (`FileTree.Changes.trans`).

Where a path leads does not depend on what is there (`FileTree.aim`): two dots step back, every
other name steps forward, and a walk that ends well ends at that place
(`FileTree.eq_aim_of_walk`).
-/
import RosInterface.Proofs.Files.Writing

set_option autoImplicit false

namespace RosInterface.FileTree

variable {tree middle after : FileTree} {path : Path} {name : Text} {place : List Text}
  {bytes : List UInt8}

/-! ## What is at a place -/

/-- What is at a place with what it holds: a folder, a file with its bytes, or nothing. -/
def contentAt? (tree : FileTree) (place : List Text) : Option (Option (List UInt8)) :=
  tree.root.content? place

theorem isFolderAt?_eq_map :
    tree.isFolderAt? place = (tree.contentAt? place).map Option.isNone := Node.isFolder?_eq

theorem isFolderAt?_eq_true_iff :
    tree.isFolderAt? place = some true ↔ tree.contentAt? place = some none := by
  rw [isFolderAt?_eq_map]
  match tree.contentAt? place with
  | none => simp
  | some none => simp
  | some (some _) => simp

theorem isFolderAt?_eq_false_iff :
    tree.isFolderAt? place = some false ↔ ∃ bytes, tree.contentAt? place = some (some bytes) := by
  rw [isFolderAt?_eq_map]
  match tree.contentAt? place with
  | none => simp
  | some none => simp
  | some (some _) => simp

theorem isFolderAt?_eq_none_iff :
    tree.isFolderAt? place = none ↔ tree.contentAt? place = none := by
  rw [isFolderAt?_eq_map, Option.map_eq_none_iff]

theorem Settable.contentAt? {value : Node} {folder : List Text}
    (settable : tree.Settable value folder name) (other : List Text) :
    (tree.setAt value (folder ++ [name])).contentAt? other =
      if other = folder ++ [name] then some value.content else tree.contentAt? other :=
  Node.content?_set settable.leaf settable.above settable.free other

theorem read_eq_ok_iff :
    tree.read path = .ok bytes ↔
      checkPath path = .ok () ∧ ∃ place, tree.walk path = .ok place ∧
        tree.contentAt? place = some (some bytes) := by
  have whole : tree.read path = .ok bytes ↔ tree.find path = .ok (.file bytes) := by
    rw [read, Outcome.bind_eq_ok_iff]
    constructor
    · rintro ⟨node, found, isFile⟩
      cases node with
      | file held =>
          cases isFile
          exact found
      | folder entries => cases isFile
    · intro found
      exact ⟨_, found, rfl⟩
  have holds (place : List Text) : tree.root.get? place = some (.file bytes) ↔
      tree.contentAt? place = some (some bytes) := by
    rw [contentAt?, Node.content?]
    cases tree.root.get? place with
    | none => simp
    | some node => cases node <;> simp [Node.content]
  rw [whole, find_eq_ok_iff]
  simp only [holds]

/-! ## Where a path leads -/

/-- One component further: two dots step back. -/
def advance (place : List Text) (name : Text) : List Text :=
  if name = ".." then place.dropLast else place ++ [name]

/-- Where a path leads when all on its way is there. -/
def aim (tree : FileTree) (path : Path) : List Text :=
  path.components.foldl advance (tree.start path)

theorem advance_of_ne (forward : name ≠ "..") : advance place name = place ++ [name] :=
  if_neg forward

theorem aim_child : tree.aim (path.child name) = advance (tree.aim path) name := by
  rw [aim, Path.child, List.foldl_append]
  rfl

theorem foldl_advance {names : List Text} (forward : ∀ name ∈ names, name ≠ Text.ofString "..") :
    names.foldl advance place = place ++ names := by
  induction names generalizing place with
  | nil => simp
  | cons name rest ih =>
      rw [List.foldl_cons, advance_of_ne (forward name List.mem_cons_self),
        ih fun other member => forward other (List.mem_cons_of_mem _ member)]
      simp

theorem eq_advance_of_step {next : List Text} (stepped : tree.step place name = .ok next) :
    next = advance place name := by
  by_cases back : name = ".."
  · rw [back, step_back (isFolderAt?_of_step stepped)] at stepped
    cases stepped
    rw [back]
    rfl
  · rw [advance_of_ne back]
    exact ((step_eq_ok_iff back).1 stepped).2.2.2

/-- A walk that ends well ends where the path leads. -/
theorem eq_aim_of_walk (walked : tree.walk path = .ok place) : place = tree.aim path := by
  have along (names : List Text) (from_ : List Text)
      (walked : names.foldlM tree.step from_ = .ok place) : place = names.foldl advance from_ := by
    induction names generalizing from_ with
    | nil =>
        cases walked
        rfl
    | cons name rest ih =>
        obtain ⟨next, stepped, others⟩ := Outcome.bind_eq_ok_iff.1 walked
        rw [List.foldl_cons, ← eq_advance_of_step stepped]
        exact ih next others
  exact along _ _ walked

theorem Opens.eq_aim (opens : tree.Opens path place) : place = tree.aim path :=
  eq_aim_of_walk opens.1

/-- One of the beginnings of the path leads to the place. -/
def Passes (tree : FileTree) (path : Path) (place : List Text) : Prop :=
  ∃ count ≤ path.components.length, place = tree.aim (path.upTo count)

/-- What opens opens all the way. -/
theorem Opens.upTo (opens : tree.Opens path place) (count : Nat) :
    tree.Opens (path.upTo count) (tree.aim (path.upTo count)) := by
  obtain ⟨walked, folder⟩ := opens
  rw [walk, ← List.take_append_drop count path.components, List.foldlM_append,
    Outcome.bind_eq_ok_iff] at walked
  obtain ⟨between, first, rest⟩ := walked
  have reached : tree.walk (path.upTo count) = .ok between := first
  have isFolder : tree.isFolderAt? between = some true := by
    cases later : path.components.drop count with
    | nil =>
        rw [later] at rest
        cases rest
        exact folder
    | cons name others =>
        rw [later] at rest
        obtain ⟨_, stepped, -⟩ := Outcome.bind_eq_ok_iff.1 rest
        exact isFolderAt?_of_step stepped
  rw [← eq_aim_of_walk reached]
  exact ⟨reached, isFolder⟩

theorem Opens.isFolderAt?_of_passes {other : List Text} (opens : tree.Opens path place)
    (passes : tree.Passes path other) : tree.isFolderAt? other = some true := by
  obtain ⟨count, -, rfl⟩ := passes
  exact (opens.upTo count).2

theorem length_le_of_step {next : List Text} (stepped : tree.step place name = .ok next) :
    byteLength name ≤ maximalName := by
  by_cases back : name = ".."
  · rw [back]
    decide
  · exact ((step_eq_ok_iff back).1 stepped).2.1

/-- A path that opens has no name that is too long. -/
theorem Opens.length_le (opens : tree.Opens path place) (member : name ∈ path.components) :
    byteLength name ≤ maximalName := by
  have along (names : List Text) (from_ : List Text) (member : name ∈ names)
      (walked : names.foldlM tree.step from_ = .ok place) : byteLength name ≤ maximalName := by
    induction names generalizing from_ with
    | nil => cases member
    | cons first rest ih =>
        obtain ⟨next, stepped, others⟩ := Outcome.bind_eq_ok_iff.1 walked
        rcases List.mem_cons.1 member with rfl | later
        · exact length_le_of_step stepped
        · exact ih next later others
  exact along _ _ member opens.1

/-! ## Changes -/

/-- How a place can differ between a tree and a later one, where `folders` says whether a folder
may be new there and `files` whether a file may. -/
inductive ChangedAt (tree after : FileTree) (place : List Text) (folders files : Prop) : Prop
  | same (same : after.contentAt? place = tree.contentAt? place)
  | folder (may : folders) (absent : tree.contentAt? place = none)
      (made : after.contentAt? place = some none)
  | file (may : files) (free : tree.contentAt? place ≠ some none) (bytes : List UInt8)
      (written : after.contentAt? place = some (some bytes))

/-- Folders are new at some places where there was nothing, files at some places where there was
no folder, and all else is as it was. -/
structure Changes (tree after : FileTree) (folders files : List Text → Prop) : Prop where
  workingFolder : after.workingFolder = tree.workingFolder
  at_ : ∀ place, tree.ChangedAt after place (folders place) (files place)

namespace Changes

variable {folders files moreFolders moreFiles : List Text → Prop}

theorem refl (tree : FileTree) : tree.Changes tree folders files :=
  ⟨rfl, fun _ => .same rfl⟩

theorem mono (changes : tree.Changes after folders files)
    (fewer : ∀ place, folders place → moreFolders place)
    (fewerFiles : ∀ place, files place → moreFiles place) :
    tree.Changes after moreFolders moreFiles := by
  refine ⟨changes.workingFolder, fun place => ?_⟩
  cases changes.at_ place with
  | same same => exact .same same
  | folder may absent made => exact .folder (fewer place may) absent made
  | file may free bytes written => exact .file (fewerFiles place may) free bytes written

theorem trans (first : tree.Changes middle folders files)
    (second : middle.Changes after folders files) : tree.Changes after folders files := by
  refine ⟨second.workingFolder.trans first.workingFolder, fun place => ?_⟩
  cases second.at_ place with
  | same kept =>
      cases first.at_ place with
      | same same => exact .same (kept.trans same)
      | folder may absent made => exact .folder may absent (kept.trans made)
      | file may free bytes written => exact .file may free bytes (kept.trans written)
  | folder may gone made =>
      cases first.at_ place with
      | same same => exact .folder may (same.symm.trans gone) made
      | folder _ _ there => cases there.symm.trans gone
      | file _ _ bytes there => cases there.symm.trans gone
  | file may free bytes written =>
      cases first.at_ place with
      | same same => exact .file may (same ▸ free) bytes written
      | folder _ _ there => exact absurd there free
      | file _ before _ _ => exact .file may before bytes written

/-- Nothing that was there is lost. -/
theorem within (changes : tree.Changes after folders files) : tree.Within after := by
  refine ⟨changes.workingFolder, fun place kind at_ => ?_⟩
  cases changes.at_ place with
  | same same => rw [isFolderAt?_eq_map, same, ← isFolderAt?_eq_map, at_]
  | folder _ absent _ =>
      rw [isFolderAt?_eq_none_iff.2 absent] at at_
      cases at_
  | file _ free bytes written =>
      cases kind with
      | true => exact absurd (isFolderAt?_eq_true_iff.1 at_) free
      | false => exact isFolderAt?_eq_false_iff.2 ⟨bytes, written⟩

theorem start_eq (changes : tree.Changes after folders files) (path : Path) :
    after.start path = tree.start path := changes.within.start_eq

theorem aim_eq (changes : tree.Changes after folders files) (path : Path) :
    after.aim path = tree.aim path := by
  rw [aim, aim, changes.start_eq]

theorem passes_iff (changes : tree.Changes after folders files) :
    after.Passes path place ↔ tree.Passes path place := by
  simp only [Passes, changes.aim_eq]

/-- Where no file may be new, what is a file later was that file before. -/
theorem contentAt?_of_file (changes : tree.Changes after folders files) (not_ : ¬ files place) :
    after.contentAt? place = some (some bytes) ↔ tree.contentAt? place = some (some bytes) := by
  cases changes.at_ place with
  | same same => rw [same]
  | folder _ absent made => simp [absent, made]
  | file may => exact absurd may not_

/-- A file that is not among those that may be new is still read. -/
theorem read_of_read (changes : tree.Changes after folders files) (not_ : ¬ files (tree.aim path))
    (read : tree.read path = .ok bytes) : after.read path = .ok bytes := by
  obtain ⟨fine, place, walked, holds⟩ := read_eq_ok_iff.1 read
  have still := (changes.contentAt?_of_file (eq_aim_of_walk walked ▸ not_)).2 holds
  exact read_eq_ok_iff.2 ⟨fine, place, changes.within.walk walked, still⟩

/-- What is a folder later was one before, or it is a new one. -/
theorem isFolderAt?_of_folder (changes : tree.Changes after folders files)
    (folder : after.isFolderAt? place = some true) :
    tree.isFolderAt? place = some true ∨ folders place := by
  rw [isFolderAt?_eq_true_iff] at folder ⊢
  cases changes.at_ place with
  | same same => exact .inl (same.symm.trans folder)
  | folder may _ _ => exact .inr may
  | file _ _ _ written => cases written.symm.trans folder

theorem isFolderAt?_of_isFile (changes : tree.Changes after folders files)
    (file : after.isFolderAt? place = some false) :
    tree.isFolderAt? place = some false ∨ files place := by
  rw [isFolderAt?_eq_false_iff] at file ⊢
  obtain ⟨held, holds⟩ := file
  cases changes.at_ place with
  | same same => exact .inl ⟨held, same.symm.trans holds⟩
  | folder _ _ made => cases made.symm.trans holds
  | file may _ _ _ => exact .inr may

end Changes

/-! ## One folder, one file -/

theorem Settable.changes_of_absent {folder : List Text}
    (settable : tree.Settable .empty folder name)
    (absent : tree.isFolderAt? (folder ++ [name]) = none) :
    tree.Changes (tree.setAt .empty (folder ++ [name])) (· = folder ++ [name]) fun _ => False := by
  refine ⟨rfl, fun place => ?_⟩
  have content := settable.contentAt? place
  split at content
  case isTrue here => exact .folder here (isFolderAt?_eq_none_iff.1 (here ▸ absent)) content
  case isFalse => exact .same content

theorem Settable.changes_of_file {folder : List Text}
    (settable : tree.Settable (.file bytes) folder name) :
    tree.Changes (tree.setAt (.file bytes) (folder ++ [name])) (fun _ => False)
      (· = folder ++ [name]) := by
  refine ⟨rfl, fun place => ?_⟩
  have content := settable.contentAt? place
  split at content
  case isTrue here =>
    have free : tree.contentAt? place ≠ some none := fun isFolder =>
      settable.free (isFolderAt?_eq_true_iff.2 (here ▸ isFolder))
    exact .file here free bytes content
  case isFalse => exact .same content

/-- A new folder is the only change. -/
theorem changes_of_makeFolder (made : tree.makeFolder path = .ok after) :
    tree.Changes after (· = tree.aim path) fun _ => False := by
  rcases path.eq_nil_or_child with empty | ⟨parent, name, rfl⟩
  · rw [makeFolder, empty] at made
    cases made
  · obtain ⟨-, -, forward, folder, above, absent, rfl⟩ := makeFolder_eq_ok_iff.1 made
    have settable : tree.Settable .empty folder name := ⟨rfl, above.2, by rw [absent]; simp⟩
    rw [aim_child, ← above.eq_aim, advance_of_ne forward]
    exact settable.changes_of_absent absent

theorem changes_of_tolerate (made : tolerate tree path (tree.makeFolder path) = .ok after) :
    tree.Changes after (· = tree.aim path) fun _ => False := by
  unfold tolerate at made
  split at made
  case h_1 result =>
    cases made
    exact changes_of_makeFolder result
  case h_2 => cases made
  case h_3 =>
    split at made
    case isTrue =>
      cases made
      exact .refl tree
    case isFalse => cases made

/-- A file that is written is the only change. -/
theorem changes_of_write (written : tree.write path bytes = .ok after) :
    tree.Changes after (fun _ => False) (· = tree.aim path) ∧
      after.contentAt? (tree.aim path) = some (some bytes) := by
  rcases path.eq_nil_or_child with empty | ⟨parent, name, rfl⟩
  · rw [write, empty] at written
    cases written
  · obtain ⟨-, -, forward, folder, above, free, rfl⟩ := write_eq_ok_iff.1 written
    have settable : tree.Settable (.file bytes) folder name := ⟨rfl, above.2, free⟩
    rw [aim_child, ← above.eq_aim, advance_of_ne forward]
    have here := settable.contentAt? (folder ++ [name])
    rw [if_pos rfl] at here
    exact ⟨settable.changes_of_file, here⟩

end RosInterface.FileTree
