/-
# RosInterface.Proofs.Files.Effect -- what is left behind when writing fails

An operation on a tree answers the tree after or a fault, and with a fault says nothing of what
has been done by then.  Here the same operations are *effects*: they leave a tree behind however
they end.  Folders that were made stay made, and a file that was opened to be written is empty
before anything is in it.  Each effect ends as its operation does, with the same tree or the same
fault (`FileTree.toExcept_foldersTo`, `FileTree.toExcept_textFile`).

However storing a text at a path ends, it makes no folders but those that the path comes by and
changes no file but the one it leads to (`FileTree.changes_store`).  It ends well exactly when
nothing is in the way (`FileTree.exists_store_iff`).
-/
import RosInterface.Proofs.Files.Change

set_option autoImplicit false

namespace RosInterface.FileTree

/-- Something done to a tree, which leaves a tree behind however it ends. -/
abbrev Effect (ε α : Type) := EStateM ε FileTree α

namespace Effect

variable {ε α β : Type} {tree after middle : FileTree}

/-- The tree that is left behind. -/
def left : EStateM.Result ε FileTree α → FileTree
  | .ok _ tree => tree
  | .error _ tree => tree

/-- The answer of an operation that says nothing of the tree where it fails. -/
def toExcept : EStateM.Result ε FileTree Unit → Except ε FileTree
  | .ok _ tree => .ok tree
  | .error fault _ => .error fault

/-- A change that is made as a whole or not at all. -/
def change (make : FileTree → Except ε FileTree) : Effect ε Unit := fun tree =>
  match make tree with
  | .ok after => .ok () after
  | .error fault => .error fault tree

variable {x : Effect ε α} {next : α → Effect ε β} {make : FileTree → Except ε FileTree}

theorem bind_of_ok {a : α} (ended : x tree = .ok a middle) : (x >>= next) tree = next a middle := by
  simp only [bind, EStateM.bind, ended]

theorem bind_of_error {fault : ε} (failed : x tree = .error fault after) :
    (x >>= next) tree = .error fault after := by
  simp only [bind, EStateM.bind, failed]

theorem bind_eq_ok_iff {b : β} :
    (x >>= next) tree = .ok b after ↔
      ∃ a middle, x tree = .ok a middle ∧ next a middle = .ok b after := by
  cases ended : x tree with
  | ok a middle =>
      rw [bind_of_ok ended]
      simp
  | error fault middle =>
      rw [bind_of_error ended]
      simp

theorem bind_eq_error_iff {fault : ε} :
    (x >>= next) tree = .error fault after ↔ x tree = .error fault after ∨
      ∃ a middle, x tree = .ok a middle ∧ next a middle = .error fault after := by
  cases ended : x tree with
  | ok a middle =>
      rw [bind_of_ok ended]
      simp
  | error fault middle =>
      rw [bind_of_error ended]
      simp

theorem toExcept_eq_ok_iff {result : EStateM.Result ε FileTree Unit} {u : Unit} :
    toExcept result = .ok after ↔ result = .ok u after := by
  cases result <;> simp [toExcept]

@[simp] theorem toExcept_change : toExcept (change make tree) = make tree := by
  rw [change]
  cases make tree <;> rfl

theorem toExcept_bind {y : Effect ε Unit} {more : Effect ε Unit} :
    toExcept ((do y; more) tree) = (do let middle ← toExcept (y tree); toExcept (more middle)) := by
  cases ended : y tree with
  | ok _ middle =>
      rw [bind_of_ok ended]
      rfl
  | error fault _ =>
      rw [bind_of_error ended]
      rfl

/-- The answer of an effect, without the tree. -/
def answer : EStateM.Result ε FileTree α → Except ε α
  | .ok a _ => .ok a
  | .error fault _ => .error fault

/-! ## What effects change -/

variable {folders files : List Text → Prop}

theorem changes_change (made : ∀ after, make tree = .ok after → tree.Changes after folders files) :
    tree.Changes (left (change make tree)) folders files := by
  rw [change]
  split
  case h_1 after result => exact made after result
  case h_2 => exact .refl tree

/-- What two effects change, one after the other; the second is not asked where the first one
fails. -/
theorem changes_bind (first : tree.Changes (left (x tree)) folders files)
    (second : ∀ a middle, x tree = .ok a middle → tree.Changes middle folders files →
      middle.Changes (left (next a middle)) folders files) :
    tree.Changes (left ((x >>= next) tree)) folders files := by
  cases ended : x tree with
  | ok a middle =>
      rw [ended] at first
      rw [bind_of_ok ended]
      exact first.trans (second a middle ended first)
  | error fault middle =>
      rw [ended] at first
      rw [bind_of_error ended]
      exact first

end Effect

open Effect

variable {tree middle after : FileTree} {path : Path} {name text : Text} {count : Nat}
  {bytes others : List UInt8}

/-! ## Folders -/

/-- Make one folder, if it is not there already. -/
def ensure (path : Path) : Effect FileFault Unit :=
  change fun tree => tolerate tree path (tree.makeFolder path)

/-- Make the folder of the first `count` components and what is missing above it. -/
def foldersTo (path : Path) : Nat → Effect FileFault Unit
  | 0 => ensure (path.upTo 0)
  | count + 1 => fun tree =>
      match tree.makeFolder (path.upTo (count + 1)) with
      | .error .missing => (do foldersTo path count; ensure (path.upTo (count + 1))) tree
      | _ => ensure (path.upTo (count + 1)) tree

theorem foldersTo_succ : foldersTo path (count + 1) tree =
    match tree.makeFolder (path.upTo (count + 1)) with
    | .error .missing => (do foldersTo path count; ensure (path.upTo (count + 1))) tree
    | _ => ensure (path.upTo (count + 1)) tree := rfl

theorem foldersTo_of_missing (missing : tree.makeFolder (path.upTo (count + 1)) = .error .missing) :
    foldersTo path (count + 1) tree =
      (do foldersTo path count; ensure (path.upTo (count + 1))) tree := by
  rw [foldersTo_succ, missing]

theorem foldersTo_of_ne (other : tree.makeFolder (path.upTo (count + 1)) ≠ .error .missing) :
    foldersTo path (count + 1) tree = ensure (path.upTo (count + 1)) tree := by
  rw [foldersTo_succ]
  split
  case h_1 missing => exact absurd missing other
  case h_2 => rfl

theorem makeFoldersTo_of_missing
    (missing : tree.makeFolder (path.upTo (count + 1)) = .error .missing) :
    tree.makeFoldersTo path (count + 1) = (do
      let middle ← tree.makeFoldersTo path count
      tolerate middle (path.upTo (count + 1)) (middle.makeFolder (path.upTo (count + 1)))) := by
  rw [makeFoldersTo, show tree.makeFolder ⟨path.anchor, path.components.take (count + 1)⟩ =
    .error .missing from missing]
  simp only [Path.upTo]

theorem makeFoldersTo_of_ne
    (other : tree.makeFolder (path.upTo (count + 1)) ≠ .error .missing) :
    tree.makeFoldersTo path (count + 1) =
      tolerate tree (path.upTo (count + 1)) (tree.makeFolder (path.upTo (count + 1))) := by
  rw [makeFoldersTo]
  split
  case h_1 missing => exact absurd missing other
  case h_2 => rfl

theorem toExcept_ensure :
    toExcept (ensure path tree) = tolerate tree path (tree.makeFolder path) := toExcept_change

/-- The effect ends as the operation does. -/
theorem toExcept_foldersTo :
    toExcept (foldersTo path count tree) = tree.makeFoldersTo path count := by
  induction count generalizing tree with
  | zero => exact toExcept_ensure
  | succ count ih =>
      by_cases missing : tree.makeFolder (path.upTo (count + 1)) = .error .missing
      · rw [foldersTo_of_missing missing, makeFoldersTo_of_missing missing, toExcept_bind, ih]
        exact bind_congr fun middle => toExcept_ensure
      · rw [foldersTo_of_ne missing, makeFoldersTo_of_ne missing]
        exact toExcept_ensure

/-- However it ends, folders are new on the way alone. -/
theorem changes_foldersTo (below : count ≤ path.components.length) :
    tree.Changes (left (foldersTo path count tree)) (tree.Passes path) fun _ => False := by
  have last {n : Nat} (within : n ≤ path.components.length) (middle : FileTree) :
      middle.Changes (left (ensure (path.upTo n) middle)) (middle.Passes path) fun _ => False := by
    refine changes_change fun after made => (changes_of_tolerate made).mono ?_ fun _ not_ => not_
    exact fun place aimed => ⟨n, within, aimed⟩
  induction count with
  | zero => exact last (Nat.zero_le _) tree
  | succ count ih =>
      by_cases missing : tree.makeFolder (path.upTo (count + 1)) = .error .missing
      · rw [foldersTo_of_missing missing]
        refine changes_bind (ih (Nat.le_of_succ_le below)) fun _ middle _ changes => ?_
        exact (last below middle).mono (fun _ => changes.passes_iff.1) fun _ not_ => not_
      · rw [foldersTo_of_ne missing]
        exact last below tree

/-- Make a folder and what is missing above it. -/
def folders (path : Path) : Effect FileFault Unit := foldersTo path path.components.length

theorem folders_eq_ok_iff {u : Unit} :
    folders path tree = .ok u after ↔ tree.makeFolders path = .ok after := by
  rw [← toExcept_eq_ok_iff, folders, toExcept_foldersTo, makeFolders]

/-- Folders that were made are those of the path, and they are there. -/
theorem changes_of_makeFolders (made : tree.makeFolders path = .ok after) :
    tree.Changes after (tree.Passes path) (fun _ => False) ∧ after.Opens path (tree.aim path) := by
  have changes : tree.Changes (left (folders path tree)) (tree.Passes path) fun _ => False :=
    changes_foldersTo (Nat.le_refl _)
  rw [folders_eq_ok_iff (u := ()).2 made, left] at changes
  obtain ⟨-, -, isFolder⟩ := of_makeFolders made
  obtain ⟨-, place, opens⟩ := isFolder_iff.1 isFolder
  rw [← changes.aim_eq, ← opens.eq_aim]
  exact ⟨changes, opens⟩

/-- Where no file is in the way, a tree with the folders of the path has nothing else new. -/
theorem exists_opens_upTo (start : tree.isFolderAt? (tree.start path) = some true)
    (short : ∀ name ∈ path.components, byteLength name ≤ maximalName)
    (free : ∀ place, tree.Passes path place → tree.isFolderAt? place ≠ some false)
    (below : count ≤ path.components.length) :
    ∃ large, tree.Changes large (tree.Passes path) (fun _ => False) ∧
      large.Opens (path.upTo count) (tree.aim (path.upTo count)) := by
  induction count with
  | zero => exact ⟨tree, .refl tree, rfl, start⟩
  | succ count ih =>
      obtain ⟨large, changes, opens⟩ := ih (Nat.le_of_succ_le below)
      have onTheWay : tree.Passes path (tree.aim (path.upTo (count + 1))) := ⟨_, below, rfl⟩
      have shortName := short _ (List.getElem_mem below)
      rw [Path.upTo_succ below, aim_child] at onTheWay ⊢
      generalize path.components[count] = name at onTheWay shortName ⊢
      by_cases back : name = ".."
      · subst back
        exact ⟨large, changes, opens.child (step_back opens.2) (isFolderAt?_dropLast opens.2)⟩
      · rw [advance_of_ne back] at onTheWay ⊢
        cases at_ : large.isFolderAt? (tree.aim (path.upTo count) ++ [name]) with
        | some kind =>
            cases kind with
            | true =>
                have stepped := (step_eq_ok_iff back).2
                  ⟨opens.2, shortName, Option.isSome_iff_exists.2 ⟨true, at_⟩, rfl⟩
                exact ⟨large, changes, opens.child stepped at_⟩
            | false =>
                have inTree := (changes.isFolderAt?_of_isFile at_).resolve_right not_false
                exact absurd inTree (free _ onTheWay)
        | none =>
            have settable : large.Settable .empty (tree.aim (path.upTo count)) name :=
              ⟨rfl, opens.2, by rw [at_]; simp⟩
            have made := settable.changes_of_absent at_
            have nowFolder : (large.setAt .empty (tree.aim (path.upTo count) ++ [name])).isFolderAt?
                (tree.aim (path.upTo count) ++ [name]) = some true := by
              rw [settable.isFolderAt?, if_pos rfl]
              rfl
            have still := made.within.opens opens
            have stepped := (step_eq_ok_iff back).2
              ⟨still.2, shortName, Option.isSome_iff_exists.2 ⟨true, nowFolder⟩, rfl⟩
            refine
              ⟨_, changes.trans (made.mono ?_ fun _ not_ => not_), still.child stepped nowFolder⟩
            rintro _ rfl
            exact onTheWay

/-- **The folders of a path can be made exactly when nothing is in the way**: the path starts in
a folder, it can be asked about, its names are short enough, and it comes by no file. -/
theorem exists_makeFolders_iff :
    (∃ after, tree.makeFolders path = .ok after) ↔
      tree.isFolderAt? (tree.start path) = some true ∧ checkPath path = .ok () ∧
        (∀ name ∈ path.components, byteLength name ≤ maximalName) ∧
          ∀ place, tree.Passes path place → tree.isFolderAt? place ≠ some false := by
  constructor
  · rintro ⟨after, made⟩
    obtain ⟨start, within, isFolder⟩ := of_makeFolders made
    obtain ⟨changes, opens⟩ := changes_of_makeFolders made
    refine ⟨start, (isFolder_iff.1 isFolder).1, fun name => opens.length_le, ?_⟩
    intro place passes isFile
    have folder := opens.isFolderAt?_of_passes (changes.passes_iff.2 passes)
    cases (within.kept place false isFile).symm.trans folder
  · rintro ⟨start, fine, short, free⟩
    obtain ⟨large, changes, opens⟩ := exists_opens_upTo start short free (Nat.le_refl _)
    rw [path.upTo_length] at opens
    obtain ⟨after, made, -⟩ :=
      exists_makeFolders changes.within start (isFolder_iff.2 ⟨fine, _, opens⟩)
    exact ⟨after, made⟩

/-! ## Files -/

theorem setAt_setAt {value more : Node} {place : List Text} :
    (tree.setAt value place).setAt more place = tree.setAt more place := by
  rw [setAt, setAt, setAt, Node.set_set]

/-- **A file can be written exactly when nothing is in the way**, whatever it is to hold. -/
theorem exists_write_iff :
    (∃ after, tree.write (path.child name) bytes = .ok after) ↔
      checkPath (path.child name) = .ok () ∧ byteLength name ≤ maximalName ∧ name ≠ ".." ∧
        tree.Opens path (tree.aim path) ∧
          tree.isFolderAt? (tree.aim (path.child name)) ≠ some true := by
  simp only [write_eq_ok_iff]
  constructor
  · rintro ⟨after, fine, short, forward, folder, opens, free, -⟩
    rw [aim_child, ← opens.eq_aim, advance_of_ne forward]
    exact ⟨fine, short, forward, opens, free⟩
  · rintro ⟨fine, short, forward, opens, free⟩
    rw [aim_child, advance_of_ne forward] at free
    exact ⟨_, fine, short, forward, _, opens, free, rfl⟩

theorem exists_write_of_write (written : tree.write path bytes = .ok after)
    (others : List UInt8) : ∃ result, tree.write path others = .ok result := by
  rcases path.eq_nil_or_child with empty | ⟨parent, name, rfl⟩
  · rw [write, empty] at written
    cases written
  · exact exists_write_iff.2 (exists_write_iff.1 ⟨after, written⟩)

/-- What a file is to hold does not matter for how writing it fails. -/
theorem write_eq_error_iff {fault : FileFault} :
    tree.write path bytes = .error fault ↔ tree.write path others = .error fault := by
  rw [write, write]
  cases path.components.getLast? with
  | none => rfl
  | some name =>
      simp only [Outcome.bind_eq_error_iff]
      refine or_congr Iff.rfl (exists_congr fun place => and_congr Iff.rfl ?_)
      split <;> simp

theorem write_again (first : tree.write path bytes = .ok middle) :
    middle.write path others = .ok after ↔ tree.write path others = .ok after := by
  rcases path.eq_nil_or_child with empty | ⟨parent, name, rfl⟩
  · rw [write, empty] at first
    cases first
  · obtain ⟨fine, short, forward, folder, opens, free, rfl⟩ := write_eq_ok_iff.1 first
    have settable : tree.Settable (.file bytes) folder name := ⟨rfl, opens.2, free⟩
    have still := settable.changes_of_file.within.opens opens
    have stillFree : (tree.setAt (.file bytes) (folder ++ [name])).isFolderAt? (folder ++ [name]) ≠
        some true := by
      rw [settable.isFolderAt?, if_pos rfl]
      simp [Node.isFolder]
    have twice :
        (tree.setAt (.file bytes) (folder ++ [name])).setAt (.file others) (folder ++ [name]) =
        tree.setAt (.file others) (folder ++ [name]) := setAt_setAt
    rw [write_eq_ok_iff, write_eq_ok_iff]
    constructor
    · rintro ⟨_, _, _, other, alsoOpens, _, whole⟩
      obtain rfl := still.eq alsoOpens
      exact ⟨fine, short, forward, folder, opens, free, whole.trans twice⟩
    · rintro ⟨_, _, _, other, alsoOpens, _, whole⟩
      obtain rfl := opens.eq alsoOpens
      exact ⟨fine, short, forward, folder, still, stillFree, whole.trans twice.symm⟩

/-- Open a file, which makes it empty, and write a text into it. -/
def textFile (path : Path) (text : Text) : Effect FileFault Unit := do
  change fun tree => tree.write path []
  match Utf8.encode? text with
  | none => throw .unencodable
  | some bytes => change fun tree => tree.write path bytes

/-- The effect ends as the operation does. -/
theorem toExcept_textFile : toExcept (textFile path text tree) = tree.writeText path text := by
  rw [textFile, writeText, toExcept_bind, toExcept_change]
  cases Utf8.encode? text with
  | none => rfl
  | some bytes =>
      cases opened : tree.write path [] with
      | error fault => exact (write_eq_error_iff.1 opened).symm
      | ok middle =>
          obtain ⟨result, written⟩ := exists_write_of_write opened bytes
          refine (toExcept_change.trans ?_).trans written.symm
          exact (write_again opened).2 written

/-- However it ends, the file that is written is the only change. -/
theorem changes_textFile :
    tree.Changes (left (textFile path text tree)) (fun _ => False) (· = tree.aim path) := by
  refine changes_bind (changes_change fun after opened => (changes_of_write opened).1) ?_
  intro _ middle _ opened
  cases Utf8.encode? text with
  | none => exact .refl middle
  | some bytes =>
      refine changes_change fun after written => ?_
      rw [← opened.aim_eq]
      exact (changes_of_write written).1

/-! ## Storing a text -/

/-- Make the folder of a path, with what is missing above it, and write a text there. -/
def store (path : Path) (text : Text) : Effect FileFault Unit := do
  folders path.parent
  textFile path text

/-- The effect ends as the two operations do. -/
theorem toExcept_store : toExcept (store path text tree) = (do
    let made ← tree.makeFolders path.parent
    made.writeText path text) := by
  rw [store, toExcept_bind, folders, toExcept_foldersTo, makeFolders]
  exact bind_congr fun made => toExcept_textFile

theorem store_eq_ok_iff :
    store path text tree = .ok () after ↔
      ∃ made bytes, tree.makeFolders path.parent = .ok made ∧ Utf8.encode? text = some bytes ∧
        made.write path bytes = .ok after := by
  rw [← toExcept_eq_ok_iff, toExcept_store, Outcome.bind_eq_ok_iff]
  simp only [writeText_eq_ok_iff, exists_and_left]

/-- **However storing ends**, no folder is new but on the way to the path and no file is changed
but the one there. -/
theorem changes_store :
    tree.Changes (left (store path text tree)) (tree.Passes path.parent) (· = tree.aim path) := by
  have made : tree.Changes (left (folders path.parent tree)) (tree.Passes path.parent)
      fun _ => False := changes_foldersTo (Nat.le_refl _)
  refine changes_bind (made.mono (fun _ passes => passes) fun _ => False.elim) ?_
  intro _ middle _ changes
  rw [← changes.aim_eq]
  exact changes_textFile.mono (fun _ => False.elim) fun _ same => same

theorem changes_of_store (stored : store path text tree = .ok () after) :
    tree.Changes after (tree.Passes path.parent) (· = tree.aim path) := by
  have changes : tree.Changes (left (store path text tree)) (tree.Passes path.parent)
      (· = tree.aim path) := changes_store
  rwa [stored] at changes

/-- Where storing ends well, the text is at its place, and so is its folder. -/
theorem of_store (stored : store path text tree = .ok () after) :
    after.Opens path.parent (tree.aim path.parent) ∧
      ∃ bytes, Utf8.encode? text = some bytes ∧
        after.contentAt? (tree.aim path) = some (some bytes) ∧ after.read path = .ok bytes := by
  obtain ⟨made, bytes, makes, encoded, writes⟩ := store_eq_ok_iff.1 stored
  obtain ⟨changes, opens⟩ := changes_of_makeFolders makes
  obtain ⟨written, holds⟩ := changes_of_write writes
  have still := written.within.opens opens
  rw [changes.aim_eq] at holds
  refine ⟨still, bytes, encoded, holds, ?_⟩
  rcases path.eq_nil_or_child with empty | ⟨parent, name, rfl⟩
  · rw [write, empty] at writes
    cases writes
  · obtain ⟨fine, short, forward, -⟩ := write_eq_ok_iff.1 writes
    rw [Path.parent_child] at still
    rw [aim_child, advance_of_ne forward] at holds
    have present : (after.isFolderAt? (tree.aim parent ++ [name])).isSome := by
      rw [isFolderAt?_eq_false_iff.2 ⟨bytes, holds⟩]
      rfl
    refine read_eq_ok_iff.2 ⟨fine, _, ?_, holds⟩
    rw [walk_child, still.1]
    exact (step_eq_ok_iff forward).2 ⟨still.2, short, present, rfl⟩

/-- Nothing is in the way of a text at a path: the path starts in a folder, can be asked about,
and leads to an entry; its names are short enough; it comes by no file on its way; no folder is
at its end, nor will one be for coming by there; and the text can be encoded. -/
structure Takes (tree : FileTree) (path : Path) (text : Text) : Prop where
  start : tree.isFolderAt? (tree.start path) = some true
  fine : checkPath path = .ok ()
  entry : ∃ (folder : Path) (name : Text), path = folder.child name ∧ name ≠ ".."
  short : ∀ name ∈ path.components, byteLength name ≤ maximalName
  above : ∀ place, tree.Passes path.parent place → tree.isFolderAt? place ≠ some false
  free : tree.isFolderAt? (tree.aim path) ≠ some true
  apart : ¬ tree.Passes path.parent (tree.aim path)
  encodable : ∃ bytes, Utf8.encode? text = some bytes

/-- **A text can be stored exactly when nothing is in its way.** -/
theorem exists_store_iff :
    (∃ after, store path text tree = .ok () after) ↔ tree.Takes path text := by
  simp only [store_eq_ok_iff]
  constructor
  · rintro ⟨after, made, bytes, makes, encoded, writes⟩
    obtain ⟨start, -, -, above⟩ := exists_makeFolders_iff.1 ⟨made, makes⟩
    obtain ⟨changes, opens⟩ := changes_of_makeFolders makes
    rcases path.eq_nil_or_child with empty | ⟨parent, name, rfl⟩
    · rw [write, empty] at writes
      cases writes
    · obtain ⟨fine, shortName, forward, opened, free⟩ := exists_write_iff.1 ⟨after, writes⟩
      refine ⟨start, fine, ⟨parent, name, rfl, forward⟩, ?_, above, ?_, ?_, bytes, encoded⟩
      · intro component member
        rcases List.mem_append.1 member with before | last
        · exact opened.length_le before
        · exact List.mem_singleton.1 last ▸ shortName
      · intro isFolder
        rw [changes.aim_eq] at free
        exact free (changes.within.kept _ true isFolder)
      · intro passes
        rw [changes.aim_eq] at free
        exact free (opens.isFolderAt?_of_passes (changes.passes_iff.2 passes))
  · rintro ⟨start, fine, ⟨parent, name, rfl, forward⟩, short, above, free, apart, bytes, encoded⟩
    have shortAbove : ∀ component ∈ parent.components, byteLength component ≤ maximalName :=
      fun component member => short component (List.mem_append_left _ member)
    have fineAbove := checkPath_parent fine
    rw [Path.parent_child] at fineAbove above apart ⊢
    have startAbove : tree.isFolderAt? (tree.start parent) = some true := start
    obtain ⟨made, makes⟩ := exists_makeFolders_iff.2 ⟨startAbove, fineAbove, shortAbove, above⟩
    obtain ⟨changes, opens⟩ := changes_of_makeFolders makes
    have shortName := short name (List.mem_append_right _ (List.mem_singleton_self name))
    have stillFree : made.isFolderAt? (made.aim (parent.child name)) ≠ some true := by
      rw [changes.aim_eq]
      intro isFolder
      exact (changes.isFolderAt?_of_folder isFolder).elim free apart
    rw [← changes.aim_eq] at opens
    obtain ⟨after, writes⟩ := exists_write_iff.2 ⟨fine, shortName, forward, opens, stillFree⟩
    exact ⟨after, made, bytes, makes, encoded, writes⟩

end RosInterface.FileTree
