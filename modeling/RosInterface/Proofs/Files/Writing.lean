/-
# RosInterface.Proofs.Files.Writing -- what making folders and writing files needs

Making the folders of a path adds to a tree (`FileTree.of_makeFolders`) and adds no more than
it has to: where a larger tree has the folders of the path, they can be made in the smaller one
without leaving the larger one (`FileTree.exists_makeFolders`).  The same holds of writing a
file (`FileTree.of_write`, `FileTree.exists_write`).  So whatever can be written into a tree
can be written into one with less in it, if only the path starts in a folder there.
-/
import RosInterface.Proofs.Files.Place

set_option autoImplicit false

namespace RosInterface

/-! ## Longer paths -/

theorem Text.joined_prefix {separator : Text} {pieces more : List Text} (begins : pieces <+: more) :
    joined separator pieces <+: joined separator more := by
  obtain ⟨rest, rfl⟩ := begins
  induction pieces with
  | nil => exact List.nil_prefix
  | cons piece others ih =>
      cases others with
      | nil =>
          cases rest with
          | nil => exact List.prefix_rfl
          | cons next rest =>
              rw [joined, joined, List.intercalate_singleton, List.singleton_append,
                List.intercalate_cons_cons, List.append_assoc]
              exact List.prefix_append _ _
      | cons next others =>
          rw [joined, joined, List.cons_append, List.cons_append, List.intercalate_cons_cons,
            List.intercalate_cons_cons]
          exact (List.prefix_append_right_inj _).2 ih

/-- The path of the first components. -/
def Path.upTo (path : Path) (count : Nat) : Path := ⟨path.anchor, path.components.take count⟩

theorem Path.upTo_length (path : Path) : path.upTo path.components.length = path := by
  rw [upTo, List.take_length]

theorem Path.upTo_succ {path : Path} {count : Nat} (below : count < path.components.length) :
    path.upTo (count + 1) = (path.upTo count).child path.components[count] := by
  rw [upTo, child, List.take_succ_eq_append_getElem below]
  rfl

namespace FileTree

theorem byteLength_le {s t : Text} (begins : s <+: t) : byteLength s ≤ byteLength t := by
  obtain ⟨rest, rfl⟩ := begins
  rw [byteLength, byteLength, List.flatMap_append, List.length_append]
  omega

/-- Names that the file system is asked about are made of code points that have bytes, and not
the zero byte. -/
theorem nameFault?_eq_none_iff {name : Text} :
    nameFault? name = none ↔ ∀ c ∈ name, (Utf8.nameBytes? c).isSome = true ∧ c.val ≠ 0 := by
  rw [nameFault?]
  split
  case isTrue noBytes =>
    obtain ⟨c, member, none_⟩ := List.any_eq_true.1 noBytes
    simp only [reduceCtorEq, false_iff]
    intro each
    exact absurd (each c member).1 (by simpa using none_)
  case isFalse bytes =>
    split
    case isTrue zero =>
      obtain ⟨c, member, isZero⟩ := List.any_eq_true.1 zero
      simp only [reduceCtorEq, false_iff]
      intro each
      exact (each c member).2 (by simpa using isZero)
    case isFalse noZero =>
      simp only [List.any_eq_true, not_exists, not_and, Option.isNone_iff_eq_none] at bytes noZero
      simp only [true_iff]
      intro c member
      exact ⟨Option.isSome_iff_ne_none.2 (bytes c member), by simpa using noZero c member⟩

theorem checkPath_eq_ok_iff {path : Path} :
    checkPath path = .ok () ↔
      nameFault? path.components.flatten = none ∧ byteLength path.text ≤ maximalPath := by
  rw [checkPath]
  cases nameFault? path.components.flatten with
  | some fault => simp
  | none =>
      by_cases long : maximalPath < byteLength path.text
      · simp [long]
      · simp [long, Nat.le_of_not_lt long]

/-- Where a path can be asked about, so can its beginnings. -/
theorem checkPath_upTo {path : Path} (fine : checkPath path = .ok ()) (count : Nat) :
    checkPath (path.upTo count) = .ok () := by
  obtain ⟨named, short⟩ := checkPath_eq_ok_iff.1 fine
  refine checkPath_eq_ok_iff.2 ⟨?_, ?_⟩
  · rw [nameFault?_eq_none_iff] at named ⊢
    intro c member
    obtain ⟨piece, inPieces, inside⟩ := List.mem_flatten.1 member
    exact named c (List.mem_flatten.2 ⟨piece, List.mem_of_mem_take inPieces, inside⟩)
  · by_cases isHere : path.upTo count = Path.here
    · rw [isHere]
      decide
    · have notHere : path ≠ Path.here := by
        rintro rfl
        exact isHere (by simp [Path.upTo, Path.here])
      have begins : (path.upTo count).text <+: path.text := by
        rw [Path.text, Path.text, if_neg isHere, if_neg notHere]
        exact (List.prefix_append_right_inj _).2 (Text.joined_prefix (List.take_prefix _ _))
      exact Nat.le_trans (byteLength_le begins) short

theorem checkPath_parent {path : Path} (fine : checkPath path = .ok ()) :
    checkPath path.parent = .ok () := by
  rw [Path.parent, List.dropLast_eq_take]
  exact checkPath_upTo fine _

variable {tree small large after : FileTree} {path : Path} {name : Text}
  {place : List Text} {bytes : List UInt8}

/-! ## Setting a place -/

/-- The tree with a node set at a place. -/
def setAt (tree : FileTree) (value : Node) (place : List Text) : FileTree :=
  { tree with root := tree.root.set value place }

/-- A node can be set as an entry of a folder: it has nothing below it and does not take the
place of a folder. -/
structure Settable (tree : FileTree) (value : Node) (folder : List Text) (name : Text) :
    Prop where
  leaf : value.entries = []
  above : tree.isFolderAt? folder = some true
  free : tree.isFolderAt? (folder ++ [name]) ≠ some true

section Settable

variable {value : Node} {folder : List Text}

theorem Settable.isFolderAt? (settable : tree.Settable value folder name) (other : List Text) :
    (tree.setAt value (folder ++ [name])).isFolderAt? other =
      if other = folder ++ [name] then some value.isFolder else tree.isFolderAt? other :=
  Node.isFolder?_set settable.leaf settable.above settable.free other

/-- Nothing is lost where there was nothing, or a file that stays one. -/
theorem Settable.within (settable : tree.Settable value folder name)
    (same : ∀ kind, tree.isFolderAt? (folder ++ [name]) = some kind → kind = value.isFolder) :
    tree.Within (tree.setAt value (folder ++ [name])) := by
  refine ⟨rfl, fun other kind at_ => ?_⟩
  rw [settable.isFolderAt?]
  split
  case isTrue here => rw [same kind (here ▸ at_)]
  case isFalse => exact at_

theorem Settable.within_of (settable : small.Settable value folder name)
    (within : small.Within large)
    (same : large.isFolderAt? (folder ++ [name]) = some value.isFolder) :
    (small.setAt value (folder ++ [name])).Within large := by
  refine ⟨within.workingFolder, fun other kind at_ => ?_⟩
  rw [settable.isFolderAt?] at at_
  split at at_
  case isTrue here => rw [here, same, at_]
  case isFalse => exact within.kept other kind at_

end Settable

/-! ## Making one folder -/

/-- The place of an entry, as it depends on folders and files alone. -/
theorem target_child : tree.target (path.child name) name = (do
    checkPath (path.child name)
    let folder ← tree.walk path
    match tree.isFolderAt? folder with
    | some true =>
        if maximalName < byteLength name then .error .nameTooLong else .ok (folder ++ [name])
    | some false => .error .notFolder
    | none => .error .missing) := by
  have above : (path.child name).components.dropLast = path.components := List.dropLast_concat
  have start : tree.start (path.child name) = tree.start path := rfl
  rw [target, above, start]
  refine bind_congr fun _ => bind_congr fun folder => ?_
  rw [isFolderAt?, Node.isFolder?]
  cases tree.root.get? folder with
  | none => rfl
  | some node => cases node <;> rfl

theorem target_child_eq_ok_iff :
    tree.target (path.child name) name = .ok place ↔
      checkPath (path.child name) = .ok () ∧ byteLength name ≤ maximalName ∧
        ∃ folder, tree.Opens path folder ∧ place = folder ++ [name] := by
  rw [target_child, Outcome.bind_eq_ok_iff]
  constructor
  · intro ⟨_, fine, rest⟩
    obtain ⟨folder, walked, rest⟩ := Outcome.bind_eq_ok_iff.1 rest
    split at rest
    case h_1 isFolder =>
      split at rest
      case isTrue => cases rest
      case isFalse short =>
        cases rest
        exact ⟨fine, Nat.le_of_not_lt short, folder, ⟨walked, isFolder⟩, rfl⟩
    case h_2 => cases rest
    case h_3 => cases rest
  · intro ⟨fine, short, folder, ⟨walked, isFolder⟩, same⟩
    refine ⟨(), fine, Outcome.bind_eq_ok_iff.2 ⟨folder, walked, ?_⟩⟩
    rw [isFolder, same]
    exact if_neg (Nat.not_lt_of_le short)

theorem target_child_missing (fine : checkPath (path.child name) = .ok ())
    (missing : tree.walk path = .error .missing) :
    tree.target (path.child name) name = .error .missing := by
  rw [target_child, fine, missing]
  rfl

theorem makeFolder_child : tree.makeFolder (path.child name) = (do
    let place ← tree.target (path.child name) name
    if name = ".." ∨ (tree.isFolderAt? place).isSome then .error .exists
    else .ok (tree.setAt .empty place)) := by
  have last : (path.child name).components.getLast? = some name := List.getLast?_concat
  rw [makeFolder, last]
  simp only [isFolderAt?, Node.isFolder?, Option.isSome_map]
  rfl

theorem makeFolder_eq_ok_iff :
    tree.makeFolder (path.child name) = .ok after ↔
      checkPath (path.child name) = .ok () ∧ byteLength name ≤ maximalName ∧ name ≠ ".." ∧
        ∃ folder, tree.Opens path folder ∧ tree.isFolderAt? (folder ++ [name]) = none ∧
          after = tree.setAt .empty (folder ++ [name]) := by
  rw [makeFolder_child, Outcome.bind_eq_ok_iff]
  constructor
  · intro ⟨place, aimed, rest⟩
    obtain ⟨fine, short, folder, opens, rfl⟩ := target_child_eq_ok_iff.1 aimed
    split at rest
    case isTrue => cases rest
    case isFalse free =>
      cases rest
      rw [not_or, Option.not_isSome_iff_eq_none] at free
      exact ⟨fine, short, free.1, folder, opens, free.2, rfl⟩
  · intro ⟨fine, short, forward, folder, opens, absent, same⟩
    refine ⟨_, target_child_eq_ok_iff.2 ⟨fine, short, folder, opens, rfl⟩, ?_⟩
    rw [same, if_neg]
    rw [not_or, Option.not_isSome_iff_eq_none]
    exact ⟨forward, absent⟩

/-- A folder that is there cannot be made. -/
theorem makeFolder_of_isFolder (isFolder : tree.isFolder path = true) :
    tree.makeFolder path = .error .exists := by
  rcases path.eq_nil_or_child with empty | ⟨parent, name, rfl⟩
  · rw [makeFolder, empty]
    rfl
  · obtain ⟨fine, place, opens⟩ := isFolder_iff.1 isFolder
    obtain ⟨folder, above, stepped⟩ := opens.of_child
    have short : byteLength name ≤ maximalName := by
      by_cases back : name = ".."
      · rw [back]
        decide
      · exact ((step_eq_ok_iff back).1 stepped).2.1
    have taken : name = ".." ∨ (tree.isFolderAt? (folder ++ [name])).isSome := by
      by_cases back : name = ".."
      · exact .inl back
      · exact .inr ((step_eq_ok_iff back).1 stepped).2.2.1
    rw [makeFolder_child, target_child_eq_ok_iff.2 ⟨fine, short, folder, above, rfl⟩]
    exact if_pos taken

/-- A folder that was made is there, and nothing else is new. -/
theorem of_makeFolder (made : tree.makeFolder path = .ok after) :
    tree.isFolderAt? (tree.start path) = some true ∧ tree.Within after ∧
      after.isFolder path = true := by
  rcases path.eq_nil_or_child with empty | ⟨parent, name, rfl⟩
  · rw [makeFolder, empty] at made
    cases made
  · obtain ⟨fine, short, forward, folder, above, absent, rfl⟩ := makeFolder_eq_ok_iff.1 made
    have settable : tree.Settable .empty folder name := ⟨rfl, above.2, by rw [absent]; simp⟩
    have within : tree.Within (tree.setAt .empty (folder ++ [name])) :=
      settable.within fun kind at_ => by rw [absent] at at_; cases at_
    have here : (tree.setAt .empty (folder ++ [name])).isFolderAt? (folder ++ [name]) =
        some true := by
      rw [settable.isFolderAt?, if_pos rfl]
      rfl
    have stillAbove := within.opens above
    have stepped := (step_eq_ok_iff forward).2
      ⟨stillAbove.2, short, Option.isSome_iff_exists.2 ⟨true, here⟩, rfl⟩
    exact ⟨above.start, within, isFolder_iff.2 ⟨fine, _, stillAbove.child stepped here⟩⟩

/-! ## Making folders -/

theorem of_tolerate (made : tolerate tree path (tree.makeFolder path) = .ok after) :
    tree.isFolderAt? (tree.start path) = some true ∧ tree.Within after ∧
      after.isFolder path = true := by
  unfold tolerate at made
  split at made
  case h_1 result =>
    cases made
    exact of_makeFolder result
  case h_2 => cases made
  case h_3 =>
    split at made
    case isTrue isFolder =>
      cases made
      obtain ⟨-, _, opens⟩ := isFolder_iff.1 isFolder
      exact ⟨opens.start, .refl _, isFolder⟩
    case isFalse => cases made

/-- Folders that were made are there, and nothing that was there is lost. -/
theorem of_makeFoldersTo {count : Nat} (made : tree.makeFoldersTo path count = .ok after) :
    tree.isFolderAt? (tree.start path) = some true ∧ tree.Within after ∧
      after.isFolder (path.upTo count) = true := by
  induction count generalizing after with
  | zero => exact of_tolerate made
  | succ count ih =>
      rw [makeFoldersTo] at made
      split at made
      case h_1 =>
        obtain ⟨above, madeAbove, rest⟩ := Outcome.bind_eq_ok_iff.1 made
        obtain ⟨start, within, -⟩ := ih madeAbove
        obtain ⟨-, further, isFolder⟩ := of_tolerate rest
        exact ⟨start, within.trans further, isFolder⟩
      case h_2 => exact of_tolerate made

/-- A folder can be made where the one above it is there, and it need not be made otherwise
than in a larger tree that has it. -/
theorem exists_tolerate (within : small.Within large) (inLarge : large.isFolder (path.child name))
    (above : small.isFolder path = true) :
    small.makeFolder (path.child name) ≠ .error .missing ∧
      ∃ after, tolerate small (path.child name) (small.makeFolder (path.child name)) = .ok after ∧
        after.Within large := by
  by_cases already : small.isFolder (path.child name) = true
  · rw [makeFolder_of_isFolder already]
    exact ⟨by simp, small, if_pos already, within⟩
  · obtain ⟨fine, place, opened⟩ := isFolder_iff.1 inLarge
    obtain ⟨-, folder, opens⟩ := isFolder_iff.1 above
    obtain ⟨forward, rfl, short, absent⟩ := within.step_missing opens opened
      fun p alsoOpens => already (isFolder_iff.2 ⟨fine, p, alsoOpens⟩)
    have made := makeFolder_eq_ok_iff.2 ⟨fine, short, forward, folder, opens, absent, rfl⟩
    have settable : small.Settable .empty folder name := ⟨rfl, opens.2, by rw [absent]; simp⟩
    rw [made]
    exact ⟨by simp, _, rfl, settable.within_of within opened.2⟩

section Beginnings

variable {count : Nat} (within : small.Within large)
  (start : small.isFolderAt? (small.start path) = some true) (fine : checkPath path = .ok ())
include within start

/-- Where a folder is missing, so is everything below it. -/
theorem walk_missing (below : count ≤ path.components.length) {place : List Text}
    (inLarge : large.Opens (path.upTo count) place)
    (closed : ∀ p, ¬ small.Opens (path.upTo count) p) :
    small.walk (path.upTo count) = .error .missing := by
  induction count generalizing place with
  | zero =>
      have here : small.Opens (path.upTo 0) (small.start path) := ⟨rfl, start⟩
      exact absurd here (closed _)
  | succ count ih =>
      rw [Path.upTo_succ below] at inLarge closed ⊢
      rw [walk_child]
      by_cases above : ∃ folder, small.Opens (path.upTo count) folder
      · obtain ⟨folder, opens⟩ := above
        obtain ⟨forward, rfl, short, absent⟩ := within.step_missing opens inLarge closed
        rw [opens.1]
        exact step_missing opens.2 forward short absent
      · obtain ⟨folder, opens, -⟩ := inLarge.of_child
        rw [ih (Nat.le_of_succ_le below) opens fun p alsoOpens => above ⟨p, alsoOpens⟩]
        rfl

include fine

/-- The folders of a path can be made where a larger tree has them, and stay within it. -/
theorem exists_makeFoldersTo (below : count ≤ path.components.length) {place : List Text}
    (inLarge : large.Opens (path.upTo count) place) :
    ∃ after, small.makeFoldersTo path count = .ok after ∧ after.Within large := by
  have toFolder {tree : FileTree} {n : Nat} {p : List Text} (opens : tree.Opens (path.upTo n) p) :
      tree.isFolder (path.upTo n) = true := isFolder_iff.2 ⟨checkPath_upTo fine n, p, opens⟩
  induction count generalizing place with
  | zero =>
      have here : small.isFolder (path.upTo 0) = true := toFolder ⟨rfl, start⟩
      exact ⟨small, by rw [makeFoldersTo]; exact if_pos here, within⟩
  | succ count ih =>
      have same : path.upTo (count + 1) = ⟨path.anchor, path.components.take (count + 1)⟩ := rfl
      rw [makeFoldersTo, ← same]
      rw [Path.upTo_succ below] at inLarge ⊢
      obtain ⟨folder, opensLarge, -⟩ := inLarge.of_child
      have isFolder := isFolder_iff.2 ⟨Path.upTo_succ below ▸ checkPath_upTo fine _, _, inLarge⟩
      by_cases above : ∃ folder, small.Opens (path.upTo count) folder
      · obtain ⟨_, opens⟩ := above
        obtain ⟨notMissing, made⟩ := exists_tolerate within isFolder (toFolder opens)
        split
        case h_1 missing => exact absurd missing notMissing
        case h_2 => exact made
      · have missing := walk_missing within start (Nat.le_of_succ_le below) opensLarge
          fun p opens => above ⟨p, opens⟩
        have absent : small.makeFolder ((path.upTo count).child path.components[count]) =
            .error .missing := by
          rw [makeFolder_child, target_child_missing (isFolder_iff.1 isFolder).1 missing]
          rfl
        obtain ⟨middle, made, stays⟩ := ih (Nat.le_of_succ_le below) opensLarge
        obtain ⟨-, -, nowFolder⟩ := of_makeFoldersTo made
        obtain ⟨-, after, last, further⟩ := exists_tolerate stays isFolder nowFolder
        rw [absent]
        exact ⟨after, Outcome.bind_eq_ok_iff.2 ⟨middle, made, last⟩, further⟩

end Beginnings

theorem of_makeFolders (made : tree.makeFolders path = .ok after) :
    tree.isFolderAt? (tree.start path) = some true ∧ tree.Within after ∧
      after.isFolder path = true := by
  have spec := of_makeFoldersTo made
  rwa [path.upTo_length] at spec

theorem exists_makeFolders (within : small.Within large)
    (start : small.isFolderAt? (small.start path) = some true)
    (inLarge : large.isFolder path = true) :
    ∃ after, small.makeFolders path = .ok after ∧ after.Within large := by
  obtain ⟨fine, place, opens⟩ := isFolder_iff.1 inLarge
  rw [← path.upTo_length] at opens
  exact exists_makeFoldersTo within start fine (Nat.le_refl _) opens

/-! ## Writing a file -/

theorem isFolderAt?_ne_iff :
    tree.isFolderAt? place ≠ some true ↔
      ∀ entries, tree.root.get? place ≠ some (.folder entries) := by
  rw [isFolderAt?, Node.isFolder?]
  cases tree.root.get? place with
  | none => simp
  | some node => cases node <;> simp [Node.isFolder]

theorem write_eq_ok_iff :
    tree.write (path.child name) bytes = .ok after ↔
      checkPath (path.child name) = .ok () ∧ byteLength name ≤ maximalName ∧ name ≠ ".." ∧
        ∃ folder, tree.Opens path folder ∧ tree.isFolderAt? (folder ++ [name]) ≠ some true ∧
          after = tree.setAt (.file bytes) (folder ++ [name]) := by
  have last : (path.child name).components.getLast? = some name := List.getLast?_concat
  rw [write, last]
  simp only
  rw [Outcome.bind_eq_ok_iff]
  constructor
  · intro ⟨place, aimed, rest⟩
    obtain ⟨fine, short, folder, opens, rfl⟩ := target_child_eq_ok_iff.1 aimed
    by_cases back : name = ".."
    · rw [if_pos back] at rest
      cases rest
    · rw [if_neg back] at rest
      split at rest
      case h_1 => cases rest
      case h_2 free =>
        cases rest
        exact ⟨fine, short, back, folder, opens, isFolderAt?_ne_iff.2 free, rfl⟩
  · intro ⟨fine, short, forward, folder, opens, free, same⟩
    refine ⟨_, target_child_eq_ok_iff.2 ⟨fine, short, folder, opens, rfl⟩, ?_⟩
    rw [if_neg forward, same]
    split
    case h_1 entries at_ => exact absurd at_ (isFolderAt?_ne_iff.1 free entries)
    case h_2 => rfl

theorem of_write (written : tree.write path bytes = .ok after) : tree.Within after := by
  rcases path.eq_nil_or_child with empty | ⟨parent, name, rfl⟩
  · rw [write, empty] at written
    cases written
  · obtain ⟨-, -, -, folder, opens, free, rfl⟩ := write_eq_ok_iff.1 written
    refine Settable.within ⟨rfl, opens.2, free⟩ fun kind at_ => ?_
    cases kind with
    | false => rfl
    | true => exact absurd at_ free

theorem writeText_eq_ok_iff {text : Text} :
    tree.writeText path text = .ok after ↔
      ∃ bytes, Utf8.encode? text = some bytes ∧ tree.write path bytes = .ok after := by
  rw [writeText]
  cases Utf8.encode? text with
  | some bytes => simp
  | none =>
      constructor
      · intro ended
        obtain ⟨_, -, fails⟩ := Outcome.bind_eq_ok_iff.1 ended
        cases fails
      · rintro ⟨_, encoded, -⟩
        cases encoded

/-- A file can be written where it can be written into a larger tree and its folder is there. -/
theorem exists_write (within : small.Within large) (above : small.isFolder path.parent = true)
    (written : large.write path bytes = .ok after) :
    ∃ result, small.write path bytes = .ok result ∧ result.Within after := by
  rcases path.eq_nil_or_child with empty | ⟨parent, name, rfl⟩
  · rw [write, empty] at written
    cases written
  · rw [Path.parent_child] at above
    obtain ⟨fine, short, forward, folder, opensLarge, free, rfl⟩ := write_eq_ok_iff.1 written
    obtain ⟨-, other, opens⟩ := isFolder_iff.1 above
    have same := (within.opens opens).eq opensLarge
    subst same
    have freeSmall : small.isFolderAt? (other ++ [name]) ≠ some true :=
      fun at_ => free (within.kept _ true at_)
    have inSmall : small.Settable (.file bytes) other name := ⟨rfl, opens.2, freeSmall⟩
    have inLarge : large.Settable (.file bytes) other name := ⟨rfl, opensLarge.2, free⟩
    refine ⟨_, write_eq_ok_iff.2 ⟨fine, short, forward, other, opens, freeSmall, rfl⟩,
      within.workingFolder, fun place kind at_ => ?_⟩
    rw [inSmall.isFolderAt?] at at_
    rw [inLarge.isFolderAt?]
    split at at_
    case isTrue here => rw [if_pos here, at_]
    case isFalse there => rw [if_neg there, within.kept place kind at_]

end FileTree

end RosInterface
