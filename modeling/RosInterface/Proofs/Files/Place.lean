/-
# RosInterface.Proofs.Files.Place -- where paths lead

What the file system says of a path depends on very little of a tree: on which places there
are, and on which of them are folders.  `FileTree.isFolderAt?` is that part, and steps, walks
and folders are said with it.  One tree is *within* another one when it has no place that the
other one lacks or has otherwise (`FileTree.Within`); then every walk that ends in the smaller
tree ends at the same place in the larger one.

A folder of the larger tree can be missing from the smaller one.  Where the folder above it is
there, it is its own entry that is missing, and nothing else is wrong with the path
(`FileTree.Within.step_missing`).
-/
import RosInterface.Files.Tree
import RosInterface.Proofs.Outcome

set_option autoImplicit false

namespace RosInterface

/-! ## Places in a node -/

namespace Node

variable {node value : Node} {name : Text} {place more : List Text}

/-- What is at the end of a walk, whatever it holds: a folder, a file, or nothing. -/
def isFolder? (node : Node) (place : List Text) : Option Bool :=
  (node.get? place).map isFolder

/-- What a file holds; a folder holds nothing itself. -/
def content : Node → Option (List UInt8)
  | .file bytes => some bytes
  | .folder _ => none

/-- What is at the end of a walk, with what it holds: a folder, a file with its bytes, or
nothing. -/
def content? (node : Node) (place : List Text) : Option (Option (List UInt8)) :=
  (node.get? place).map content

theorem isNone_content (node : Node) : node.content.isNone = node.isFolder := by
  cases node <;> rfl

theorem isFolder?_eq : node.isFolder? place = (node.content? place).map Option.isNone := by
  rw [isFolder?, content?, Option.map_map]
  congr 1
  funext found
  exact (isNone_content found).symm

theorem get?_cons : node.get? (name :: more) = (node.child? name).bind (·.get? more) := by
  rw [get?]
  cases node.child? name <;> rfl

theorem get?_append : node.get? (place ++ more) = (node.get? place).bind (·.get? more) := by
  induction place generalizing node with
  | nil => rfl
  | cons name rest ih =>
      rw [List.cons_append, get?_cons, get?_cons]
      cases node.child? name with
      | none => rfl
      | some below => exact ih

@[simp] theorem isFolder?_nil : node.isFolder? [] = some node.isFolder := rfl

theorem isFolder?_cons :
    node.isFolder? (name :: more) = (node.child? name).bind (·.isFolder? more) := by
  rw [isFolder?, get?_cons]
  cases node.child? name <;> rfl

@[simp] theorem content?_nil : node.content? [] = some node.content := rfl

theorem content?_cons :
    node.content? (name :: more) = (node.child? name).bind (·.content? more) := by
  rw [content?, get?_cons]
  cases node.child? name <;> rfl

theorem isFolder_of_child? (below : (node.child? name).isSome) : node.isFolder = true := by
  cases node with
  | file bytes => cases below
  | folder entries => rfl

/-- What is below a place makes it a folder. -/
theorem isFolder?_of_append (below : (node.isFolder? (place ++ [name])).isSome) :
    node.isFolder? place = some true := by
  rw [isFolder?, get?_append] at below
  rw [isFolder?]
  cases at_ : node.get? place with
  | none =>
      rw [at_] at below
      cases below
  | some found =>
      rw [at_] at below
      have inside : (found.child? name).isSome := by
        rw [Option.bind_some, get?_cons] at below
        cases child : found.child? name with
        | none =>
            rw [child] at below
            cases below
        | some _ => rfl
      rw [Option.map_some, isFolder_of_child? inside]

theorem lookup_cons_eq {entries : List (Text × Node)} {other : Text} :
    ((name, value) :: entries).lookup other =
      if other = name then some value else entries.lookup other := by
  rw [List.lookup_cons]
  by_cases same : other = name
  · rw [if_pos same, beq_iff_eq.2 same]
  · rw [if_neg same, beq_false_of_ne same]

theorem lookup_setEntry {entries : List (Text × Node)} {other : Text} :
    (setEntry name value entries).lookup other =
      if other = name then some value else entries.lookup other := by
  induction entries with
  | nil => exact lookup_cons_eq
  | cons entry rest ih =>
      obtain ⟨first, old⟩ := entry
      rw [setEntry]
      by_cases isFirst : first = name
      · rw [if_pos isFirst, lookup_cons_eq, lookup_cons_eq, isFirst]
        by_cases same : other = name
        · rw [if_pos same, if_pos same]
        · rw [if_neg same, if_neg same, if_neg same]
      · rw [if_neg isFirst, lookup_cons_eq, lookup_cons_eq, ih]
        by_cases same : other = first
        · rw [if_pos same, if_neg (same ▸ isFirst), if_pos same]
        · rw [if_neg same, if_neg same]

theorem child?_folder_setEntry {other : Text} :
    (folder (setEntry name value node.entries)).child? other =
      if other = name then some value else node.child? other := lookup_setEntry

/-- A node without entries has nothing below it. -/
theorem content?_of_leaf (leaf : value.entries = []) :
    value.content? place = if place = [] then some value.content else none := by
  cases place with
  | nil => rfl
  | cons name rest =>
      rw [content?_cons, child?, leaf]
      rfl

theorem entries_of_isFolder_false (file : value.isFolder = false) : value.entries = [] := by
  cases value with
  | file bytes => rfl
  | folder entries => cases file

theorem content_of_isFolder (isFolder_ : node.isFolder = true) : node.content = none := by
  cases node with
  | file bytes => cases isFolder_
  | folder entries => rfl

/-- Setting an entry that is not a folder changes what that entry is. -/
theorem content?_setEntry (leaf : value.entries = []) (isFolder_ : node.isFolder = true)
    (free : node.isFolder? [name] ≠ some true) (other : List Text) :
    (folder (setEntry name value node.entries)).content? other =
      if other = [name] then some value.content else node.content? other := by
  cases other with
  | nil =>
      rw [if_neg (by simp), content?_nil, content?_nil, content_of_isFolder isFolder_]
      rfl
  | cons first rest =>
      rw [content?_cons, content?_cons, child?_folder_setEntry]
      by_cases same : first = name
      · -- nothing was below the entry, and nothing is below the new one
        have below : (node.child? name).bind (·.content? rest) =
            if rest = [] then (node.child? name).map content else none := by
          cases child : node.child? name with
          | none => simp
          | some old =>
              have isFile : old.isFolder = false := by
                rw [isFolder?_cons, child] at free
                simpa using free
              exact content?_of_leaf (entries_of_isFolder_false isFile)
        rw [if_pos same, same, below, Option.bind_some, content?_of_leaf leaf]
        by_cases last : rest = [] <;> simp [last]
      · rw [if_neg same, if_neg (by simp [same])]

theorem set_cons {below : Node} (child : node.child? name = some below) :
    node.set value (name :: place) =
      folder (setEntry name (below.set value place) node.entries) := by
  cases place with
  | nil => rfl
  | cons first rest =>
      rw [set, child]
      simp

theorem setEntry_setEntry {entries : List (Text × Node)} {more : Node} :
    setEntry name more (setEntry name value entries) = setEntry name more entries := by
  induction entries with
  | nil => simp [setEntry]
  | cons entry rest ih =>
      obtain ⟨first, old⟩ := entry
      by_cases isFirst : first = name
      · simp [setEntry, isFirst]
      · simp [setEntry, isFirst, ih]

/-- Of two nodes that are set at one place, the second one stays. -/
theorem set_set {again : Node} : (node.set value place).set again place = node.set again place := by
  induction place generalizing node with
  | nil => rfl
  | cons name rest ih =>
      cases child : node.child? name with
      | some below =>
          have inside : (folder (setEntry name (below.set value rest) node.entries)).child? name =
              some (below.set value rest) := by
            rw [child?_folder_setEntry, if_pos rfl]
          rw [set_cons child, set_cons child, set_cons inside, ih]
          exact congrArg folder setEntry_setEntry
      | none =>
          cases rest with
          | nil => exact congrArg folder setEntry_setEntry
          | cons first more =>
              have nothing (value : Node) : node.set value (name :: first :: more) = node := by
                rw [set, child]
                simp
              rw [nothing, nothing]

/-- Setting a place in a folder, where there is no folder yet, changes what is at that place
and nothing else. -/
theorem content?_set (leaf : value.entries = []) (inFolder : node.isFolder? place = some true)
    (free : node.isFolder? (place ++ [name]) ≠ some true) (other : List Text) :
    (node.set value (place ++ [name])).content? other =
      if other = place ++ [name] then some value.content else node.content? other := by
  induction place generalizing node other with
  | nil =>
      have isFolder_ : node.isFolder = true := by simpa using inFolder
      exact content?_setEntry leaf isFolder_ free other
  | cons first place ih =>
      obtain ⟨below, child⟩ : ∃ below, node.child? first = some below := by
        rw [isFolder?_cons] at inFolder
        cases child : node.child? first with
        | none =>
            rw [child] at inFolder
            cases inFolder
        | some below => exact ⟨below, rfl⟩
      rw [isFolder?_cons, child, Option.bind_some] at inFolder
      rw [List.cons_append, isFolder?_cons, child, Option.bind_some] at free
      rw [List.cons_append, set_cons child]
      cases other with
      | nil =>
          have isFolder_ := isFolder_of_child? (Option.isSome_iff_exists.2 ⟨below, child⟩)
          rw [if_neg (by simp), content?_nil, content?_nil, content_of_isFolder isFolder_]
          rfl
      | cons next rest =>
          rw [content?_cons, content?_cons, child?_folder_setEntry]
          by_cases same : next = first
          · rw [if_pos same, same, child, Option.bind_some, Option.bind_some, ih inFolder free]
            simp
          · rw [if_neg same, if_neg (by simp [same])]

/-- The same, of folders and files alone. -/
theorem isFolder?_set (leaf : value.entries = []) (inFolder : node.isFolder? place = some true)
    (free : node.isFolder? (place ++ [name]) ≠ some true) (other : List Text) :
    (node.set value (place ++ [name])).isFolder? other =
      if other = place ++ [name] then some value.isFolder else node.isFolder? other := by
  rw [isFolder?_eq, isFolder?_eq, content?_set leaf inFolder free]
  split
  case isTrue => rw [Option.map_some, isNone_content]
  case isFalse => rfl

end Node

/-! ## Steps and walks -/

/-- The path of an entry of a folder. -/
def Path.child (path : Path) (name : Text) : Path := ⟨path.anchor, path.components ++ [name]⟩

/-- A path has no components, or it is the path of an entry. -/
theorem Path.eq_nil_or_child (path : Path) :
    path.components = [] ∨ ∃ folder name, path = child folder name := by
  obtain ⟨anchor, components⟩ := path
  rcases List.eq_nil_or_concat' components with empty | ⟨before, last, rfl⟩
  · exact .inl empty
  · exact .inr ⟨⟨anchor, before⟩, last, rfl⟩

theorem Path.parent_child (path : Path) (name : Text) : (path.child name).parent = path := by
  rw [parent, child, List.dropLast_concat]

namespace FileTree

/-- What is at a place of a tree: a folder, a file, or nothing. -/
def isFolderAt? (tree : FileTree) (place : List Text) : Option Bool := tree.root.isFolder? place

/-- The walk of a path, wherever it starts. -/
def walk (tree : FileTree) (path : Path) : Except FileFault (List Text) :=
  path.components.foldlM tree.step (tree.start path)

/-- The path leads to a folder at this place. -/
def Opens (tree : FileTree) (path : Path) (place : List Text) : Prop :=
  tree.walk path = .ok place ∧ tree.isFolderAt? place = some true

variable {tree small large : FileTree} {path : Path} {name : Text} {place next : List Text}

/-- A step, as it depends on folders and files alone. -/
theorem step_eq : tree.step place name =
    match tree.isFolderAt? place with
    | none => .error .missing
    | some false => .error .notFolder
    | some true =>
        if name = ".." then .ok place.dropLast
        else if maximalName < byteLength name then .error .nameTooLong
        else if (tree.isFolderAt? (place ++ [name])).isSome then .ok (place ++ [name])
        else .error .missing := by
  unfold step isFolderAt? Node.isFolder?
  cases at_ : tree.root.get? place with
  | none => rfl
  | some node =>
      cases node with
      | file bytes => rfl
      | folder entries =>
          have entry : ((tree.root.get? (place ++ [name])).map Node.isFolder).isSome =
              (entries.lookup name).isSome := by
            rw [Node.get?_append, at_, Option.isSome_map, Option.bind_some, Node.get?_cons]
            change ((entries.lookup name).bind some).isSome = _
            cases entries.lookup name <;> rfl
          rw [entry]
          rfl

theorem isFolderAt?_of_step (stepped : tree.step place name = .ok next) :
    tree.isFolderAt? place = some true := by
  rw [step_eq] at stepped
  split at stepped
  case h_1 => cases stepped
  case h_2 => cases stepped
  case h_3 folder => exact folder

theorem step_back (folder : tree.isFolderAt? place = some true) :
    tree.step place ".." = .ok place.dropLast := by
  rw [step_eq, folder]
  exact if_pos rfl

/-- A step forward is made to an entry that exists and whose name is short enough. -/
theorem step_eq_ok_iff (forward : name ≠ "..") :
    tree.step place name = .ok next ↔ tree.isFolderAt? place = some true ∧
      byteLength name ≤ maximalName ∧ (tree.isFolderAt? (place ++ [name])).isSome ∧
        next = place ++ [name] := by
  rw [step_eq]
  split
  case h_1 absent => simp [absent]
  case h_2 file => simp [file]
  case h_3 folder =>
    rw [if_neg forward]
    by_cases long : maximalName < byteLength name
    · rw [if_pos long]
      simp [Nat.not_le_of_lt long]
    · rw [if_neg long]
      split
      case isTrue present => simp [folder, Nat.le_of_not_lt long, present, eq_comm]
      case isFalse absent => simp [absent]

theorem step_missing (folder : tree.isFolderAt? place = some true) (forward : name ≠ "..")
    (short : byteLength name ≤ maximalName) (absent : tree.isFolderAt? (place ++ [name]) = none) :
    tree.step place name = .error .missing := by
  rw [step_eq, folder]
  simp only [if_neg forward, if_neg (Nat.not_lt_of_le short), absent]
  rfl

theorem isFolderAt?_dropLast (folder : tree.isFolderAt? place = some true) :
    tree.isFolderAt? place.dropLast = some true := by
  rcases List.eq_nil_or_concat' place with rfl | ⟨before, last, rfl⟩
  · exact folder
  · rw [List.dropLast_concat]
    exact Node.isFolder?_of_append (Option.isSome_iff_exists.2 ⟨true, folder⟩)

theorem walk_child : tree.walk (path.child name) =
    (do let place ← tree.walk path; tree.step place name) := by
  rw [walk, Path.child, List.foldlM_append]
  simp only [List.foldlM_cons, List.foldlM_nil, bind_pure]
  rfl

/-- A path that leads anywhere but to where it starts begins with a step. -/
theorem Opens.start (opens : tree.Opens path place) :
    tree.isFolderAt? (tree.start path) = some true := by
  obtain ⟨walked, folder⟩ := opens
  rw [walk] at walked
  cases components : path.components with
  | nil =>
      rw [components] at walked
      cases walked
      exact folder
  | cons first rest =>
      rw [components, List.foldlM_cons, Outcome.bind_eq_ok_iff] at walked
      obtain ⟨_, stepped, -⟩ := walked
      exact isFolderAt?_of_step stepped

theorem Opens.eq {other : List Text} (opens : tree.Opens path place)
    (also : tree.Opens path other) : place = other := by
  have same := opens.1.symm.trans also.1
  cases same
  rfl

/-- The folder above a folder is one, too. -/
theorem Opens.of_child (opens : tree.Opens (path.child name) place) :
    ∃ folder, tree.Opens path folder ∧ tree.step folder name = .ok place := by
  obtain ⟨walked, -⟩ := opens
  rw [walk_child, Outcome.bind_eq_ok_iff] at walked
  obtain ⟨folder, reached, stepped⟩ := walked
  exact ⟨folder, ⟨reached, isFolderAt?_of_step stepped⟩, stepped⟩

theorem Opens.child (opens : tree.Opens path place) (stepped : tree.step place name = .ok next)
    (folder : tree.isFolderAt? next = some true) : tree.Opens (path.child name) next := by
  refine ⟨?_, folder⟩
  rw [walk_child, opens.1]
  exact stepped

theorem locate_eq_ok_iff :
    tree.locate path = .ok place ↔ checkPath path = .ok () ∧ tree.walk path = .ok place := by
  rw [locate, Outcome.bind_eq_ok_iff]
  constructor
  · intro ⟨_, fine, reached⟩
    exact ⟨fine, reached⟩
  · intro ⟨fine, reached⟩
    exact ⟨(), fine, reached⟩

theorem find_eq_ok_iff {node : Node} :
    tree.find path = .ok node ↔
      checkPath path = .ok () ∧ ∃ place, tree.walk path = .ok place ∧
        tree.root.get? place = some node := by
  rw [find, Outcome.bind_eq_ok_iff]
  constructor
  · intro ⟨place, located, rest⟩
    obtain ⟨fine, reached⟩ := locate_eq_ok_iff.1 located
    split at rest
    case h_1 found same =>
      cases rest
      exact ⟨fine, place, reached, same⟩
    case h_2 => cases rest
  · intro ⟨fine, place, reached, same⟩
    refine ⟨place, locate_eq_ok_iff.2 ⟨fine, reached⟩, ?_⟩
    rw [same]

theorem isFolder_iff :
    tree.isFolder path = true ↔ checkPath path = .ok () ∧ ∃ place, tree.Opens path place := by
  have opens (place : List Text) : tree.Opens path place ↔ ∃ node,
      (tree.walk path = .ok place ∧ tree.root.get? place = some node) ∧ node.isFolder = true := by
    rw [Opens, isFolderAt?, Node.isFolder?, Option.map_eq_some_iff]
    simp only [and_assoc, exists_and_left]
  have whole : tree.isFolder path = true ↔
      ∃ node, tree.find path = .ok node ∧ node.isFolder = true := by
    rw [isFolder]
    cases tree.find path <;> simp
  simp only [whole, find_eq_ok_iff, opens]
  constructor
  · intro ⟨node, ⟨fine, place, reached⟩, folder⟩
    exact ⟨fine, place, node, reached, folder⟩
  · intro ⟨fine, place, node, reached, folder⟩
    exact ⟨node, ⟨fine, place, reached⟩, folder⟩

/-! ## Trees within trees -/

/-- The larger tree has all places of the smaller one, and each is a folder or a file as it
is there. -/
structure Within (small large : FileTree) : Prop where
  workingFolder : large.workingFolder = small.workingFolder
  kept : ∀ place folder, small.isFolderAt? place = some folder →
    large.isFolderAt? place = some folder

namespace Within

theorem refl (tree : FileTree) : tree.Within tree := ⟨rfl, fun _ _ at_ => at_⟩

theorem trans {larger : FileTree} (first : small.Within large) (second : large.Within larger) :
    small.Within larger :=
  ⟨second.workingFolder.trans first.workingFolder,
    fun place folder at_ => second.kept place folder (first.kept place folder at_)⟩

variable (within : small.Within large)
include within

theorem start_eq : large.start path = small.start path := by
  rw [FileTree.start, FileTree.start, within.workingFolder]

theorem step (stepped : small.step place name = .ok next) : large.step place name = .ok next := by
  have folder := isFolderAt?_of_step stepped
  have alsoFolder := within.kept place true folder
  by_cases back : name = ".."
  · rw [back, step_back folder] at stepped
    rw [back, step_back alsoFolder, stepped]
  · obtain ⟨-, short, present, rfl⟩ := (step_eq_ok_iff back).1 stepped
    obtain ⟨kind, at_⟩ := Option.isSome_iff_exists.1 present
    have alsoPresent := Option.isSome_iff_exists.2 ⟨kind, within.kept _ kind at_⟩
    exact (step_eq_ok_iff back).2 ⟨alsoFolder, short, alsoPresent, rfl⟩

theorem walk (walked : small.walk path = .ok place) : large.walk path = .ok place := by
  have along (names : List Text) (from_ : List Text)
      (walked : names.foldlM small.step from_ = .ok place) :
      names.foldlM large.step from_ = .ok place := by
    induction names generalizing from_ with
    | nil => exact walked
    | cons name rest ih =>
        rw [List.foldlM_cons, Outcome.bind_eq_ok_iff] at walked ⊢
        obtain ⟨next, stepped, others⟩ := walked
        exact ⟨next, within.step stepped, ih next others⟩
  rw [FileTree.walk, within.start_eq]
  exact along _ _ walked

theorem opens (opens : small.Opens path place) : large.Opens path place :=
  ⟨within.walk opens.1, within.kept place true opens.2⟩

/-- What only the larger tree opens is missing from the smaller one, if the folder above it
is there. -/
theorem step_missing {folder : List Text} (above : small.Opens path folder)
    (opened : large.Opens (path.child name) place)
    (closed : ∀ p, ¬ small.Opens (path.child name) p) :
    name ≠ ".." ∧ place = folder ++ [name] ∧ byteLength name ≤ maximalName ∧
      small.isFolderAt? place = none := by
  obtain ⟨other, alsoAbove, stepped⟩ := opened.of_child
  have same := (within.opens above).eq alsoAbove
  subst same
  have forward : name ≠ ".." := by
    intro back
    subst back
    exact closed _ (above.child (step_back above.2) (isFolderAt?_dropLast above.2))
  obtain ⟨-, short, -, rfl⟩ := (step_eq_ok_iff forward).1 stepped
  refine ⟨forward, rfl, short, ?_⟩
  cases at_ : small.isFolderAt? (folder ++ [name]) with
  | none => rfl
  | some kind =>
      have isFolder : kind = true := Option.some.inj ((within.kept _ kind at_).symm.trans opened.2)
      subst isFolder
      have step : small.step folder name = .ok (folder ++ [name]) :=
        (step_eq_ok_iff forward).2 ⟨above.2, short, Option.isSome_iff_exists.2 ⟨true, at_⟩, rfl⟩
      exact absurd (above.child step at_) (closed _)

end Within

end FileTree

end RosInterface
