/-
# RosInterface.Proofs.Files.Rewriting -- trees that differ in what files hold

Two trees have the same shape when they have the same places with the same entries, and differ
only in what their files hold (`FileTree.Rewrites`, with a relation between the bytes at each
place).  Every path leads to the same place in both, so all that a reader can see of the
difference are the bytes of the file that it reads (`FileTree.Rewrites.exists_read`).
-/
import RosInterface.Proofs.Files.Writing

set_option autoImplicit false

namespace RosInterface

/-- Two files with related bytes, or two folders with the same entries. -/
inductive Node.Alike (r : List UInt8 → List UInt8 → Prop) : Node → Node → Prop
  | file {bytes others : List UInt8} (related : r bytes others) :
      Alike r (.file bytes) (.file others)
  | folder {entries others : List (Text × Node)}
      (same : Node.listing (.folder entries) = Node.listing (.folder others)) :
      Alike r (.folder entries) (.folder others)

/-- The other tree has the same places, and bytes that are related to those of the first. -/
structure FileTree.Rewrites (r : List Text → List UInt8 → List UInt8 → Prop)
    (tree other : FileTree) : Prop where
  workingFolder : other.workingFolder = tree.workingFolder
  nodes : ∀ place, Option.Rel (Node.Alike (r place)) (tree.root.get? place) (other.root.get? place)

/-! ## Building such trees -/

namespace Node

variable {r : List Text → List UInt8 → List UInt8 → Prop}

theorem Alike.isFolder_eq {s : List UInt8 → List UInt8 → Prop} {node other : Node}
    (alike : Alike s node other) : other.isFolder = node.isFolder := by
  cases alike <;> rfl

theorem alike_refl {s : List UInt8 → List UInt8 → Prop} (related : ∀ bytes, s bytes bytes)
    (node : Node) : Alike s node node := by
  cases node with
  | file bytes => exact .file (related bytes)
  | folder entries => exact .folder rfl

/-- A node is related to itself wherever bytes are. -/
theorem rel_refl (related : ∀ place bytes, r place bytes bytes) (node : Node) (place : List Text) :
    Option.Rel (Alike (r place)) (node.get? place) (node.get? place) := by
  cases node.get? place with
  | none => exact .none
  | some found => exact .some (alike_refl (related place) found)

theorem listing_setEntry {name : Text} {value below : Node} {entries : List (Text × Node)}
    (there : entries.lookup name = some below) (same : value.isFolder = below.isFolder) :
    listing (folder (setEntry name value entries)) = listing (folder entries) := by
  induction entries with
  | nil => cases there
  | cons entry rest ih =>
      obtain ⟨first, old⟩ := entry
      rw [lookup_cons_eq] at there
      rw [setEntry]
      by_cases isFirst : name = first
      · rw [if_pos isFirst, Option.some.injEq] at there
        rw [if_pos isFirst.symm, listing, listing, entries, entries, List.map_cons, List.map_cons,
          same, there, isFirst]
      · rw [if_neg isFirst] at there
        rw [if_neg (Ne.symm isFirst)]
        exact congrArg ((first, old.isFolder) :: ·) (ih there)

/-- Setting what one file holds changes nothing else. -/
theorem rel_set {node : Node} {place : List Text} {bytes others : List UInt8}
    (at_ : node.get? place = some (.file bytes)) (refl : ∀ place bytes, r place bytes bytes)
    (related : r place bytes others) (query : List Text) :
    Option.Rel (Alike (r query)) (node.get? query)
      ((node.set (.file others) place).get? query) := by
  induction place generalizing node r query with
  | nil =>
      cases at_
      cases query with
      | nil => exact .some (.file related)
      | cons name rest => exact .none
  | cons name rest ih =>
      rw [get?_cons, Option.bind_eq_some_iff] at at_
      obtain ⟨below, child, atRest⟩ := at_
      have inside :=
        ih (r := fun place => r (name :: place)) atRest (fun p => refl (name :: p)) related
      rw [set_cons child]
      cases query with
      | nil =>
          have top := inside []
          cases top with
          | some alike =>
              cases node with
              | file bytes => cases child
              | folder entries =>
                  exact .some (.folder (listing_setEntry child alike.isFolder_eq).symm)
      | cons first more =>
          rw [get?_cons, get?_cons, child?_folder_setEntry]
          by_cases same : first = name
          · subst same
            rw [if_pos rfl, child]
            exact inside more
          · rw [if_neg same, ← get?_cons]
            exact rel_refl refl node (first :: more)

end Node

/-- A tree is related to itself with other bytes in one file. -/
theorem FileTree.rewrites_setAt {r : List Text → List UInt8 → List UInt8 → Prop} {tree : FileTree}
    {place : List Text} {bytes others : List UInt8}
    (file : tree.root.get? place = some (.file bytes)) (refl : ∀ place bytes, r place bytes bytes)
    (related : r place bytes others) : tree.Rewrites r (tree.setAt (.file others) place) :=
  ⟨rfl, Node.rel_set file refl related⟩

namespace FileTree.Rewrites

variable {r : List Text → List UInt8 → List UInt8 → Prop} {tree other : FileTree}
  (rewrites : tree.Rewrites r other)
include rewrites

/-! ## Where paths lead -/

theorem isFolderAt?_eq (place : List Text) : other.isFolderAt? place = tree.isFolderAt? place := by
  rw [isFolderAt?, isFolderAt?, Node.isFolder?, Node.isFolder?]
  have related := rewrites.nodes place
  generalize tree.root.get? place = node, other.root.get? place = found at related
  cases related with
  | none => rfl
  | some alike => rw [Option.map_some, Option.map_some, alike.isFolder_eq]

theorem within : other.Within tree :=
  ⟨rewrites.workingFolder.symm, fun place _ at_ => (rewrites.isFolderAt?_eq place).symm.trans at_⟩

theorem within_back : tree.Within other :=
  ⟨rewrites.workingFolder, fun place _ at_ => (rewrites.isFolderAt?_eq place).trans at_⟩

theorem locate_eq (path : Path) : other.locate path = tree.locate path := by
  have step : other.step = tree.step := by
    funext place name
    rw [step_eq, step_eq, rewrites.isFolderAt?_eq, rewrites.isFolderAt?_eq]
  rw [locate, locate, step, start, start, rewrites.workingFolder]

/-- Looking a path up fails in the same way in both trees, or it leads to nodes that are
alike. -/
theorem find_cases (path : Path) :
    (∃ fault, tree.find path = .error fault ∧ other.find path = .error fault) ∨
      ∃ place node found, tree.locate path = .ok place ∧ tree.find path = .ok node ∧
        other.find path = .ok found ∧ Node.Alike (r place) node found := by
  rw [find, find, rewrites.locate_eq]
  cases located : tree.locate path with
  | error fault => exact .inl ⟨fault, rfl, rfl⟩
  | ok place =>
      rw [Outcome.ok_bind, Outcome.ok_bind]
      have related := rewrites.nodes place
      generalize tree.root.get? place = node, other.root.get? place = found at related
      cases related with
      | none => exact .inl ⟨.missing, rfl, rfl⟩
      | some alike => exact .inr ⟨place, _, _, rfl, rfl, rfl, alike⟩

/-- A file that can be read in one tree can be read in the other one. -/
theorem exists_read {path : Path} {bytes : List UInt8} (read : tree.read path = .ok bytes) :
    ∃ place others, tree.locate path = .ok place ∧ other.read path = .ok others ∧
      r place bytes others := by
  obtain ⟨node, found, isFile⟩ := Outcome.bind_eq_ok_iff.1 read
  rcases rewrites.find_cases path with
    ⟨fault, failed, -⟩ | ⟨place, _, there, located, here, also, alike⟩
  · rw [found] at failed
    cases failed
  · rw [found] at here
    cases here
    cases alike with
    | folder => cases isFile
    | @file _ others related =>
        cases isFile
        refine ⟨place, others, located, ?_, related⟩
        rw [FileTree.read, also]
        rfl

end FileTree.Rewrites

end RosInterface
