/-
# RosInterface.Proofs.Files.Named -- trees whose names can be spelled

A path spells the places of a tree only where the names in the tree are components: not empty,
without a slash, and not a single dot.  Every entry of a file system has such a name.
`Node.Named` says so of a tree, wherever its entries are, and a tree that is put together from
files at paths is always like that (`FileTree.named_put`).
-/
import RosInterface.Files.Snapshot
import RosInterface.Proofs.Files.Place
import RosInterface.Proofs.Files.Path

set_option autoImplicit false

namespace RosInterface

/-! ## Components -/

theorem Text.not_mem_of_mem_pieces {mark : CodePoint} {s piece : Text}
    (member : piece ∈ s.pieces mark) : mark ∉ piece := by
  induction s generalizing piece with
  | nil =>
      rw [pieces, List.mem_singleton] at member
      rw [member]
      exact List.not_mem_nil
  | cons c rest ih =>
      rw [pieces] at member
      split at member
      case isTrue =>
        rcases List.mem_cons.1 member with rfl | later
        · exact List.not_mem_nil
        · exact ih later
      case isFalse differ =>
        split at member
        case h_1 =>
          rw [List.mem_singleton.1 member, List.mem_singleton]
          exact Ne.symm differ
        case h_2 first more parts =>
          rw [parts] at ih
          rcases List.mem_cons.1 member with rfl | later
          · rw [List.mem_cons, not_or]
            exact ⟨Ne.symm differ, ih List.mem_cons_self⟩
          · exact ih (List.mem_cons_of_mem _ later)

/-- The components of a path that was read from a text stand for themselves. -/
theorem Path.isComponent_of_mem_ofText {s name : Text} (member : name ∈ (ofText s).components) :
    IsComponent name := by
  obtain ⟨inPieces, kept⟩ := List.mem_filter.1 member
  simp only [decide_eq_true_eq] at kept
  have free := Text.not_mem_of_mem_pieces inPieces
  have relative : anchorOf name = .none := by
    obtain ⟨c, rest, rfl⟩ := List.exists_cons_of_ne_nil kept.1
    have notSlash : c ≠ CodePoint.slash := fun same => free (same ▸ List.mem_cons_self)
    rw [anchorOf, List.takeWhile_cons_of_neg (by simpa using notSlash)]
    rfl
  rw [IsComponent, ofText, relative, componentsOf_of_not_mem free kept.1 kept.2]

/-! ## Names in a tree -/

/-- Every entry, wherever it is, has a name that stands for itself in a path. -/
inductive Node.Named : Node → Prop
  | intro {node : Node} (names : ∀ entry ∈ node.entries, Path.IsComponent entry.1)
      (below : ∀ entry ∈ node.entries, Named entry.2) : Named node

namespace Node.Named

variable {node found value : Node} {name : Text} {place : List Text}

theorem of_leaf (leaf : node.entries = []) : node.Named := by
  constructor
  · rw [leaf]
    simp
  · rw [leaf]
    simp

theorem folder {entries : List (Text × Node)}
    (each : ∀ entry ∈ entries, Path.IsComponent entry.1 ∧ entry.2.Named) :
    (Node.folder entries).Named :=
  ⟨fun entry member => (each entry member).1, fun entry member => (each entry member).2⟩

theorem isComponent (named : node.Named) {entry : Text × Node} (member : entry ∈ node.entries) :
    Path.IsComponent entry.1 := by
  obtain ⟨names, -⟩ := named
  exact names entry member

theorem child? (named : node.Named) (at_ : node.child? name = some found) : found.Named := by
  obtain ⟨-, below⟩ := named
  obtain ⟨before, after, whole, -⟩ := List.lookup_eq_some_iff.1 at_
  refine below (name, found) ?_
  rw [whole]
  simp

theorem get? (named : node.Named) (at_ : node.get? place = some found) : found.Named := by
  induction place generalizing node with
  | nil =>
      cases at_
      exact named
  | cons name rest ih =>
      rw [Node.get?_cons, Option.bind_eq_some_iff] at at_
      obtain ⟨below, child, rest⟩ := at_
      exact ih (named.child? child) rest

/-! ## Putting trees together -/

theorem mem_setEntry {entries : List (Text × Node)} {entry : Text × Node}
    (member : entry ∈ setEntry name value entries) : entry = (name, value) ∨ entry ∈ entries := by
  induction entries with
  | nil => exact .inl (List.mem_singleton.1 member)
  | cons first rest ih =>
      obtain ⟨other, old⟩ := first
      rw [setEntry] at member
      split at member
      case isTrue =>
        rcases List.mem_cons.1 member with here | later
        · exact .inl here
        · exact .inr (List.mem_cons_of_mem _ later)
      case isFalse =>
        rcases List.mem_cons.1 member with here | later
        · exact .inr (here ▸ List.mem_cons_self)
        · exact (ih later).imp id (List.mem_cons_of_mem _)

theorem setEntry (named : node.Named) (component : Path.IsComponent name) (value_ : value.Named) :
    (Node.folder (Node.setEntry name value node.entries)).Named := by
  obtain ⟨names, below⟩ := named
  constructor
  · intro entry member
    rcases mem_setEntry member with rfl | old
    · exact component
    · exact names entry old
  · intro entry member
    rcases mem_setEntry member with rfl | old
    · exact value_
    · exact below entry old

theorem adjust {change : Node → Node} (keeps : ∀ node, Named node → Named (change node))
    (components : ∀ name ∈ place, Path.IsComponent name) (named : node.Named) :
    (Node.adjust change place node).Named := by
  induction place generalizing node with
  | nil => exact keeps node named
  | cons name rest ih =>
      have inside : ((node.child? name).getD .empty).Named := by
        cases child : node.child? name with
        | none => exact of_leaf rfl
        | some below => exact named.child? child
      have deeper :=
        ih (fun other member => components other (List.mem_cons_of_mem _ member)) inside
      exact named.setEntry (components name List.mem_cons_self) deeper

end Node.Named

theorem Path.mem_of_mem_collapsed {names : List Text} {name : Text}
    (member : name ∈ collapsed names) : name ∈ names := by
  have along (kept names : List Text) (member : name ∈ names.foldl
      (fun kept (c : Text) => if c = ".." then kept.dropLast else kept ++ [c]) kept) :
      name ∈ kept ∨ name ∈ names := by
    induction names generalizing kept with
    | nil => exact .inl member
    | cons first rest ih =>
        rcases ih _ member with before | later
        · beta_reduce at before
          split at before
          case isTrue => exact .inl ((List.dropLast_sublist kept).subset before)
          case isFalse =>
            rcases List.mem_append.1 before with old | new
            · exact .inl old
            · exact .inr (List.mem_singleton.1 new ▸ List.mem_cons_self)
        · exact .inr (List.mem_cons_of_mem _ later)
  exact (along [] names member).resolve_left List.not_mem_nil

/-- **A tree that is put together from files at paths is named.** -/
theorem FileTree.named_put {tree : FileTree} (named : tree.root.Named)
    (working : ∀ name ∈ tree.workingFolder, Path.IsComponent name) (path : Text)
    (bytes : Option (List UInt8)) : (tree.put (Path.ofText path) bytes).root.Named := by
  refine Node.Named.adjust ?_ ?_ named
  · intro node alsoNamed
    cases bytes with
    | none => exact alsoNamed
    | some bytes => exact Node.Named.of_leaf rfl
  · intro name member
    rcases List.mem_append.1 (Path.mem_of_mem_collapsed member) with inStart | inPath
    · rw [start] at inStart
      split at inStart
      case isTrue => exact working name inStart
      case isFalse => cases inStart
    · exact Path.isComponent_of_mem_ofText inPath

end RosInterface
