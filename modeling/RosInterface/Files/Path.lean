/-
# RosInterface.Files.Path -- slash-separated paths

A path is an anchor and a list of components.  Reading one drops empty components
and single dots, so `a//b/./c` and `a/b/c` are one path; two dots stay, because
what they mean depends on the tree.  Exactly two leading slashes are an anchor of
their own.  The path without anchor and components is written `.`.

The last component has a *stem* and a *suffix*: they part at the last dot, unless
that dot is its first or its last code point.
-/
import RosInterface.Text.CodePoint

set_option autoImplicit false

namespace RosInterface

namespace CodePoint

def slash : CodePoint := '/'

def dot : CodePoint := '.'

end CodePoint

/-- Where a path starts. -/
inductive Anchor where
  | none
  | root
  | doubleRoot
  deriving DecidableEq

structure Path where
  anchor : Anchor
  components : List Text
  deriving DecidableEq

def Anchor.text : Anchor → Text
  | .none => []
  | .root => "/"
  | .doubleRoot => "//"

namespace Path

def here : Path := ⟨.none, []⟩

/-- The components that a text spells between its slashes. -/
def componentsOf (s : Text) : List Text :=
  (s.pieces CodePoint.slash).filter fun piece => piece ≠ [] ∧ piece ≠ "."

def anchorOf (s : Text) : Anchor :=
  match (s.takeWhile (· = CodePoint.slash)).length with
  | 0 => .none
  | 2 => .doubleRoot
  | _ => .root

def ofText (s : Text) : Path := ⟨anchorOf s, componentsOf s⟩

def text (p : Path) : Text :=
  if p = here then "." else p.anchor.text ++ Text.joined "/" p.components

/-- `q` seen from `p`: an anchored `q` stands for itself. -/
def join (p q : Path) : Path :=
  if q.anchor = .none then ⟨p.anchor, p.components ++ q.components⟩ else q

instance : Append Path := ⟨join⟩

/-- The last component, empty where there is none. -/
def name (p : Path) : Text := p.components.getLastD []

def parent (p : Path) : Path := ⟨p.anchor, p.components.dropLast⟩

/-- Stem and suffix of a component; the suffix begins with its dot. -/
def splitName (name : Text) : Text × Text :=
  let suffix := name.reverse.takeWhile (· ≠ CodePoint.dot)
  let stem := name.take (name.length - suffix.length - 1)
  if suffix = [] ∨ stem = [] ∨ suffix.length = name.length then (name, [])
  else (stem, name.drop stem.length)

def stem (p : Path) : Text := (splitName p.name).1

def suffix (p : Path) : Text := (splitName p.name).2

/-- The path with another suffix on its last component. -/
def withSuffix (p : Path) (suffix : Text) : Path :=
  ⟨p.anchor, p.components.dropLast ++ [p.stem ++ suffix]⟩

/-- What paths are ordered by, component by component. -/
def sortKey (p : Path) : List Text :=
  if p.anchor = .none then p.components else p.anchor.text :: p.components

/-- The order of component lists: by the first that differs, a beginning first. -/
def componentsLe : List Text → List Text → Bool
  | [], _ => true
  | _ :: _, [] => false
  | a :: s, b :: t => if a = b then componentsLe s t else a.le b

def le (p q : Path) : Bool := componentsLe p.sortKey q.sortKey

/-- The path without dot-dots: each takes the component before it away. -/
def collapsed (components : List Text) : List Text :=
  components.foldl (fun kept (c : Text) => if c = ".." then kept.dropLast else kept ++ [c]) []

end Path

end RosInterface
