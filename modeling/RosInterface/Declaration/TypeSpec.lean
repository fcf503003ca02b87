/-
# RosInterface.Declaration.TypeSpec -- types as they are written

A written type is one to three words between slashes, a length bound, and a
shape in square brackets; gaps are free between the tokens, and words and digit
runs are as long as possible.  `TypeSpec.read?` takes the longest written type
off the beginning of a text.  It needs no second try, because each token is
decided by its first code point.

`TypeSpec.resolve` gives a written type its meaning, or says why it has none: a
middle word that is no kind of definition, a bound or a size of too many digits,
a bound on what is no string -- in this order.
-/
import RosInterface.Diagnostic
import RosInterface.Text.Blank

set_option autoImplicit false

namespace RosInterface

namespace Text

/-- The identifier at the beginning of a text, and the rest. -/
def identifier? : Text → Option (Text × Text)
  | [] => none
  | c :: rest =>
      if c.isLetter then some (c :: rest.takeWhile (·.isWord), rest.dropWhile (·.isWord)) else none

/-- The digits at the beginning of a text, if there are any, and the rest. -/
def digits? (s : Text) : Option (Text × Text) :=
  let run := s.takeWhile (·.isDigit)
  if run.isEmpty then none else some (run, s.dropWhile (·.isDigit))

/-- What follows the given mark, with gaps before it. -/
def after? (s mark : Text) : Option Text :=
  let s := s.skipGap
  if mark.isPrefixOf s then some (s.drop mark.length) else none

end Text

/-- The words of a written type. -/
inductive WordSpec where
  | bare (name : Text)
  | inPackage (package name : Text)
  | full (package kind name : Text)
  deriving DecidableEq

/-- The brackets of a written type; sizes are digit runs. -/
inductive ShapeSpec where
  | single
  | sequence
  | array (size : Text)
  | boundedSequence (capacity : Text)
  deriving DecidableEq

structure TypeSpec where
  words : WordSpec
  bound : Option Text
  shape : ShapeSpec
  deriving DecidableEq

namespace TypeSpec

/-- An identifier, with a gap before it. -/
def word? (s : Text) : Option (Text × Text) := Text.identifier? s.skipGap

def readWords? (s : Text) : Option (WordSpec × Text) := do
  let (first, s) ← word? s
  match s.after? "/" with
  | none => return (.bare first, s)
  | some s => do
      let (second, s) ← word? s
      match s.after? "/" with
      | none => return (.inPackage first second, s)
      | some s => do
          let (third, s) ← word? s
          return (.full first second third, s)

def readBound? (s : Text) : Option (Option Text × Text) :=
  match s.after? "<=" with
  | none => some (none, s)
  | some s => (Text.digits? s.skipGap).map fun (digits, s) => (some digits, s)

def readShape? (s : Text) : Option (ShapeSpec × Text) :=
  match s.after? "[" with
  | none => some (.single, s)
  | some s =>
      match s.after? "]" with
      | some s => some (.sequence, s)
      | none =>
          match s.after? "<=" with
          | some s => do
              let (digits, s) ← Text.digits? s.skipGap
              let s ← s.after? "]"
              return (.boundedSequence digits, s)
          | none => do
              let (digits, s) ← Text.digits? s.skipGap
              let s ← s.after? "]"
              return (.array digits, s)

/-- The written type at the beginning of a text, and the rest. -/
def read? (s : Text) : Option (TypeSpec × Text) := do
  let (words, s) ← readWords? s
  let (bound, s) ← readBound? s
  let (shape, s) ← readShape? s
  return (⟨words, bound, shape⟩, s)

/-- The number that a digit run spells. -/
def size (digits : Text) : Outcome Nat :=
  if maximalDigits < digits.length then .abort .longSize else .ok (digits.value 10)

/-- The element type that words name, before any bound. -/
def resolveWords (excerpt : Text) : WordSpec → Outcome ElementType
  | .bare name =>
      match Primitive.ofKeyword? name with
      | some type => .ok (.primitive type)
      | none => .ok (.named name)
  | .inPackage package name => .ok (.qualified ⟨package, .message, name⟩)
  | .full package kind name =>
      match Kind.ofText? kind with
      | some kind => .ok (.qualified ⟨package, kind, name⟩)
      | none => .faultIn excerpt (.grammar (.unknownKind package kind name))

def resolveBound : Option Text → Outcome (Option Nat)
  | none => .ok none
  | some digits => (size digits).map some

/-- The shape as a function of the element type. -/
def resolveShape : ShapeSpec → Outcome (ElementType → FieldType)
  | .single => .ok .single
  | .sequence => .ok .sequence
  | .array digits => (size digits).map fun n element => .array element n
  | .boundedSequence digits => (size digits).map fun n element => .boundedSequence element n

/-- The element type with a bound on its length. -/
def bounded (excerpt : Text) (element : ElementType) : Option Nat → Outcome ElementType
  | none => .ok element
  | some bound =>
      match element with
      | .primitive (.string type) => .ok (.primitive (.string { type with bound := some bound }))
      | _ => .faultIn excerpt (.grammar (.boundOnOther element))

/-- The type that is written; `excerpt` is the text that it was read from. -/
def resolve (excerpt : Text) (spec : TypeSpec) : Outcome FieldType := do
  let element ← resolveWords excerpt spec.words
  let bound ← resolveBound spec.bound
  let shape ← resolveShape spec.shape
  let element ← bounded excerpt element bound
  return shape element

end TypeSpec

/-- The type that a whole text spells. -/
def FieldType.ofText (text : Text) : Outcome FieldType :=
  let text := text.trim
  match TypeSpec.read? text with
  | some (spec, rest) =>
      if (Text.skipGap rest).isEmpty then spec.resolve text
      else .faultIn text (.grammar .malformed)
  | none => .faultIn text (.grammar .malformed)

end RosInterface
