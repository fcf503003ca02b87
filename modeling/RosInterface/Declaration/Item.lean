/-
# RosInterface.Declaration.Item -- one line, one member or constant

A line, without its comment, is a written type, a name and a tail.  The tail is
empty, or a default, or an equals sign and a value; the sign decides that the
line declares a constant.  A value runs to the end of the line.

Reading goes in three steps, and a fault in one hides those of the next: the
shape of the line (`DeclarationSpec.read?`), the meaning of its type
(`TypeSpec.resolve`), and what the item asks for beyond the grammar
(`DeclarationSpec.build`) -- the type of a constant, the spelling of the name, the
value.  The last step shows the whole line in its diagnostics, the others the
line without comment.
-/
import RosInterface.Declaration.Comment
import RosInterface.Declaration.TypeSpec
import RosInterface.Schema.Item
import RosInterface.Value.Array

set_option autoImplicit false

namespace RosInterface

namespace Text

/-- Two underscores stand side by side. -/
def hasDoubleUnderscore : Text → Bool
  | [] => false
  | c :: rest => (c = '_' && rest.head? = some '_') || hasDoubleUnderscore rest

/-- Lower case and digits, a letter first; single underscores, none at the end. -/
def isMemberName (s : Text) : Bool :=
  (s.head?.any (·.isLower)) && s.all (fun c => c.isLower || c.isDigit || c = '_') &&
    !s.hasDoubleUnderscore && s.getLast? != some '_'

/-- Upper case and digits, a letter first; single underscores. -/
def isConstantName (s : Text) : Bool :=
  (s.head?.any (·.isUpper)) && s.all (fun c => c.isUpper || c.isDigit || c = '_') &&
    !s.hasDoubleUnderscore

end Text

/-- What follows the name on a line. -/
inductive TailSpec where
  | absent
  | default (value : Text)
  | assigned (value : Text)
  deriving DecidableEq

structure DeclarationSpec where
  type : TypeSpec
  name : Text
  tail : TailSpec
  deriving DecidableEq

namespace DeclarationSpec

/-- A value: it begins with no white space and stays on its line. -/
def value? : Text → Option Text
  | [] => none
  | c :: rest => if c.isSpace || rest.contains CodePoint.newline then none else some (c :: rest)

def tail? (s : Text) : Option TailSpec :=
  match s.after? "=" with
  | some s => (value? s.skipGap).map .assigned
  | none =>
      match s.skipGap with
      | [] => some .absent
      | c :: rest => (value? (c :: rest)).map .default

def read? (s : Text) : Option DeclarationSpec := do
  let (type, s) ← TypeSpec.read? s
  let (name, s) ← TypeSpec.word? s
  let tail ← tail? s
  return ⟨type, name, tail⟩

/-- Whether a constant may have a type. -/
def checkConstantType (type : FieldType) : Outcome Unit :=
  match type with
  | .single (.primitive element) | .array (.primitive element) _ =>
      match element with
      | .string string =>
          if string.bound.isSome then .fault (.grammar (.constantBound string)) else .ok ()
      | .basic _ => .ok ()
  | _ => .fault (.grammar (.constantShape type))

def buildConstant (type : FieldType) (name value : Text) : Outcome Item := do
  checkConstantType type
  if name.isConstantName then
    let values ← Value.forType type value
    return .constant ⟨name, type, values⟩
  else .fault (.grammar (.constantName name))

def buildMember (type : FieldType) (name : Text) (value : Option Text) : Outcome Item :=
  if name.isMemberName then
    match value with
    | none => .ok (.member ⟨name, type, none⟩)
    | some value => do
        let values ← Value.forType type value
        return .member ⟨name, type, some values⟩
  else .fault (.grammar (.memberName name))

/-- The item of a declaration whose type has been resolved. -/
def build (type : FieldType) (name : Text) : TailSpec → Outcome Item
  | .absent => buildMember type name none
  | .default value => buildMember type name (some value)
  | .assigned value => buildConstant type name value

end DeclarationSpec

namespace Item

/-- The item that a line declares. -/
def ofLine (line : Text) : Outcome Item :=
  let cleaned := line.withoutComment.trim
  if cleaned.isEmpty then .faultIn line (.grammar .emptyDeclaration)
  else
    match DeclarationSpec.read? cleaned with
    | none => .faultIn cleaned (.grammar .malformed)
    | some spec => do
        let type ← spec.type.resolve cleaned
        (DeclarationSpec.build type spec.name spec.tail).mapDiagnostic (·.withExcerpt line)

end Item

/-- The member that a line declares. -/
def Member.ofLine (line : Text) : Outcome Member := do
  match ← Item.ofLine line with
  | .member found => .ok found
  | .constant _ => .faultIn line (.grammar .memberExpected)

/-- The constant that a line declares. -/
def Constant.ofLine (line : Text) : Outcome Constant := do
  match ← Item.ofLine line with
  | .constant found => .ok found
  | .member _ => .faultIn line (.grammar .constantExpected)

end RosInterface
