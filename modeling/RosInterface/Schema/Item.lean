/-
# RosInterface.Schema.Item -- members and constants

One line of a definition declares a member or a constant.  Values are kept in
canonical text: `true` or `false`, a decimal integer, a float literal as it was
written, the content of a string.  A single value is a list of one.

`Member.text` and `Constant.text` write the line again; strings are quoted, so
any content survives.
-/
import RosInterface.Schema.Type
import RosInterface.Text.Quoted

set_option autoImplicit false

namespace RosInterface

/-- Canonical values as they are written after a name of the given type. -/
def FieldType.valuesText (type : FieldType) (values : List Text) : Text :=
  let shown := match type.element with
    | .primitive (.string _) => values.map Text.quoted
    | _ => values
  if type.isSingle then shown.headD [] else "[" ++ Text.joined ", " shown ++ "]"

/-- A field of a message, with an optional default. -/
structure Member where
  name : Text
  type : FieldType
  default : Option (List Text)
  deriving DecidableEq

def Member.text (member : Member) : Text :=
  member.type.text ++ " " ++ member.name ++
    match member.default with
    | none => []
    | some values => " " ++ member.type.valuesText values

/-- A named constant of a message. -/
structure Constant where
  name : Text
  type : FieldType
  value : List Text
  deriving DecidableEq

def Constant.text (constant : Constant) : Text :=
  constant.type.text ++ " " ++ constant.name ++ "=" ++ constant.type.valuesText constant.value

/-- What one line declares. -/
inductive Item where
  | member (member : Member)
  | constant (constant : Constant)
  deriving DecidableEq

namespace Item

def name : Item → Text
  | .member m => m.name
  | .constant c => c.name

def text : Item → Text
  | .member m => m.text
  | .constant c => c.text

def member? : Item → Option Member
  | .member m => some m
  | .constant _ => none

def constant? : Item → Option Constant
  | .member _ => none
  | .constant c => some c

end Item

end RosInterface
