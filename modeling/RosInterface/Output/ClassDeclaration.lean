/-
# RosInterface.Output.ClassDeclaration -- the classes of a module

A message becomes a data class with one field for each member and one class
variable for each constant.  A service or an action becomes a class that binds
the message classes it is made of.  These are values here: type hints know the
class they name, and the right-hand side of a field is an `Initial`, of which
`Initial.text` is the spelling.

A right-hand side is either a plain value or a factory that is called for each
new object.  Everything mutable is made by a factory: sequences and objects of
other message classes.  A fixed array is a tuple of exactly its size.
-/
import RosInterface.Decimal.Floating
import RosInterface.Diagnostic
import RosInterface.Output.Identifier
import RosInterface.Output.Reference

set_option autoImplicit false

namespace RosInterface

/-- The class of a single value. -/
inductive ValueClass where
  | bool
  | int
  | float
  | str
  | message (ref : ClassRef)
  deriving DecidableEq

namespace ValueClass

def text : ValueClass → Text
  | .bool => "bool"
  | .int => "int"
  | .float => "float"
  | .str => "str"
  | .message ref => ref.text

def ofBasic : BasicType → ValueClass
  | .bool => .bool
  | .integer _ => .int
  | .float _ => .float

def ofPrimitive : Primitive → ValueClass
  | .basic type => ofBasic type
  | .string _ => .str

/-- The class of the values of an element type. -/
def ofElement (scope : Scope) : ElementType → ValueClass
  | .primitive type => ofPrimitive type
  | .named name => .message (scope.reference (scope.fullName name))
  | .qualified type => .message (scope.reference type)

/-- The reference that a class makes, where it is a message class. -/
def reference? : ValueClass → Option ClassRef
  | .message ref => some ref
  | _ => none

/-- The value of a field that was never set. -/
def zeroText : ValueClass → Text
  | .bool => "False"
  | .int => "0"
  | .float => "0.0"
  | .str => "\"\""
  | .message ref => ref.text ++ "()"

end ValueClass

/-- How many values of a class a field holds. -/
inductive Multiplicity where
  | one
  | tuple
  | list
  deriving DecidableEq

def FieldType.multiplicity : FieldType → Multiplicity
  | .single _ => .one
  | .array _ _ => .tuple
  | .sequence _ | .boundedSequence _ _ => .list

structure TypeHint where
  multiplicity : Multiplicity
  item : ValueClass
  deriving DecidableEq

namespace TypeHint

def ofType (scope : Scope) (type : FieldType) : TypeHint :=
  ⟨type.multiplicity, .ofElement scope type.element⟩

def text (hint : TypeHint) : Text :=
  match hint.multiplicity with
  | .one => hint.item.text
  | .tuple => "tuple[" ++ hint.item.text ++ ", ...]"
  | .list => "list[" ++ hint.item.text ++ "]"

end TypeHint

/-- A canonical value that is to be written as an expression. -/
structure Literal where
  type : Primitive
  value : Text
  deriving DecidableEq

/-- The expression for a value.  Strings are quoted, bools are the two constants,
floats are written shortest, and infinities by name. -/
def Literal.text (literal : Literal) : Outcome Text :=
  match literal.type with
  | .string _ => .ok literal.value.quoted
  | .basic .bool => .ok (if literal.value = "true" then "True" else "False")
  | .basic (.integer _) => .ok literal.value
  | .basic (.float _) =>
      match Floating.read? literal.value with
      | none => .abort .notAFloat
      | some x =>
          .ok (if x.isFinite then x.text else "_builtins.float(" ++ x.text.quoted ++ ")")

/-- The right-hand side of a field or a constant. -/
inductive Initial where
  /-- The value of a field without default. -/
  | zero (item : ValueClass)
  /-- The first of the values, for a single field. -/
  | first (values : List Literal)
  /-- A tuple of so many zeros. -/
  | zeros (item : ValueClass) (size : Nat)
  | tuple (values : List Literal)
  | newEmptyList
  | newList (values : List Literal)
  | newObject (ref : ClassRef)
  /-- A tuple of so many new objects. -/
  | newObjects (ref : ClassRef) (size : Nat)
  deriving DecidableEq

namespace Initial

/-- Whether a new value is made for each object. -/
def isFactory : Initial → Bool
  | .newEmptyList | .newList _ | .newObject _ | .newObjects _ _ => true
  | _ => false

/-- Values in brackets; a tuple of one keeps its comma. -/
def tupleText : List Text → Text
  | [only] => "(" ++ only ++ ",)"
  | values => "(" ++ Text.joined ", " values ++ ")"

def text : Initial → Outcome Text
  | .zero item => .ok item.zeroText
  | .first [] => .abort .noValue
  | .first (value :: _) => value.text
  | .zeros item size => .ok ("(" ++ item.zeroText ++ ",) * " ++ Text.ofNat size)
  | .tuple values => do
      let texts ← values.mapM (·.text)
      return tupleText texts
  | .newEmptyList => .ok "_builtins.list"
  | .newList values => do
      let texts ← values.mapM (·.text)
      return "lambda: [" ++ Text.joined ", " texts ++ "]"
  | .newObject ref => .ok ("lambda: " ++ ref.text ++ "()")
  | .newObjects ref size =>
      .ok ("lambda: tuple(" ++ ref.text ++ "() for _ in range(" ++ Text.ofNat size ++ "))")

/-- What a field that refers to a message class starts with. -/
def ofReference (ref : ClassRef) : FieldType → Initial
  | .single _ => .newObject ref
  | .array _ size => .newObjects ref size
  | .sequence _ | .boundedSequence _ _ => .newEmptyList

/-- What a field of primitive values starts with. -/
def ofPrimitive (element : Primitive) (default : Option (List Text)) : FieldType → Initial
  | .single _ =>
      match default with
      | none => .zero (.ofPrimitive element)
      | some values => .first (values.map (⟨element, ·⟩))
  | .array _ size =>
      match default with
      | none => .zeros (.ofPrimitive element) size
      | some values => .tuple (values.map (⟨element, ·⟩))
  | .sequence _ | .boundedSequence _ _ =>
      match default with
      | none | some [] => .newEmptyList
      | some values => .newList (values.map (⟨element, ·⟩))

/-- What the field of a member starts with. -/
def ofMember (scope : Scope) (member : Member) : Initial :=
  match member.type.element with
  | .primitive element => ofPrimitive element member.default member.type
  | .named name => ofReference (scope.reference (scope.fullName name)) member.type
  | .qualified type => ofReference (scope.reference type) member.type

/-- The value of a constant. -/
def ofConstant (constant : Constant) : Initial :=
  let literals := match constant.type.element with
    | .primitive element => constant.value.map (⟨element, ·⟩)
    | _ => []
  match constant.type with
  | .array _ _ => .tuple literals
  | _ => .first literals

end Initial

/-- A field of a data class. -/
structure FieldDeclaration where
  name : Text
  hint : TypeHint
  /-- The type as it is spelled in the definition. -/
  schemaType : FieldType
  initial : Initial
  deriving DecidableEq

/-- A class variable of a data class. -/
structure ConstantDeclaration where
  name : Text
  hint : TypeHint
  value : Initial
  deriving DecidableEq

structure MessageClass where
  name : Text
  typeName : TypeName
  fields : List FieldDeclaration
  constants : List ConstantDeclaration
  deriving DecidableEq

/-- The class of a service or an action. -/
structure InterfaceClass where
  name : Text
  typeName : TypeName
  /-- Attributes with the classes that they are bound to. -/
  bindings : List (Text × Text)
  deriving DecidableEq

inductive ClassDeclaration where
  | message (declared : MessageClass)
  | interface (declared : InterfaceClass)
  deriving DecidableEq

namespace ClassDeclaration

def name : ClassDeclaration → Text
  | .message declared => declared.name
  | .interface declared => declared.name

/-- The references to message classes that a declaration makes. -/
def references : ClassDeclaration → List ClassRef
  | .message declared =>
      (declared.fields.map (·.hint) ++ declared.constants.map (·.hint)).filterMap
        (·.item.reference?)
  | .interface _ => []

def ofMember (scope : Scope) (member : Member) : FieldDeclaration where
  name := member.name.attributeName
  hint := .ofType scope member.type
  schemaType := member.type
  initial := .ofMember scope member

def ofConstant (scope : Scope) (constant : Constant) : ConstantDeclaration where
  name := constant.name
  hint := .ofType scope constant.type
  value := .ofConstant constant

def ofMessage (scope : Scope) (message : Message) : ClassDeclaration :=
  .message
    { name := message.name
      typeName := ⟨message.package, scope.kind, message.name⟩
      fields := message.members.map (ofMember scope)
      constants := message.constants.map (ofConstant scope) }

/-- A service: its messages, then the class that binds them. -/
def ofService (scope : Scope) (service : Service) : List ClassDeclaration :=
  [ofMessage scope service.request, ofMessage scope service.response,
   .interface
    { name := service.name
      typeName := ⟨service.package, scope.kind, service.name⟩
      bindings := [("Request", service.request.name), ("Response", service.response.name)] }]

/-- An action: its messages, what is derived from it, and the class that binds
them all. -/
def ofAction (scope : Scope) (action : Action) : List ClassDeclaration :=
  [ofMessage scope action.goal, ofMessage scope action.result,
    ofMessage scope action.feedback] ++
  ofService scope action.sendGoal ++ ofService scope action.getResult ++
  [ofMessage scope action.feedbackMessage,
   .interface
    { name := action.name
      typeName := ⟨action.package, scope.kind, action.name⟩
      bindings :=
        [("Goal", action.goal.name), ("Result", action.result.name),
         ("Feedback", action.feedback.name), ("SendGoal", action.sendGoal.name),
         ("GetResult", action.getResult.name),
         ("FeedbackMessage", action.feedbackMessage.name)] }]

/-- The classes of a definition, each after those that it uses. -/
def ofInterface (scope : Scope) : Interface → List ClassDeclaration
  | .message m => [ofMessage scope m]
  | .service s => ofService scope s
  | .action a => ofAction scope a

end ClassDeclaration

end RosInterface
