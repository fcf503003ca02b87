/-
# RosInterface.Schema.Type -- the types of fields

A field type is one element type, alone or under exactly one of three shapes: a
fixed array, an unbounded sequence, a bounded sequence.  The element is primitive
(a basic type or a string) or it refers to another definition, by a bare name or
by package, kind and name.  The types say so by construction: shapes do not nest,
only strings carry a length bound, and a qualified name names one of the three
kinds.

`FieldType.text` is the spelling of a type in a definition file.
-/
import RosInterface.Text.CodePoint

set_option autoImplicit false

namespace RosInterface

/-- The kinds of definition. -/
inductive Kind where
  | message
  | service
  | action
  deriving DecidableEq

namespace Kind

/-- The kinds in the order in which a package presents them. -/
def all : List Kind := [.message, .service, .action]

/-- The name of the kind in type names, directories and file suffixes. -/
def text : Kind → Text
  | .message => "msg"
  | .service => "srv"
  | .action => "action"

def ofText? (s : Text) : Option Kind := all.find? fun kind => kind.text = s

def suffix (kind : Kind) : Text := "." ++ kind.text

/-- What is added to a definition's name for the message of each section. -/
def sectionSuffixes : Kind → List Text
  | .message => [""]
  | .service => ["_Request", "_Response"]
  | .action => ["_Goal", "_Result", "_Feedback"]

/-- The number of separator lines between the sections. -/
def separatorCount (kind : Kind) : Nat := kind.sectionSuffixes.length - 1

end Kind

inductive IntegerType where
  | byte
  | char
  | int8
  | uint8
  | int16
  | uint16
  | int32
  | uint32
  | int64
  | uint64
  deriving DecidableEq

namespace IntegerType

def text : IntegerType → Text
  | .byte => "byte"
  | .char => "char"
  | .int8 => "int8"
  | .uint8 => "uint8"
  | .int16 => "int16"
  | .uint16 => "uint16"
  | .int32 => "int32"
  | .uint32 => "uint32"
  | .int64 => "int64"
  | .uint64 => "uint64"

/-- The least value.  A byte and a char are octets. -/
def least : IntegerType → Int
  | .int8 => -128
  | .int16 => -32768
  | .int32 => -2147483648
  | .int64 => -9223372036854775808
  | _ => 0

/-- The greatest value. -/
def greatest : IntegerType → Int
  | .byte | .char | .uint8 => 255
  | .int8 => 127
  | .int16 => 32767
  | .uint16 => 65535
  | .int32 => 2147483647
  | .uint32 => 4294967295
  | .int64 => 9223372036854775807
  | .uint64 => 18446744073709551615

end IntegerType

inductive FloatType where
  | float32
  | float64
  deriving DecidableEq

def FloatType.text : FloatType → Text
  | .float32 => "float32"
  | .float64 => "float64"

inductive BasicType where
  | bool
  | integer (type : IntegerType)
  | float (type : FloatType)
  deriving DecidableEq

namespace BasicType

def text : BasicType → Text
  | .bool => "bool"
  | .integer type => type.text
  | .float type => type.text

def all : List BasicType :=
  [.bool, .integer .byte, .integer .char, .float .float32, .float .float64, .integer .int8,
   .integer .uint8, .integer .int16, .integer .uint16, .integer .int32, .integer .uint32,
   .integer .int64, .integer .uint64]

def ofText? (s : Text) : Option BasicType := all.find? fun type => type.text = s

def isInteger : BasicType → Bool
  | .integer _ => true
  | _ => false

def isFloat : BasicType → Bool
  | .float _ => true
  | _ => false

end BasicType

/-- A string, narrow or wide, with an optional bound on its length. -/
structure StringType where
  wide : Bool
  bound : Option Nat
  deriving DecidableEq

namespace StringType

def unbounded : StringType := ⟨false, none⟩

def keyword (type : StringType) : Text := if type.wide then "wstring" else "string"

def text (type : StringType) : Text :=
  match type.bound with
  | none => type.keyword
  | some bound => type.keyword ++ "<=" ++ Text.ofNat bound

end StringType

inductive Primitive where
  | basic (type : BasicType)
  | string (type : StringType)
  deriving DecidableEq

namespace Primitive

def text : Primitive → Text
  | .basic type => type.text
  | .string type => type.text

def isString : Primitive → Bool
  | .string _ => true
  | .basic _ => false

/-- The primitive type that a bare word names; every other word is free. -/
def ofKeyword? (word : Text) : Option Primitive :=
  if word = "string" then some (.string ⟨false, none⟩)
  else if word = "wstring" then some (.string ⟨true, none⟩)
  else (BasicType.ofText? word).map .basic

end Primitive

/-- The full name of a definition. -/
structure TypeName where
  package : Text
  kind : Kind
  name : Text
  deriving DecidableEq

def TypeName.text (type : TypeName) : Text :=
  type.package ++ "/" ++ type.kind.text ++ "/" ++ type.name

/-- What a field holds, or what an array or a sequence holds many of. -/
inductive ElementType where
  | primitive (type : Primitive)
  | named (name : Text)
  | qualified (type : TypeName)
  deriving DecidableEq

def ElementType.text : ElementType → Text
  | .primitive type => type.text
  | .named name => name
  | .qualified type => type.text

inductive FieldType where
  | single (element : ElementType)
  | array (element : ElementType) (size : Nat)
  | sequence (element : ElementType)
  | boundedSequence (element : ElementType) (capacity : Nat)
  deriving DecidableEq

namespace FieldType

def element : FieldType → ElementType
  | .single element => element
  | .array element _ => element
  | .sequence element => element
  | .boundedSequence element _ => element

def isSingle : FieldType → Bool
  | .single _ => true
  | _ => false

/-- The spelling of a type in a definition file. -/
def text : FieldType → Text
  | .single element => element.text
  | .array element size => element.text ++ "[" ++ Text.ofNat size ++ "]"
  | .sequence element => element.text ++ "[]"
  | .boundedSequence element capacity => element.text ++ "[<=" ++ Text.ofNat capacity ++ "]"

end FieldType

end RosInterface
