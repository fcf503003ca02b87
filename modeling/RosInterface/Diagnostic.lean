/-
# RosInterface.Diagnostic -- what can be wrong, and how it is said

A *fault* is a cause: a declaration that does not fit the grammar, a value that
does not fit its type, a definition of the wrong structure, a name taken twice, a
file that cannot be used.  A `Diagnostic` is a fault with the text that shows it
and the place where that text stands, as far as they are known; `Diagnostic.text`
is the one function that puts all of it into words.

A few conditions end a request without a diagnostic: numbers past a hard limit of
the reader, and trouble with files that are no definitions.  They are the
constructors of `Abort`, and `Failure` is the sum of the two.  An `Outcome` is a
value or a failure.
-/
import RosInterface.Schema.Type
import RosInterface.Files.Tree
import RosInterface.Text.Escape

set_option autoImplicit false

namespace RosInterface

/-- A declaration that does not fit the grammar. -/
inductive GrammarFault where
  | emptyDeclaration
  /-- The words do not fit together.  The first one that does not fit, and what could stand in its
  place, are not said. -/
  | malformed
  | unknownKind (package kind name : Text)
  | boundOnOther (base : ElementType)
  | constantShape (type : FieldType)
  | constantBound (type : StringType)
  | constantName (name : Text)
  | memberName (name : Text)
  | memberExpected
  | constantExpected
  deriving DecidableEq

def GrammarFault.text : GrammarFault → Text
  | .emptyDeclaration => "empty declaration"
  | .malformed => "invalid declaration"
  | .unknownKind package kind name =>
      "unknown namespace '" ++ kind ++ "' in '" ++ package ++ "/" ++ kind ++ "/" ++ name ++
        "', expected one of " ++ Text.joined ", " (Text.sort (Kind.all.map (·.text)))
  | .boundOnOther base => "only string types can be bounded, got '" ++ base.text ++ "<='"
  | .constantShape type =>
      "constants must use primitive types or fixed-size primitive arrays, got '" ++ type.text ++ "'"
  | .constantBound type => "constants cannot use bounded string type '" ++ type.text ++ "'"
  | .constantName name => "invalid constant name '" ++ name ++ "'"
  | .memberName name => "invalid member name '" ++ name ++ "'"
  | .memberExpected => "expected a member declaration, got a constant"
  | .constantExpected => "expected a constant declaration with '=' and a value"

/-- What is known about a value that does not fit. -/
inductive ValueDetail where
  | outOfRange (type : IntegerType)
  | unterminated
  | unquoted
  | tooLong (length bound : Nat)
  | notAnArray
  | wrongCount (expected found : Nat)
  | tooMany (capacity found : Nat)
  deriving DecidableEq

def ValueDetail.text : ValueDetail → Text
  | .outOfRange type =>
      "out of range [" ++ Text.ofInt type.least ++ ", " ++ Text.ofInt type.greatest ++ "]"
  | .unterminated => "unterminated string literal"
  | .unquoted => "expected a quoted string"
  | .tooLong length bound =>
      "length " ++ Text.ofNat length ++ " exceeds the upper bound " ++ Text.ofNat bound
  | .notAnArray => "expected an array literal like [a, b]"
  | .wrongCount expected found =>
      "expected " ++ Text.ofNat expected ++ " elements, got " ++ Text.ofNat found
  | .tooMany capacity found =>
      "expected at most " ++ Text.ofNat capacity ++ " elements, got " ++ Text.ofNat found

/-- A text that is no value of a type. -/
structure ValueFault where
  value : Text
  type : FieldType
  detail : Option ValueDetail
  deriving DecidableEq

def ValueFault.text (fault : ValueFault) : Text :=
  "cannot parse value " ++ fault.value.quoted ++ " for type '" ++ fault.type.text ++ "'" ++
    match fault.detail with
    | none => []
    | some detail => ": " ++ detail.text

/-- A definition or an index of the wrong structure. -/
inductive StructureFault where
  | defaultOfOther (type : FieldType)
  | repeatedNames (owner : Text) (names : List Text)
  | separatorCount (kind : Kind) (found : Nat)
  | unknownSuffix (suffix : Text)
  | indexKind (line : Text)
  | indexFile (line : Text)
  deriving DecidableEq

def StructureFault.text : StructureFault → Text
  | .defaultOfOther type =>
      "default values are not allowed for non-primitive type '" ++ type.text ++ "'"
  | .repeatedNames owner names =>
      "Duplicate member/constant names in " ++ owner ++ ": " ++ Text.joined ", " names
  | .separatorCount kind found =>
      kind.text ++ " definition must have exactly " ++ Text.ofNat kind.separatorCount ++
        " '---' separator(s), found " ++ Text.ofNat found
  | .unknownSuffix suffix => "unknown interface file type '" ++ suffix ++ "'"
  | .indexKind line => "unknown interface namespace in resource index line " ++ line.quoted
  | .indexFile line => "missing file name in resource index line " ++ line.quoted

/-- A name that is taken twice. -/
inductive DuplicateFault where
  | package (name : Text) (sources : List Text)
  | declaration (package : Text) (kind : Kind) (name : Text)
  | moduleFile (path : Path)
  deriving DecidableEq

namespace DuplicateFault

/-- The name that is taken twice, in full. -/
def name : DuplicateFault → Text
  | .package n _ => n
  | .declaration p kind n => TypeName.text ⟨p, kind, n⟩
  | .moduleFile path => path.text

/-- What kind of thing has the name. -/
def category : DuplicateFault → Text
  | .package _ _ => "package"
  | .declaration _ kind _ => kind.text ++ " declaration"
  | .moduleFile _ => "declaration module"

def sources : DuplicateFault → List Text
  | .package _ sources => sources
  | _ => []

/-- The sources of a name in brackets, where any are known. -/
def sourcesText (sources : List Text) : Text :=
  if sources.isEmpty then [] else " (" ++ Text.joined ", " sources ++ ")"

def text (fault : DuplicateFault) : Text :=
  "multiple '" ++ fault.name ++ "' " ++ fault.category ++ "s found" ++ sourcesText fault.sources

end DuplicateFault

/-- A file that holds no readable definition. -/
inductive UnusableFile where
  | undecodable (fault : Utf8Fault)
  | unreadable (report : Text)
  deriving DecidableEq

def UnusableFile.text : UnusableFile → Text
  | .undecodable fault =>
      "file is not valid UTF-8: " ++ fault.reason.text ++ " at byte " ++ Text.ofNat fault.position
  | .unreadable report => "unable to read file: " ++ report

inductive Fault where
  | grammar (fault : GrammarFault)
  | value (fault : ValueFault)
  | structural (fault : StructureFault)
  | duplicate (fault : DuplicateFault)
  | file (fault : UnusableFile)
  deriving DecidableEq

def Fault.text : Fault → Text
  | .grammar fault => fault.text
  | .value fault => fault.text
  | .structural fault => fault.text
  | .duplicate fault => fault.text
  | .file fault => fault.text

/-- A fault with the text that shows it, the file and the line. -/
structure Diagnostic where
  fault : Fault
  excerpt : Option Text
  path : Option Path
  line : Option Nat
  deriving DecidableEq

namespace Diagnostic

def ofFault (fault : Fault) : Diagnostic := ⟨fault, none, none, none⟩

/-- The place of a diagnostic as it stands before its words. -/
def place (d : Diagnostic) : Text :=
  match d.path, d.line with
  | some path, some line => path.text ++ ":" ++ Text.ofNat line ++ ": "
  | some path, none => path.text ++ ": "
  | none, some line => "line " ++ Text.ofNat line ++ ": "
  | none, none => []

def text (d : Diagnostic) : Text :=
  d.place ++ d.fault.text ++
    match d.excerpt with
    | none => []
    | some excerpt => " (in " ++ excerpt.quoted ++ ")"

def withExcerpt (excerpt : Text) (d : Diagnostic) : Diagnostic :=
  { d with excerpt := some excerpt }

def withPath (path : Path) (d : Diagnostic) : Diagnostic := { d with path := some path }

def withLine (line : Nat) (d : Diagnostic) : Diagnostic := { d with line := some line }

end Diagnostic

/-- What ends a request without a diagnostic. -/
inductive Abort where
  /-- An escape in a string literal names no code point. -/
  | escape (fault : EscapeFault)
  /-- A decimal literal has too many digits. -/
  | longInteger
  /-- A bound or a size has too many digits. -/
  | longSize
  /-- A value that is to be written as a float is none. -/
  | notAFloat
  /-- A single value is to be written and there is none. -/
  | noValue
  /-- A resource index file is no UTF-8. -/
  | undecodableIndex
  /-- The number of workers is not positive. -/
  | noWorkers
  /-- A file that is not reported about cannot be read or written. -/
  | file (fault : FileFault)
  deriving DecidableEq

/-- Most digits that a decimal number may be spelled with. -/
def maximalDigits : Nat := 4300

inductive Failure where
  | diagnostic (diagnostic : Diagnostic)
  | abort (abort : Abort)
  deriving DecidableEq

/-- A value, or why there is none. -/
abbrev Outcome (α : Type) := Except Failure α

namespace Outcome

variable {α : Type}

def fault (fault : Fault) : Outcome α := .error (.diagnostic (.ofFault fault))

/-- A failure whose diagnostic shows the given text. -/
def faultIn (excerpt : Text) (fault : Fault) : Outcome α :=
  .error (.diagnostic ((Diagnostic.ofFault fault).withExcerpt excerpt))

def abort (abort : Abort) : Outcome α := .error (.abort abort)

/-- Change the diagnostic, where there is one. -/
def mapDiagnostic (f : Diagnostic → Diagnostic) : Outcome α → Outcome α
  | .error (.diagnostic d) => .error (.diagnostic (f d))
  | outcome => outcome

/-- A value is refused: its diagnostic shows the value itself. -/
def refuse (value : Text) (type : FieldType) (detail : Option ValueDetail) : Outcome α :=
  faultIn value (.value ⟨value, type, detail⟩)

end Outcome

end RosInterface
