/-
# RosInterface.Value.Primitive -- one value of a primitive type

Each reader takes the raw text of a value and answers its canonical text.  White
space around the value does not count.  A bool is spelled in any letter case.  A
float keeps its spelling.  A string is quoted, and then its escapes are decoded;
or it does not begin with a quote, and then it stands for itself.  Its bound is
compared with the number of code points after decoding.
-/
import RosInterface.Value.Integer
import RosInterface.Decimal.Scientific
import RosInterface.Text.LetterCase

set_option autoImplicit false

namespace RosInterface.Value

def boolean (text : Text) : Outcome Text :=
  let word := text.trim.lower
  if word = "true" ∨ word = "false" then .ok word
  else .refuse text (.single (.primitive (.basic .bool))) none

def floating (type : FloatType) (text : Text) : Outcome Text :=
  let literal := text.trim
  if (Scientific.read? literal).isSome then .ok literal
  else .refuse text (.single (.primitive (.basic (.float type)))) none

def basic : BasicType → Text → Outcome Text
  | .bool, text => boolean text
  | .integer type, text => integer type text
  | .float type, text => floating type text

/-- The content of a quoted literal: its one guarded body, decoded. -/
def quotedContent? (quote : CodePoint) (rest : Text) : Option (Except EscapeFault Text) :=
  match Text.untilQuote quote rest with
  | some (body, []) => some body.unescape
  | _ => none

/-- The content of a string literal.  With `mustQuote` only quoted forms are
taken. -/
def string (type : StringType) (mustQuote : Bool) (text : Text) : Outcome Text :=
  let refuse (detail : ValueDetail) : Outcome Text :=
    .refuse text (.single (.primitive (.string type))) (some detail)
  let fitting (content : Text) : Outcome Text :=
    match type.bound with
    | none => .ok content
    | some bound =>
        if content.length ≤ bound then .ok content else refuse (.tooLong content.length bound)
  let literal := text.trim
  match literal with
  | [] => if mustQuote then refuse .unquoted else fitting []
  | c :: rest =>
      if c.isQuote then
        match quotedContent? c rest with
        | none => refuse .unterminated
        | some (.error fault) => .abort (.escape fault)
        | some (.ok content) => fitting content
      else if mustQuote then refuse .unquoted
      else fitting literal

def primitive : Primitive → Text → Outcome Text
  | .basic type, text => basic type text
  | .string type, text => string type false text

end RosInterface.Value
