/-
# RosInterface.Console.Arguments -- argument lists

An argument list gives texts by position, options with values, and switches, in
any order; after a bare double dash everything is given by position.
`Arguments.ofList?` reads a list for the options of one command.

* A long name stands after two dashes.  Its value stands after an equals sign in
  the same argument, or is the next argument.  A switch may have a value too, and
  a false one turns it round.
* Letters stand after one dash, several switches together if need be.  The first
  letter whose option has a value ends them: the value is the rest of the
  argument, or else the next argument.  One letter by itself may have its value
  after an equals sign.
* What begins with a dash and no known letter is given by position; negative
  numbers are such.
-/
import RosInterface.Console.OptionName
import RosInterface.Console.OptionValue

set_option autoImplicit false

namespace RosInterface

/-- One thing that an argument list gives. -/
inductive Given where
  | positional (text : Text)
  | value (option : OptionName) (text : Text)
  | switch (option : OptionName) (on : Bool)
  deriving DecidableEq

/-- What one argument gives, and the option whose value is the next argument. -/
structure ArgumentReading where
  given : List Given
  awaiting : Option OptionName
  deriving DecidableEq

namespace ArgumentReading

def positional (text : Text) : ArgumentReading := ⟨[.positional text], none⟩

/-- The use of an option with the value that stands in the same argument. -/
def ofUse? : OptionUse → Option Text → Option ArgumentReading
  | .value option, none => some ⟨[], some option⟩
  | .value option, some text => some ⟨[.value option text], none⟩
  | .switch option on, none => some ⟨[.switch option on], none⟩
  | .switch option on, some text =>
      (OptionValue.truth? text).map fun truth => ⟨[.switch option (on == truth)], none⟩
  | .nothing _, none => some ⟨[], none⟩
  | .nothing _, some text => (OptionValue.truth? text).map fun _ => ⟨[], none⟩

/-- The two sides of the first equals sign, where there is one. -/
def splitAtEquals (s : Text) : Text × Option Text :=
  let name := s.takeWhile fun c => !(c == CodePoint.ofChar '=')
  (name, if name.length < s.length then some (s.drop (name.length + 1)) else none)

/-- A long name with or without a value. -/
def ofLong? (options : List OptionName) (s : Text) : Option ArgumentReading := do
  let (name, value) := splitAtEquals s
  let use ← OptionUse.ofLong? options name
  ofUse? use value

/-- Letters up to the first whose option has a value. -/
def ofLetters? (options : List OptionName) : Text → Option ArgumentReading
  | [] => some ⟨[], none⟩
  | letter :: rest =>
      match OptionUse.ofLetter? options letter with
      | none => none
      | some (.value option) => ofUse? (.value option) (if rest.isEmpty then none else some rest)
      | some use => do
          let here ← ofUse? use none
          let others ← ofLetters? options rest
          return ⟨here.given ++ others.given, others.awaiting⟩

/-- Letters, or one letter with a value after an equals sign. -/
def ofShort? (options : List OptionName) (s : Text) : Option ArgumentReading :=
  match splitAtEquals s with
  | ([letter], some value) => do
      let use ← OptionUse.ofLetter? options letter
      ofUse? use (some value)
  | _ => ofLetters? options s

/-- What one argument gives; `none` where a name is unknown or a value is wrong. -/
def ofArgument? (options : List OptionName) (argument : Text) : Option ArgumentReading :=
  match argument with
  | a :: b :: rest =>
      if a = '-' then
        if b = '-' then ofLong? options rest
        else if (OptionUse.ofLetter? options b).isSome then ofShort? options (b :: rest)
        else some (positional argument)
      else some (positional argument)
  | _ => some (positional argument)

end ArgumentReading

/-- What an argument list gives, in order. -/
structure Arguments where
  given : List Given
  deriving DecidableEq

namespace Arguments

/-- What the arguments give for a command with certain options. -/
def givenBy? (options : List OptionName) : List Text → Option (List Given)
  | [] => some []
  | argument :: rest =>
      if argument = "--" then some (rest.map .positional)
      else
        match ArgumentReading.ofArgument? options argument with
        | none => none
        | some ⟨given, none⟩ => (givenBy? options rest).map (given ++ ·)
        | some ⟨given, some option⟩ =>
            match rest with
            | [] => none
            | text :: rest =>
                (givenBy? options rest).map fun others => given ++ .value option text :: others

def ofList? (options : List OptionName) (arguments : List Text) : Option Arguments :=
  (givenBy? options arguments).map .mk

/-- The texts given by position. -/
def positional (arguments : Arguments) : List Text :=
  arguments.given.filterMap fun
    | .positional text => some text
    | _ => none

/-- The values given for an option. -/
def values (arguments : Arguments) (option : OptionName) : List Text :=
  arguments.given.filterMap fun
    | .value given text => if given = option then some text else none
    | _ => none

/-- The value of an option; the last one counts. -/
def value? (arguments : Arguments) (option : OptionName) : Option Text :=
  (arguments.values option).getLast?

/-- Whether a switch is on; the last one counts. -/
def isOn (arguments : Arguments) (option : OptionName) (otherwise : Bool) : Bool :=
  (arguments.given.filterMap fun
    | .switch given on => if given = option then some on else none
    | _ => none).getLastD otherwise

end Arguments

end RosInterface
