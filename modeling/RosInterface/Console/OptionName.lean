/-
# RosInterface.Console.OptionName -- the options of the commands

Every option has a long name, and some have a letter.  What an option is named for
is its `Role`: a *switch* is on or off, a *single* option has one value, and a
*collection* gathers values.  A long name after `no-` turns a switch off, and one
after `empty-` says that a collection gathers nothing.  Letter case does not count
in long names, and an underscore counts as a hyphen.

What may also be given by position has a long name too: the locations and the
file, and the names whose stems are asked for.
-/
import RosInterface.Text.LetterCase

set_option autoImplicit false

namespace RosInterface

inductive OptionName where
  | locations
  | output
  | layout
  | singleFile
  | excluded
  | searchEnvironment
  | workers
  | collectErrors
  | verbose
  | file
  | package
  | names
  deriving DecidableEq

namespace OptionName

def longName : OptionName → Text
  | .locations => "prefixes"
  | .output => "out"
  | .layout => "layout"
  | .singleFile => "single-file"
  | .excluded => "exclude"
  | .searchEnvironment => "search-env"
  | .workers => "jobs"
  | .collectErrors => "collect-errors"
  | .verbose => "verbose"
  | .file => "file"
  | .package => "package"
  | .names => "names"

def letter? : OptionName → Option CodePoint
  | .output => some 'o'
  | .workers => some 'j'
  | .verbose => some 'v'
  | .package => some 'p'
  | _ => none

/-- How many values an option has. -/
inductive Role where
  | switch
  | single
  | collection
  deriving DecidableEq

def role : OptionName → Role
  | .singleFile | .searchEnvironment | .collectErrors | .verbose => .switch
  | .locations | .excluded | .names => .collection
  | .output | .layout | .workers | .file | .package => .single

end OptionName

/-- What an argument that names an option asks for. -/
inductive OptionUse where
  /-- The option with a value. -/
  | value (option : OptionName)
  | switch (option : OptionName) (on : Bool)
  /-- A collection of nothing. -/
  | nothing (option : OptionName)
  deriving DecidableEq

namespace OptionUse

/-- The use of an option under its own name. -/
def ofOption (option : OptionName) : OptionUse :=
  if option.role = .switch then .switch option true else .value option

/-- A long name as it is compared. -/
def normalName (name : Text) : Text :=
  name.lower.map fun (c : CodePoint) => if c = '_' then CodePoint.ofChar '-' else c

/-- The use of an option that a long name asks for. -/
def ofLongOf? (name : Text) (option : OptionName) : Option OptionUse :=
  if name = option.longName then some (ofOption option)
  else if option.role = .switch ∧ name = "no-" ++ option.longName then
    some (.switch option false)
  else if option.role = .collection ∧ name = "empty-" ++ option.longName then
    some (.nothing option)
  else none

/-- The use that a long name asks for, among some options. -/
def ofLong? (options : List OptionName) (name : Text) : Option OptionUse :=
  options.findSome? (ofLongOf? (normalName name))

/-- The use that a letter asks for, among some options. -/
def ofLetter? (options : List OptionName) (letter : CodePoint) : Option OptionUse :=
  (options.find? fun option => option.letter? = some letter).map ofOption

end OptionUse

end RosInterface
