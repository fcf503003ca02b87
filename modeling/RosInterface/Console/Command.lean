/-
# RosInterface.Console.Command -- the commands

There are three commands: one generates modules, one describes a definition file,
one shows the stems of names.  `Command.ofArguments?` reads a command with its
arguments.  What a command needs has to be given, and every value has to be one of
its option; nothing is said about a list that is not well formed.
-/
import RosInterface.Compile
import RosInterface.Console.Arguments

set_option autoImplicit false

namespace RosInterface

inductive Command where
  /-- Generate modules. -/
  | generate (settings : Settings)
  /-- Describe one definition file, as if it belonged to the given package. -/
  | describe (file : Path) (package : Option Text)
  /-- Show the module stems of names. -/
  | stems (names : List Text)
  deriving DecidableEq

namespace Command

def generateOptions : List OptionName :=
  [.locations, .output, .layout, .singleFile, .excluded, .searchEnvironment, .workers,
   .collectErrors, .verbose]

/-- Generate modules into a folder, with the settings that the options ask for. -/
def generateOf? (arguments : Arguments) : Option Command := do
  let output ← arguments.value? .output
  let layout ← match arguments.value? .layout with
    | none => some .package
    | some name => OptionValue.layout? name
  let workers ← match arguments.value? .workers with
    | none => some none
    | some count => OptionValue.workers? count
  let locations := arguments.positional ++ arguments.values .locations
  return .generate {
    locations := locations.flatMap OptionValue.paths
    searchEnvironment := arguments.isOn .searchEnvironment true
    excluded := Settings.usuallyExcluded ++ arguments.values .excluded
    output := some (Path.ofText output)
    layout := if arguments.isOn .singleFile false then .single else layout
    workers
    failFast := !arguments.isOn .collectErrors false
    comments := true }

/-- Describe a file. -/
def describeOf? (arguments : Arguments) : Option Command := do
  let file ← (arguments.positional ++ arguments.values .file).head?
  return .describe (Path.ofText file) (arguments.value? .package)

/-- Show the stems of some names. -/
def stemsOf (arguments : Arguments) : Command :=
  .stems (arguments.positional ++ arguments.values .names)

/-- The command that an argument list asks for; the first argument names it. -/
def ofArguments? : List Text → Option Command
  | [] => none
  | name :: rest =>
      if name = "generate" then (Arguments.ofList? generateOptions rest).bind generateOf?
      else if name = "show" then (Arguments.ofList? [.file, .package] rest).bind describeOf?
      else if name = "symbol" then (Arguments.ofList? [.names] rest).map stemsOf
      else none

end Command

end RosInterface
