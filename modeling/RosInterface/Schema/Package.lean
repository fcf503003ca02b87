/-
# RosInterface.Schema.Package -- the definitions of one package

A package keeps its messages, services and actions apart, each list sorted by
name and stable among equal names.  It also remembers which files below a share
directory it was read from.
-/
import RosInterface.Schema.Interface
import RosInterface.Files.Path

set_option autoImplicit false

namespace RosInterface

structure Package where
  name : Text
  messages : List Message
  services : List Service
  actions : List Action
  /-- The definition files, relative to a share directory. -/
  shareFiles : List Path
  deriving DecidableEq

namespace Package

/-- The package of some definitions, which may come in any order. -/
def ofInterfaces (name : Text) (interfaces : List Interface) (shareFiles : List Path) :
    Package where
  name
  messages := Text.sortOn (·.name) <| interfaces.filterMap fun
    | .message message => some message
    | _ => none
  services := Text.sortOn (·.name) <| interfaces.filterMap fun
    | .service service => some service
    | _ => none
  actions := Text.sortOn (·.name) <| interfaces.filterMap fun
    | .action action => some action
    | _ => none
  shareFiles

/-- The definitions of one kind, by name. -/
def interfaces (package : Package) : Kind → List Interface
  | .message => package.messages.map .message
  | .service => package.services.map .service
  | .action => package.actions.map .action

/-- Kind and name of every definition, in the order of presentation. -/
def declarationNames (package : Package) : List (Kind × Text) :=
  Kind.all.flatMap fun kind => (package.interfaces kind).map fun interface => (kind, interface.name)

def isEmpty (package : Package) : Bool :=
  package.messages.isEmpty && package.services.isEmpty && package.actions.isEmpty

end Package

end RosInterface
