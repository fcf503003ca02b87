/-
# RosInterface.Output.Reference -- how a module spells a class

A field that refers to another definition names its class.  Inside the module
that declares the class the bare name is enough; from anywhere else the name is
qualified by package and kind, and that module has to be imported.  A `Scope`
holds what decides this: the package and kind of the module, the names of the
classes that it declares, and whether bare names are ruled out altogether.  A
bare name in a definition means a message of the same package.
-/
import RosInterface.Schema.Interface

set_option autoImplicit false

namespace RosInterface

/-- The name of a class as it stands in a module. -/
inductive ClassRef where
  | bare (name : Text)
  | qualified (type : TypeName)
  deriving DecidableEq

/-- The module of the classes of one kind in a package. -/
def TypeName.moduleName (type : TypeName) : Text := type.package ++ "." ++ type.kind.text

namespace ClassRef

def text : ClassRef → Text
  | .bare name => name
  | .qualified type => type.moduleName ++ "." ++ type.name

/-- The module that has to be imported for a name. -/
def imported? : ClassRef → Option Text
  | .bare _ => none
  | .qualified type => some type.moduleName

end ClassRef

/-- The module that a name is resolved in. -/
structure Scope where
  package : Text
  kind : Kind
  localNames : List Text
  qualifiedOnly : Bool
  deriving DecidableEq

namespace Scope

/-- The spelling of a full name. -/
def reference (scope : Scope) (type : TypeName) : ClassRef :=
  if !scope.qualifiedOnly ∧ type.package = scope.package ∧ type.kind = scope.kind ∧
      scope.localNames.contains type.name then .bare type.name
  else .qualified type

/-- The full name that a bare one stands for. -/
def fullName (scope : Scope) (name : Text) : TypeName := ⟨scope.package, .message, name⟩

end Scope

namespace Service

/-- The names of the classes that a service brings. -/
def classNames (service : Service) : List Text :=
  [service.name, service.request.name, service.response.name]

end Service

/-- The names of the classes that a definition brings, its own first. -/
def Interface.classNames : Interface → List Text
  | .message m => [m.name]
  | .service s => s.classNames
  | .action a =>
      [a.name, a.goal.name, a.result.name, a.feedback.name] ++ a.sendGoal.classNames ++
        a.getResult.classNames ++ [a.feedbackMessage.name]

/-- The scope of a module that holds the given definitions. -/
def Scope.ofInterfaces (package : Text) (kind : Kind) (interfaces : List Interface)
    (qualifiedOnly : Bool) : Scope :=
  ⟨package, kind, interfaces.flatMap (·.classNames), qualifiedOnly⟩

end RosInterface
