/-
# RosInterface.Schema.Interface -- messages, services and actions

A message is an ordered list of members and an ordered list of constants.  A
service is a request and a response; an action is a goal, a result and a
feedback, and it brings two services and one message of its own: the ones that
send a goal, fetch a result and publish a feedback.  `Interface.messages` lists
the messages of a definition in the order in which they are presented, the
derived ones after the written ones.

`Interface.text` writes a definition again, constants before members and a
separator line between sections.
-/
import RosInterface.Schema.Item

set_option autoImplicit false

namespace RosInterface

structure Message where
  package : Text
  name : Text
  members : List Member
  constants : List Constant
  deriving DecidableEq

namespace Message

/-- The names that a message declares, members first. -/
def declaredNames (message : Message) : List Text :=
  message.members.map (·.name) ++ message.constants.map (·.name)

/-- The names declared more than once, each once and in order. -/
def repeatedNames (message : Message) : List Text :=
  let names := message.declaredNames
  (Text.sort names.eraseDups).filter fun name => 1 < names.count name

def text (message : Message) : Text :=
  Text.joined "\n" (message.constants.map (·.text) ++ message.members.map (·.text))

end Message

structure Service where
  package : Text
  name : Text
  request : Message
  response : Message
  deriving DecidableEq

def Service.text (service : Service) : Text :=
  Text.joined "\n" [service.request.text, "---", service.response.text]

structure Action where
  package : Text
  name : Text
  goal : Message
  result : Message
  feedback : Message
  deriving DecidableEq

namespace Action

def text (action : Action) : Text :=
  Text.joined "\n"
    [action.goal.text, "---", action.result.text, "---", action.feedback.text]

/-- A member without a default. -/
def plain (name : Text) (element : ElementType) : Member := ⟨name, .single element, none⟩

/-- The identifier that ties the parts of one goal together. -/
def goalId : Member := plain "goal_id" (.qualified ⟨"unique_identifier_msgs", .message, "UUID"⟩)

/-- A member that holds one of the action's own messages. -/
def own (action : Action) (member suffix : Text) : Member :=
  plain member (.qualified ⟨action.package, .action, action.name ++ suffix⟩)

/-- A service derived from the action, named by `stem`. -/
def derivedService (action : Action) (stem : Text) (request response : List Member) : Service :=
  let name := action.name ++ stem
  { package := action.package, name
    request := ⟨action.package, name ++ "_Request", request, []⟩
    response := ⟨action.package, name ++ "_Response", response, []⟩ }

/-- The service that submits a goal. -/
def sendGoal (action : Action) : Service :=
  action.derivedService "_SendGoal" [goalId, action.own "goal" "_Goal"]
    [plain "accepted" (.primitive (.basic .bool)),
     plain "stamp" (.qualified ⟨"builtin_interfaces", .message, "Time"⟩)]

/-- The service that fetches a result. -/
def getResult (action : Action) : Service :=
  action.derivedService "_GetResult" [goalId]
    [plain "status" (.primitive (.basic (.integer .int8))), action.own "result" "_Result"]

/-- The message that is published with each feedback. -/
def feedbackMessage (action : Action) : Message :=
  ⟨action.package, action.name ++ "_FeedbackMessage",
   [goalId, action.own "feedback" "_Feedback"], []⟩

end Action

/-- A definition of any kind. -/
inductive Interface where
  | message (message : Message)
  | service (service : Service)
  | action (action : Action)
  deriving DecidableEq

namespace Interface

def kind : Interface → Kind
  | .message _ => .message
  | .service _ => .service
  | .action _ => .action

def name : Interface → Text
  | .message m => m.name
  | .service s => s.name
  | .action a => a.name

def text : Interface → Text
  | .message m => m.text
  | .service s => s.text
  | .action a => a.text

/-- The messages of a definition, written ones first. -/
def messages : Interface → List Message
  | .message m => [m]
  | .service s => [s.request, s.response]
  | .action a =>
      [a.goal, a.result, a.feedback, a.sendGoal.request, a.sendGoal.response,
       a.getResult.request, a.getResult.response, a.feedbackMessage]

end Interface

end RosInterface
