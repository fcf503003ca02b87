/-
# RosInterface.Proofs.Output.Enumeration -- three lists of the classes of a definition

A definition brings classes that it does not spell, and three functions list them: the scope
of a module lists their names before they are made, the generator declares them, and the
description of a file shows a table for each message.  The three lists are the same
(`Package.enumerations_agree`).  The names of the scope are those of the declarations; the
tables are, in their order, the data classes that are declared, with the same constants and
fields; and a class that binds others stands after all that it binds, so a module can be
executed from top to bottom (`ClassDeclaration.DefinedFirst`).
-/
import RosInterface.Console.Report
import RosInterface.Proofs.Output.Layout
import RosInterface.Proofs.Output.Reference

set_option autoImplicit false

namespace RosInterface

namespace ClassDeclaration

/-! ## The order of declarations -/

/-- A class that binds others stands after each of them. -/
def DefinedFirst (declarations : List ClassDeclaration) : Prop :=
  ∀ before declared after, declarations = before ++ .interface declared :: after →
    ∀ binding ∈ declared.bindings, binding.2 ∈ before.map (·.name)

variable {declarations others : List ClassDeclaration}

/-- What stands behind declarations may bind these as well as its own. -/
theorem DefinedFirst.behind (first : DefinedFirst declarations)
    (second : ∀ before declared after, others = before ++ .interface declared :: after →
      ∀ binding ∈ declared.bindings, binding.2 ∈ (declarations ++ before).map (·.name)) :
    DefinedFirst (declarations ++ others) := by
  intro before declared after whole
  rcases List.append_eq_append_iff.1 whole with ⟨own, rfl, rest⟩ | ⟨more, rest, behind⟩
  · exact second own declared after rest
  · cases more with
    | nil =>
        rw [List.append_nil] at rest
        intro binding bound
        have earlier := second [] declared after behind.symm binding bound
        rwa [List.append_nil, rest] at earlier
    | cons next more =>
        obtain ⟨rfl, -⟩ := List.cons.inj behind
        exact first before declared more rest

theorem DefinedFirst.append (first : DefinedFirst declarations) (second : DefinedFirst others) :
    DefinedFirst (declarations ++ others) := by
  refine first.behind fun before declared after whole binding bound => ?_
  rw [List.map_append]
  exact List.mem_append_right _ (second before declared after whole binding bound)

theorem DefinedFirst.concat (first : DefinedFirst declarations) (declared : InterfaceClass)
    (bound : ∀ binding ∈ declared.bindings, binding.2 ∈ declarations.map (·.name)) :
    DefinedFirst (declarations ++ [.interface declared]) := by
  refine first.behind fun before other after whole => ?_
  cases before with
  | nil =>
      cases whole
      rwa [List.append_nil]
  | cons next before => simp at whole

/-- Data classes bind nothing. -/
theorem definedFirst_messages (scope : Scope) (messages : List Message) :
    DefinedFirst (messages.map (ofMessage scope)) := by
  intro before declared after whole
  obtain ⟨_, rest, -, -, behind⟩ := List.map_eq_append_iff.1 whole
  obtain ⟨_, _, -, isMessage, -⟩ := List.map_eq_cons_iff.1 behind
  cases isMessage

theorem definedFirst_ofService (scope : Scope) (service : Service) :
    DefinedFirst (ofService scope service) := by
  refine (definedFirst_messages scope [service.request, service.response]).concat _ ?_
  simp [name, ofMessage]

theorem definedFirst_ofAction (scope : Scope) (action : Action) :
    DefinedFirst (ofAction scope action) := by
  have written := definedFirst_messages scope [action.goal, action.result, action.feedback]
  have services := (definedFirst_ofService scope action.sendGoal).append
    (definedFirst_ofService scope action.getResult)
  have feedback := definedFirst_messages scope [action.feedbackMessage]
  refine ((written.append services).append feedback).concat ⟨_, _, _⟩ ?_
  simp [name, ofMessage, ofService]

/-- The classes of a definition stand in an order in which they can be made. -/
theorem definedFirst_ofInterface (scope : Scope) (interface : Interface) :
    DefinedFirst (ofInterface scope interface) := by
  cases interface with
  | message m => exact definedFirst_messages scope [m]
  | service s => exact definedFirst_ofService scope s
  | action a => exact definedFirst_ofAction scope a

theorem definedFirst_flatMap (scope : Scope) (interfaces : List Interface) :
    DefinedFirst (interfaces.flatMap (ofInterface scope)) := by
  induction interfaces with
  | nil => exact definedFirst_messages scope []
  | cons interface rest ih => exact (definedFirst_ofInterface scope interface).append ih

/-! ## The data classes -/

def message? : ClassDeclaration → Option MessageClass
  | .message declared => some declared
  | .interface _ => none

/-- The data classes among some declarations, in their order. -/
def messageClasses (declarations : List ClassDeclaration) : List MessageClass :=
  declarations.filterMap (·.message?)

/-- The data class of a message. -/
def messageClass (scope : Scope) (message : Message) : MessageClass where
  name := message.name
  typeName := ⟨message.package, scope.kind, message.name⟩
  fields := message.members.map (ofMember scope)
  constants := message.constants.map (ofConstant scope)

/-- The data classes of a definition are those of its messages, in the order in which these
are presented. -/
theorem messageClasses_ofInterface (scope : Scope) (interface : Interface) :
    messageClasses (ofInterface scope interface) =
      interface.messages.map (messageClass scope) := by
  cases interface <;> rfl

end ClassDeclaration

/-! ## The tables of a description -/

/-- A table shows a data class: its type, then a row for each constant and one for each field,
which is named as the attribute of the class is. -/
structure Table.Shows (table : Table) (declared : MessageClass) : Prop where
  title : table.title = declared.typeName.text
  rows : ∃ constants members, table.rows = constants ++ members ∧
    List.Forall₂ (fun row constant => ∃ type value, row = [constant.name, type, value])
      constants declared.constants ∧
    List.Forall₂ (fun row field => ∃ name value,
        row = [name, Markup.escape field.schemaType.text, value] ∧
          field.name = Text.attributeName name)
      members declared.fields

theorem Report.shows_messageTable (scope : Scope) (message : Message) :
    (messageTable scope.kind message).Shows (ClassDeclaration.messageClass scope message) := by
  refine ⟨rfl, _, _, rfl, ?_, ?_⟩
  · refine List.forall₂_map_left_iff.2 (List.forall₂_map_right_iff.2 (List.forall₂_same.2 ?_))
    exact fun constant _ => ⟨_, _, rfl⟩
  · refine List.forall₂_map_left_iff.2 (List.forall₂_map_right_iff.2 (List.forall₂_same.2 ?_))
    exact fun member _ => ⟨_, _, rfl, rfl⟩

namespace Command

/-- The package that a file is described for: the one that is given, or the one of its
place. -/
inductive DescribedFor (tree : FileTree) (file : Path) : Option Text → Text → Prop
  | given {name : Text} (nonempty : name ≠ []) : DescribedFor tree file (some name) name
  | byPlace {option : Option Text} {name : Text} (missing : option.getD [] = [])
      (found : packageByPlace tree file = .ok name) : DescribedFor tree file option name

variable {tree : FileTree} {file : Path} {option : Option Text} {name : Text}
  {interface : Interface}

/-- A definition that is read is described by the tables of its messages. -/
theorem describeReport_of_read (described : DescribedFor tree file option name)
    (read : Interface.ofFile tree name file = .ok interface) :
    describeReport file option tree =
      .ok ⟨0, (interface.messages.map (Report.messageTable interface.kind)).map fun table =>
        (.out, .table table), tree⟩ := by
  cases described with
  | given nonempty =>
      obtain ⟨c, rest, rfl⟩ := List.exists_cons_of_ne_nil nonempty
      simp only [describeReport, pure_bind, read]
  | byPlace missing found =>
      match option, missing with
      | none, _ | some [], _ => simp only [describeReport, found, Outcome.ok_bind, read]

/-- A service file below the folder of its package; its member has a reserved word for a
name. -/
def describedTree : FileTree where
  root := .folder [("p", .folder [("srv", .folder [("Toggle.srv",
    .file ((Text.ofString "bool class\n---\nuint8 CODE=7\n").flatMap Utf8.bytesOf))])])]
  workingFolder := []

def describedFile : Path := ⟨.root, ["p", "srv", "Toggle.srv"]⟩

end Command

/-! ## The three lists -/

namespace Package

variable {package : Package} {layout : ModuleLayout} {kind : Kind} {interfaces : List Interface}

/-- A scope knows the classes of a module before they are made. -/
theorem mem_localNames_iff {name : Text} :
    name ∈ (package.scopeOf layout kind interfaces).localNames ↔
      name ∈ (package.declarations layout kind interfaces).map (·.name) := by
  have known : (package.scopeOf layout kind interfaces).localNames =
      interfaces.flatMap (·.classNames) := rfl
  rw [known, declarations, List.map_flatMap, List.mem_flatMap, List.mem_flatMap]
  exact exists_congr fun interface => and_congr_right fun _ =>
    (ClassDeclaration.perm_names_ofInterface _ interface).mem_iff.symm

/-- **The classes of definitions are listed in one way.**  A scope knows exactly the classes
that are declared, they are declared after those that they bind, and a described file shows its
data classes as they are declared. -/
theorem enumerations_agree (package : Package) (layout : ModuleLayout) :
    (∀ kind interfaces name, name ∈ (package.scopeOf layout kind interfaces).localNames ↔
        name ∈ (package.declarations layout kind interfaces).map (·.name)) ∧
      (∀ kind interfaces,
        ClassDeclaration.DefinedFirst (package.declarations layout kind interfaces)) ∧
      ∀ tree file option name interface, Command.DescribedFor tree file option name →
        Interface.ofFile tree name file = .ok interface →
        ∃ tables : List Table,
          Command.describeReport file option tree =
              .ok ⟨0, tables.map fun table => (.out, .table table), tree⟩ ∧
            List.Forall₂ Table.Shows tables (ClassDeclaration.messageClasses
              (package.declarations layout interface.kind [interface])) := by
  refine ⟨fun _ _ _ => mem_localNames_iff, fun _ interfaces =>
    ClassDeclaration.definedFirst_flatMap _ interfaces, ?_⟩
  intro tree file option name interface described read
  refine ⟨_, Command.describeReport_of_read described read, ?_⟩
  have own : package.declarations layout interface.kind [interface] =
      ClassDeclaration.ofInterface (package.scopeOf layout interface.kind [interface]) interface :=
    List.flatMap_singleton _ _
  rw [own, ClassDeclaration.messageClasses_ofInterface]
  refine List.forall₂_map_left_iff.2 (List.forall₂_map_right_iff.2 (List.forall₂_same.2 ?_))
  exact fun message _ =>
    Report.shows_messageTable (package.scopeOf layout interface.kind [interface]) message

open Command (describedTree describedFile) in
theorem enumerations_agree_described :
    ∃ interface, Interface.ofFile describedTree "p" describedFile = .ok interface ∧
      ∃ tables : List Table,
        Command.describeReport describedFile none describedTree =
            .ok ⟨0, tables.map fun table => (.out, .table table), describedTree⟩ ∧
          List.Forall₂ Table.Shows tables (ClassDeclaration.messageClasses
            (sample.declarations .single interface.kind [interface])) := by
  have place : Command.packageByPlace describedTree describedFile = .ok "p" := by decide +kernel
  let bool : FieldType := .single (.primitive (.basic .bool))
  let uint8 : FieldType := .single (.primitive (.basic (.integer .uint8)))
  have read : Interface.ofFile describedTree "p" describedFile = .ok (.service
      ⟨"p", "Toggle", ⟨"p", "Toggle_Request", [⟨"class", bool, none⟩], []⟩,
        ⟨"p", "Toggle_Response", [], [⟨"CODE", uint8, ["7"]⟩]⟩⟩) := by decide +kernel
  exact ⟨_, read, (enumerations_agree sample .single).2.2 _ _ _ _ _ (.byPlace rfl place) read⟩

end Package

end RosInterface
