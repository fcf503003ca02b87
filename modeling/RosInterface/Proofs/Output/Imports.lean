/-
# RosInterface.Proofs.Output.Imports -- references are closed and imports exact

A module refers to the classes of other definitions from its fields.  A reference is
closed when the name that stands there means something in the module: it is the bare
name of a class that the module declares, or a full name from a module that it imports.
`ModuleFile.Closed` says this of every field, that the choice between the two is made by
what the module declares and by nothing else, and that nothing is imported in vain.

The scope of a module decides by a list of names that is made apart from the classes;
`Package.bare_iff_declares` is what keeps the two together.  The main result is
`Package.references_closed`, for all layouts.
-/
import RosInterface.Proofs.Definition.Package
import RosInterface.Proofs.Output.Layout
import RosInterface.Proofs.Output.Reference

set_option autoImplicit false

namespace RosInterface

namespace ModuleFile

/-- A field of a data class of the module. -/
def HasField (file : ModuleFile) (field : FieldDeclaration) : Prop :=
  ∃ declared, .message declared ∈ file.declarations ∧ field ∈ declared.fields

/-- A field of a module in a package refers to a definition. -/
def Refers (file : ModuleFile) (package : Text) (field : FieldDeclaration) (type : TypeName) :
    Prop :=
  file.HasField field ∧ field.schemaType.element.target? package = some type

/-- The module, being one of the given package and kind, declares the class of a full
name. -/
def Declares (file : ModuleFile) (package : Text) (kind : Kind) (type : TypeName) : Prop :=
  type.package = package ∧ type.kind = kind ∧ ∃ d ∈ file.declarations, d.name = type.name

/-- What holds of the references of a module of the given package and kind. -/
structure Closed (file : ModuleFile) (package : Text) (kind : Kind) : Prop where
  bare_iff : ∀ field type, file.Refers package field type →
    (field.Spells type.name ↔ file.Declares package kind type)
  qualified : ∀ field type, file.Refers package field type → ¬ file.Declares package kind type →
    field.Spells (type.moduleName ++ "." ++ type.name) ∧ type.moduleName ∈ file.imports
  used : ∀ imported ∈ file.imports, ∃ field type, file.Refers package field type ∧
    ¬ file.Declares package kind type ∧ imported = type.moduleName

theorem mem_importsOf_iff {declarations : List ClassDeclaration} {imported : Text} :
    imported ∈ importsOf declarations ↔
      ∃ d ∈ declarations, ∃ ref ∈ d.references, ref.imported? = some imported := by
  rw [importsOf, (Text.perm_sort _).mem_iff, List.mem_eraseDups, List.mem_filterMap]
  simp only [List.mem_flatMap]
  constructor
  · rintro ⟨ref, ⟨d, declared, made⟩, found⟩
    exact ⟨d, declared, ref, made, found⟩
  · rintro ⟨d, declared, ref, made, found⟩
    exact ⟨ref, ⟨d, declared, made⟩, found⟩

end ModuleFile

/-- A full name is longer than the name. -/
theorem TypeName.qualified_ne_bare (type : TypeName) :
    (ClassRef.qualified type).text ≠ (ClassRef.bare type.name).text := by
  intro same
  have lengths := congrArg List.length same
  simp [ClassRef.text, moduleName, Text.ofString] at lengths
  omega

namespace Package

variable {package : Package} {layout : ModuleLayout} {kind : Kind} {path : Path}
  {interfaces : List Interface}

/-! ## The module of some definitions -/

/-- A module declares the names that its definitions are said to bring. -/
theorem exists_name_iff {name : Text} :
    (∃ d ∈ (package.moduleOf layout kind path interfaces).declarations, d.name = name) ↔
      ∃ i ∈ interfaces, name ∈ i.classNames := by
  rw [declarations_moduleOf]
  simp only [List.mem_flatMap]
  constructor
  · rintro ⟨d, ⟨i, inModule, made⟩, named⟩
    exact ⟨i, inModule, ClassDeclaration.mem_classNames_iff.2 ⟨d, made, named⟩⟩
  · rintro ⟨i, inModule, brought⟩
    obtain ⟨d, made, named⟩ := ClassDeclaration.mem_classNames_iff.1 brought
    exact ⟨d, ⟨i, inModule, made⟩, named⟩

theorem hasField_moduleOf_iff {field : FieldDeclaration} :
    (package.moduleOf layout kind path interfaces).HasField field ↔
      ∃ i ∈ interfaces, ∃ m ∈ i.messages, ∃ member ∈ m.members,
        field = ClassDeclaration.ofMember (package.scopeOf layout kind interfaces) member := by
  unfold ModuleFile.HasField
  simp only [declarations_moduleOf, List.mem_flatMap, ClassDeclaration.message_mem_ofInterface_iff]
  constructor
  · rintro ⟨declared, ⟨i, inModule, m, inMessages, same⟩, inFields⟩
    cases same
    obtain ⟨member, inMembers, rfl⟩ := List.mem_map.1 inFields
    exact ⟨i, inModule, m, inMessages, member, inMembers, rfl⟩
  · rintro ⟨i, inModule, m, inMessages, member, inMembers, rfl⟩
    exact ⟨_, ⟨i, inModule, m, inMessages, rfl⟩, List.mem_map_of_mem inMembers⟩

/-- What decides about a reference is whether bare names are allowed and the module
declares the class. -/
theorem bare_iff_declares (path : Path) {type : TypeName} :
    (!(package.scopeOf layout kind interfaces).qualifiedOnly ∧
        type.package = (package.scopeOf layout kind interfaces).package ∧
        type.kind = (package.scopeOf layout kind interfaces).kind ∧
        (package.scopeOf layout kind interfaces).localNames.contains type.name) ↔
      layout ≠ .single ∧
        (package.moduleOf layout kind path interfaces).Declares package.name kind type := by
  have names : (package.scopeOf layout kind interfaces).localNames.contains type.name = true ↔
      ∃ d ∈ (package.moduleOf layout kind path interfaces).declarations, d.name = type.name := by
    rw [List.contains_iff_mem, exists_name_iff]
    exact List.mem_flatMap
  have allowed : (!(package.scopeOf layout kind interfaces).qualifiedOnly) = true ↔
      layout ≠ .single := by
    simp [scopeOf, Scope.ofInterfaces]
  rw [names, allowed]
  rfl

theorem reference_of_declares (path : Path) {type : TypeName} (allowed : layout ≠ .single)
    (declares :
      (package.moduleOf layout kind path interfaces).Declares package.name kind type) :
    (package.scopeOf layout kind interfaces).reference type = .bare type.name :=
  if_pos ((bare_iff_declares path).2 ⟨allowed, declares⟩)

theorem reference_of_not_declares (path : Path) {type : TypeName}
    (foreign : layout ≠ .single →
      ¬ (package.moduleOf layout kind path interfaces).Declares package.name kind type) :
    (package.scopeOf layout kind interfaces).reference type = .qualified type := by
  refine if_neg fun bare => ?_
  obtain ⟨allowed, declares⟩ := (bare_iff_declares path).1 bare
  exact foreign allowed declares

/-- The fields of a module spell what they refer to as its scope does. -/
theorem spells_of_refers {field : FieldDeclaration} {type : TypeName}
    (refers : (package.moduleOf layout kind path interfaces).Refers package.name field type) :
    field.Spells ((package.scopeOf layout kind interfaces).reference type).text := by
  obtain ⟨inModule, target⟩ := refers
  obtain ⟨i, -, m, -, member, -, rfl⟩ := hasField_moduleOf_iff.1 inModule
  exact ClassDeclaration.spells_ofMember target

theorem spells_bare {field : FieldDeclaration} {type : TypeName} (allowed : layout ≠ .single)
    (refers : (package.moduleOf layout kind path interfaces).Refers package.name field type)
    (declares :
      (package.moduleOf layout kind path interfaces).Declares package.name kind type) :
    field.Spells type.name := by
  have spells := spells_of_refers refers
  rwa [reference_of_declares path allowed declares] at spells

theorem spells_full {field : FieldDeclaration} {type : TypeName}
    (refers : (package.moduleOf layout kind path interfaces).Refers package.name field type)
    (foreign : layout ≠ .single →
      ¬ (package.moduleOf layout kind path interfaces).Declares package.name kind type) :
    field.Spells (type.moduleName ++ "." ++ type.name) := by
  have spells := spells_of_refers refers
  rwa [reference_of_not_declares path foreign] at spells

/-! ## Imports -/

/-- The references of a module are those of its fields. -/
theorem mem_references_iff {ref : ClassRef}
    (plain : ∀ i ∈ interfaces, ∀ m ∈ i.messages, ∀ c ∈ m.constants, c.type.ForConstant) :
    (∃ d ∈ (package.moduleOf layout kind path interfaces).declarations, ref ∈ d.references) ↔
      ∃ field type, (package.moduleOf layout kind path interfaces).Refers package.name field type ∧
        ref = (package.scopeOf layout kind interfaces).reference type := by
  simp only [declarations_moduleOf, List.mem_flatMap]
  constructor
  · rintro ⟨d, ⟨i, inModule, made⟩, inReferences⟩
    cases d with
    | interface _ => cases inReferences
    | message _ =>
        obtain ⟨m, inMessages, same⟩ := ClassDeclaration.message_mem_ofInterface_iff.1 made
        rw [same, ClassDeclaration.mem_references_ofMessage_iff (plain i inModule m inMessages)]
          at inReferences
        obtain ⟨member, inMembers, type, target, rfl⟩ := inReferences
        refine ⟨ClassDeclaration.ofMember (package.scopeOf layout kind interfaces) member, type,
          ⟨?_, target⟩, rfl⟩
        exact hasField_moduleOf_iff.2 ⟨i, inModule, m, inMessages, member, inMembers, rfl⟩
  · rintro ⟨field, type, ⟨inModule, target⟩, rfl⟩
    obtain ⟨i, given, m, inMessages, member, inMembers, rfl⟩ := hasField_moduleOf_iff.1 inModule
    refine ⟨_, ⟨i, given, ClassDeclaration.message_mem_ofInterface_iff.2 ⟨m, inMessages, rfl⟩⟩, ?_⟩
    exact (ClassDeclaration.mem_references_ofMessage_iff (plain i given m inMessages)).2
      ⟨member, inMembers, type, target, rfl⟩

/-- A module of some definitions is closed where bare names are allowed. -/
theorem closed_moduleOf (allowed : layout ≠ .single)
    (plain : ∀ i ∈ interfaces, ∀ m ∈ i.messages, ∀ c ∈ m.constants, c.type.ForConstant) :
    (package.moduleOf layout kind path interfaces).Closed package.name kind := by
  have imports : (package.moduleOf layout kind path interfaces).imports = ModuleFile.importsOf
      (package.moduleOf layout kind path interfaces).declarations := if_neg allowed
  refine ⟨fun field type refers => ⟨fun bare => ?_, spells_bare allowed refers⟩,
    fun field type refers foreign => ⟨spells_full refers fun _ => foreign, ?_⟩,
    fun imported member => ?_⟩
  · by_contra foreign
    exact type.qualified_ne_bare ((spells_full refers fun _ => foreign).unique bare)
  · obtain ⟨d, declared, inReferences⟩ :=
      (mem_references_iff plain).2 ⟨field, type, refers, rfl⟩
    rw [imports, ModuleFile.mem_importsOf_iff]
    refine ⟨d, declared, _, inReferences, ?_⟩
    rw [reference_of_not_declares path fun _ => foreign]
    rfl
  · rw [imports, ModuleFile.mem_importsOf_iff] at member
    obtain ⟨d, declared, ref, inReferences, made⟩ := member
    obtain ⟨field, type, refers, rfl⟩ := (mem_references_iff plain).1 ⟨d, declared, inReferences⟩
    by_cases declares :
        (package.moduleOf layout kind path interfaces).Declares package.name kind type
    · rw [reference_of_declares path allowed declares] at made
      cases made
    · rw [reference_of_not_declares path fun _ => declares] at made
      cases made
      exact ⟨field, type, refers, declares, rfl⟩

/-- A module that only exports refers to nothing. -/
theorem closed_exportModule {named : List (Text × ModuleFile)} :
    (package.exportModule kind named).Closed package.name kind := by
  have noField (field : FieldDeclaration) : ¬ (package.exportModule kind named).HasField field := by
    rintro ⟨declared, member, -⟩
    cases member
  refine ⟨fun field _ refers => absurd refers.1 (noField field),
    fun field _ refers => absurd refers.1 (noField field), fun imported member => ?_⟩
  cases member

end Package

/-! ## Parsed packages -/

/-- A message of a definition is written in it, or it is derived and has no constants. -/
theorem Interface.mem_messages {interface : Interface} {message : Message}
    (member : message ∈ interface.messages) :
    message ∈ interface.sections ∨ message.constants = [] := by
  cases interface with
  | message _ | service _ => exact .inl member
  | action a =>
      simp only [messages, List.mem_cons, List.not_mem_nil, or_false] at member
      rcases member with rfl | rfl | rfl | rfl | rfl | rfl | rfl | rfl
      · exact .inl (by simp [sections])
      · exact .inl (by simp [sections])
      · exact .inl (by simp [sections])
      all_goals exact .inr rfl

theorem Interface.WellFormed.forConstant {interface : Interface} {package name : Text}
    (wellFormed : interface.WellFormed package name) :
    ∀ m ∈ interface.messages, ∀ c ∈ m.constants, c.type.ForConstant := by
  intro m inMessages c inConstants
  rcases mem_messages inMessages with written | none_
  · exact ((wellFormed.sections m written).constants c inConstants).forConstant
  · rw [none_] at inConstants
    cases inConstants

namespace Action

/-- The derived messages that hold a message of the action: in which member, and by
which suffix that message is named. -/
def holders (action : Action) : List (Message × Text × Text) :=
  [(action.sendGoal.request, "goal", "_Goal"), (action.getResult.response, "result", "_Result"),
   (action.feedbackMessage, "feedback", "_Feedback")]

variable {action : Action} {message : Message} {member suffix : Text}

theorem own_mem_holder (holds : (message, member, suffix) ∈ action.holders) :
    message ∈ (Interface.action action).messages ∧ action.own member suffix ∈ message.members ∧
      member.attributeName = member := by
  simp only [holders, List.mem_cons, List.not_mem_nil, or_false, Prod.mk.injEq] at holds
  rcases holds with ⟨rfl, rfl, rfl⟩ | ⟨rfl, rfl, rfl⟩ | ⟨rfl, rfl, rfl⟩
  · exact ⟨by simp [Interface.messages], by simp [sendGoal, derivedService], by decide⟩
  · exact ⟨by simp [Interface.messages], by simp [getResult, derivedService], by decide⟩
  · exact ⟨by simp [Interface.messages], by simp [feedbackMessage], by decide⟩

/-- A message that is held is declared with the action. -/
theorem held_mem_classNames {package name : Text}
    (wellFormed : (Interface.action action).WellFormed package name)
    (holds : (message, member, suffix) ∈ action.holders) :
    action.name ++ suffix ∈ (Interface.action action).classNames := by
  rw [wellFormed.mem_classNames_iff, ← show action.name = name from wellFormed.name_eq]
  refine ⟨suffix, ?_, rfl⟩
  simp only [holders, List.mem_cons, List.not_mem_nil, or_false, Prod.mk.injEq] at holds
  rcases holds with ⟨-, -, rfl⟩ | ⟨-, -, rfl⟩ | ⟨-, -, rfl⟩
  all_goals
    change _ ∈ Kind.classSuffixes .action
    decide

end Action

/-- The module declares a derived message whose member holds the class of a section of
the action, written by its bare name, and it declares that class too. -/
def ModuleFile.Resolves (file : ModuleFile) (action : Action) (message : Message)
    (member suffix : Text) : Prop :=
  ∃ declared, .message declared ∈ file.declarations ∧ declared.name = message.name ∧
    ∃ field ∈ declared.fields, field.name = member ∧ field.Spells (action.name ++ suffix) ∧
      ∃ d ∈ file.declarations, d.name = action.name ++ suffix

namespace Package

variable {package : Package} {layout : ModuleLayout}

theorem resolves_moduleOf {path : Path} {interfaces : List Interface} {action : Action}
    {message : Message} {member suffix : Text} (allowed : layout ≠ .single)
    (wellFormed : (Interface.action action).WellFormed package.name action.name)
    (given : .action action ∈ interfaces) (holds : (message, member, suffix) ∈ action.holders) :
    (package.moduleOf layout .action path interfaces).Resolves action message member suffix := by
  obtain ⟨inMessages, inMembers, named⟩ := Action.own_mem_holder holds
  have declared : ∃ d ∈ (package.moduleOf layout .action path interfaces).declarations,
      d.name = action.name ++ suffix :=
    exists_name_iff.2 ⟨_, given, Action.held_mem_classNames wellFormed holds⟩
  let scope := package.scopeOf layout .action interfaces
  have refers : (package.moduleOf layout .action path interfaces).Refers package.name
      (ClassDeclaration.ofMember scope (action.own member suffix))
      ⟨action.package, .action, action.name ++ suffix⟩ :=
    ⟨hasField_moduleOf_iff.2 ⟨_, given, message, inMessages, _, inMembers, rfl⟩, rfl⟩
  have inModule : ClassDeclaration.ofMessage scope message ∈
      ClassDeclaration.ofInterface scope (.action action) :=
    ClassDeclaration.message_mem_ofInterface_iff.2 ⟨message, inMessages, rfl⟩
  exact ⟨_, List.mem_flatMap.2 ⟨_, given, inModule⟩, rfl, _, List.mem_map_of_mem inMembers, named,
    spells_bare allowed refers ⟨wellFormed.package_eq, rfl, declared⟩, declared⟩

/-- A module of a package that makes a single file writes every reference in full. -/
theorem full_of_mem_files {file : ModuleFile} (inFiles : file ∈ package.files .single) :
    file.imports = [] ∧ ∀ field type, file.Refers package.name field type →
      field.Spells (type.moduleName ++ "." ++ type.name) := by
  have quiet (empty : file.declarations = []) (field : FieldDeclaration) :
      ¬ file.HasField field := by
    rintro ⟨declared, member, -⟩
    rw [empty] at member
    cases member
  rcases mem_files_iff.1 inFiles with rfl | ⟨kind, ofKind⟩
  · exact ⟨rfl, fun field _ refers => absurd refers.1 (quiet rfl field)⟩
  · rcases mem_kindFiles ofKind with ⟨named, rfl⟩ | ⟨path, interfaces, -, rfl⟩
    · exact ⟨rfl, fun field _ refers => absurd refers.1 (quiet rfl field)⟩
    · exact ⟨rfl, fun field type refers => spells_full refers fun single => absurd rfl single⟩

/-- **References are closed and imports exact.**  Where bare names are allowed, every
module is closed, and what an action derives finds the messages of the action in its own
module; in a single file every reference is full and nothing is imported. -/
theorem references_closed {files : List ModuleFile} (parsed : package.Parsed)
    (laidOut : package.modules layout = .ok files) :
    (layout ≠ .single →
      (∀ file ∈ files, ∀ kind, file.kind = some kind → file.Closed package.name kind) ∧
      ∀ action ∈ package.actions, ∃ file ∈ files, file.kind = some .action ∧
        ∀ message member suffix, (message, member, suffix) ∈ action.holders →
          file.Resolves action message member suffix) ∧
    (layout = .single → ∀ file ∈ files, file.imports = [] ∧
      ∀ field type, file.Refers package.name field type →
        field.Spells (type.moduleName ++ "." ++ type.name)) := by
  obtain ⟨-, rfl⟩ := modules_eq_ok_iff.1 laidOut
  refine ⟨fun allowed => ⟨?_, ?_⟩, ?_⟩
  · intro file inFiles kind ofKind
    rcases mem_kindFiles (mem_kindFiles_iff.2 ⟨inFiles, ofKind⟩) with
      ⟨named, rfl⟩ | ⟨path, interfaces, given, rfl⟩
    · exact closed_exportModule
    · exact closed_moduleOf allowed fun i member =>
        (parsed.wellFormed (given i member)).2.forConstant
  · intro action inActions
    have member : .action action ∈ package.interfaces .action := List.mem_map_of_mem inActions
    obtain ⟨path, interfaces, given, made⟩ := exists_moduleOf layout member
    obtain ⟨inFiles, ofKind⟩ := mem_kindFiles_iff.1 made
    exact ⟨_, inFiles, ofKind, fun message mem suffix holds =>
      resolves_moduleOf allowed (parsed.wellFormed member).2 given holds⟩
  · rintro rfl file inFiles
    exact full_of_mem_files inFiles

theorem references_closed_sample :
    ∃ files, sample.Parsed ∧ sample.modules .declaration = .ok files ∧
      (∀ file ∈ files, ∀ kind, file.kind = some kind → file.Closed "p" kind) ∧
      ∃ file ∈ files, file.kind = some .action ∧
        file.Resolves sampleMove sampleMove.sendGoal.request "goal" "_Goal" := by
  have laidOut : sample.modules .declaration = .ok (sample.files .declaration) :=
    modules_eq_ok_iff.2 ⟨stemsDistinct_sample, rfl⟩
  obtain ⟨closed, resolves⟩ := (references_closed sample_parsed laidOut).1 (by decide)
  have inActions : sampleMove ∈ sample.actions :=
    (Text.perm_sortOn _ _).mem_iff.2 (List.mem_singleton_self _)
  obtain ⟨file, inFiles, ofKind, each⟩ := resolves _ inActions
  exact ⟨_, sample_parsed, laidOut, closed, file, inFiles, ofKind, each _ _ _ List.mem_cons_self⟩

end Package

end RosInterface
