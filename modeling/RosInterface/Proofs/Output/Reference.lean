/-
# RosInterface.Proofs.Output.Reference -- how fields spell the classes they refer to

A field refers to another class in two places, its type hint and the factory of its
value, and `FieldDeclaration.Spells` says what stands there when the class is spelled in
a given way.  Both places take the spelling from the scope of the module, so a field of
a message that refers to a definition spells it as the scope does
(`ClassDeclaration.spells_ofMember`).

The scope of a module knows the names of its classes before they are made.  They are the
names of the classes that are made then (`ClassDeclaration.mem_classNames_iff`), although
the two are listed by different functions; and every one of them is the name of the
definition with an addition (`Interface.WellFormed.names_ofInterface`).
-/
import RosInterface.Output.ModuleFile
import RosInterface.Proofs.WellFormed

set_option autoImplicit false

namespace RosInterface

/-- What is added to a definition's name for the names of its classes, in order; nothing
for its own class, which comes last. -/
def Kind.classSuffixes : Kind → List Text
  | .message => [""]
  | .service => ["_Request", "_Response", ""]
  | .action =>
      ["_Goal", "_Result", "_Feedback", "_SendGoal_Request", "_SendGoal_Response", "_SendGoal",
       "_GetResult_Request", "_GetResult_Response", "_GetResult", "_FeedbackMessage", ""]

/-- The definition that an element type refers to, as a definition of the package means
it: a bare name is a message of the same package. -/
def ElementType.target? (package : Text) : ElementType → Option TypeName
  | .primitive _ => none
  | .named name => some ⟨package, .message, name⟩
  | .qualified type => some type

namespace FieldType

/-- The hint of a field of this type, by the class of its elements. -/
def hintText (item : Text) : FieldType → Text
  | .single _ => item
  | .array _ _ => "tuple[" ++ item ++ ", ...]"
  | .sequence _ | .boundedSequence _ _ => "list[" ++ item ++ "]"

/-- The factory of a field that holds objects of a class. -/
def factoryText (item : Text) : FieldType → Text
  | .single _ => "lambda: " ++ item ++ "()"
  | .array _ size => "lambda: tuple(" ++ item ++ "() for _ in range(" ++ Text.ofNat size ++ "))"
  | .sequence _ | .boundedSequence _ _ => "_builtins.list"

/-- A hint shows which class it is about. -/
theorem hintText_inj {type : FieldType} {s t : Text} :
    type.hintText s = type.hintText t ↔ s = t := by
  cases type <;> simp [hintText]

end FieldType

namespace FieldDeclaration

/-- The field writes `item` for the class that it refers to, in its hint and in its
factory. -/
structure Spells (field : FieldDeclaration) (item : Text) : Prop where
  hint : field.hint.text = field.schemaType.hintText item
  isFactory : field.initial.isFactory = true
  initial : field.initial.text = .ok (field.schemaType.factoryText item)

theorem Spells.unique {field : FieldDeclaration} {s t : Text} (first : field.Spells s)
    (second : field.Spells t) : s = t :=
  FieldType.hintText_inj.1 (first.hint.symm.trans second.hint)

end FieldDeclaration

namespace ClassDeclaration

/-! ## Fields -/

variable {scope : Scope} {member : Member} {type : TypeName}

/-- A member that refers to a definition has the hint and the value of a reference. -/
theorem ofMember_of_target (target : member.type.element.target? scope.package = some type) :
    (ofMember scope member).hint = ⟨member.type.multiplicity, .message (scope.reference type)⟩ ∧
      (ofMember scope member).initial = .ofReference (scope.reference type) member.type := by
  unfold ofMember TypeHint.ofType Initial.ofMember ValueClass.ofElement
  cases element : member.type.element with
  | primitive _ =>
      rw [element] at target
      cases target
  | named _ | qualified _ =>
      rw [element] at target
      cases target
      exact ⟨rfl, rfl⟩

/-- A field spells the definition that it refers to as the scope does. -/
theorem spells_ofMember (target : member.type.element.target? scope.package = some type) :
    (ofMember scope member).Spells (scope.reference type).text := by
  obtain ⟨hint, initial⟩ := ofMember_of_target target
  have schema : (ofMember scope member).schemaType = member.type := rfl
  refine ⟨?_, ?_, ?_⟩
  · rw [hint, schema]
    cases member.type <;> rfl
  · rw [initial]
    cases member.type <;> rfl
  · rw [initial, schema]
    cases member.type <;> rfl

/-! ## Messages -/

/-- A hint makes the reference of the type that it is for. -/
theorem reference?_ofType (scope : Scope) (type : FieldType) :
    (TypeHint.ofType scope type).item.reference? =
      (type.element.target? scope.package).map scope.reference := by
  unfold TypeHint.ofType
  cases type.element with
  | primitive primitive =>
      match primitive with
      | .basic .bool | .basic (.integer _) | .basic (.float _) | .string _ => rfl
  | named name => rfl
  | qualified type => rfl

/-- Only the members of a message refer to other definitions. -/
theorem mem_references_ofMessage_iff {message : Message} {ref : ClassRef}
    (plain : ∀ c ∈ message.constants, c.type.ForConstant) :
    ref ∈ (ofMessage scope message).references ↔
      ∃ member ∈ message.members, ∃ type,
        member.type.element.target? scope.package = some type ∧ ref = scope.reference type := by
  have quiet : ∀ c ∈ message.constants, c.type.element.target? scope.package = none := by
    intro c inConstants
    have forConstant := plain c inConstants
    match c.type, forConstant with
    | .single (.primitive _), _ | .array (.primitive _) _, _ => rfl
  simp only [references, ofMessage, List.mem_filterMap, List.mem_append, List.map_map,
    List.mem_map, Function.comp_apply, ofMember, ofConstant]
  constructor
  · rintro ⟨_, ⟨member, inMembers, rfl⟩ | ⟨c, inConstants, rfl⟩, made⟩
    · rw [reference?_ofType, Option.map_eq_some_iff] at made
      obtain ⟨type, target, rfl⟩ := made
      exact ⟨member, inMembers, type, target, rfl⟩
    · rw [reference?_ofType, quiet c inConstants] at made
      cases made
  · rintro ⟨member, inMembers, type, target, rfl⟩
    refine ⟨_, .inl ⟨member, inMembers, rfl⟩, ?_⟩
    rw [reference?_ofType, target]
    rfl

/-- The data classes of a definition are those of its messages. -/
theorem message_mem_ofInterface_iff {interface : Interface} {declared : MessageClass} :
    .message declared ∈ ofInterface scope interface ↔
      ∃ m ∈ interface.messages, .message declared = ofMessage scope m := by
  cases interface <;>
    simp [ofInterface, ofService, ofAction, Interface.messages]

theorem perm_names_ofService (scope : Scope) (service : Service) :
    ((ofService scope service).map (·.name)).Perm service.classNames :=
  List.perm_append_singleton service.name [service.request.name, service.response.name]

/-- The names that a definition is said to bring are those of its classes. -/
theorem perm_names_ofInterface (scope : Scope) (interface : Interface) :
    ((ofInterface scope interface).map (·.name)).Perm interface.classNames := by
  cases interface with
  | message _ => exact .refl _
  | service s => exact perm_names_ofService scope s
  | action a =>
      have own : (ofInterface scope (.action a)).map (·.name) =
          ([a.goal.name, a.result.name, a.feedback.name] ++
            (ofService scope a.sendGoal).map (·.name) ++
            (ofService scope a.getResult).map (·.name) ++ [a.feedbackMessage.name]) ++ [a.name] :=
        rfl
      have derived := ((perm_names_ofService scope a.sendGoal).append_left
        [a.goal.name, a.result.name, a.feedback.name]).append
          (perm_names_ofService scope a.getResult)
      rw [own]
      exact (List.perm_append_singleton _ _).trans ((derived.append_right _).cons a.name)

theorem mem_classNames_iff {interface : Interface} {name : Text} :
    name ∈ interface.classNames ↔ ∃ d ∈ ofInterface scope interface, d.name = name := by
  rw [← (perm_names_ofInterface scope interface).mem_iff, List.mem_map]

end ClassDeclaration

/-! ## Names of classes -/

namespace Interface.WellFormed

variable {interface : Interface} {package name : Text}

theorem names_sections (wellFormed : interface.WellFormed package name) :
    interface.sections.map (·.name) = interface.kind.sectionSuffixes.map (name ++ ·) := by
  have names := congrArg (List.map Prod.snd) wellFormed.names
  rwa [List.map_map, List.map_map] at names

/-- **Every class of a definition is named after it.** -/
theorem names_ofInterface (scope : Scope) (wellFormed : interface.WellFormed package name) :
    (ClassDeclaration.ofInterface scope interface).map (·.name) =
      interface.kind.classSuffixes.map (name ++ ·) := by
  have sections := wellFormed.names_sections
  obtain rfl := wellFormed.name_eq
  cases interface with
  | message m => exact sections
  | service s =>
      have names : (ClassDeclaration.ofInterface scope (.service s)).map (·.name) =
          [s.request.name, s.response.name] ++ [s.name ++ []] := by
        rw [List.append_nil]
        rfl
      rw [names]
      exact congrArg (· ++ [s.name ++ []]) sections
  | action a =>
      have names : (ClassDeclaration.ofInterface scope (.action a)).map (·.name) =
          [a.goal.name, a.result.name, a.feedback.name] ++
            [a.name ++ "_SendGoal" ++ "_Request", a.name ++ "_SendGoal" ++ "_Response",
             a.name ++ "_SendGoal", a.name ++ "_GetResult" ++ "_Request",
             a.name ++ "_GetResult" ++ "_Response", a.name ++ "_GetResult",
             a.name ++ "_FeedbackMessage", a.name ++ []] := by
        rw [List.append_nil]
        rfl
      rw [names]
      simp only [List.append_assoc]
      exact congrArg (· ++ _) sections

/-- A definition is said to bring a name when it is its own with what is added for one of
its classes. -/
theorem mem_classNames_iff (wellFormed : interface.WellFormed package name) {class_ : Text} :
    class_ ∈ interface.classNames ↔
      ∃ suffix ∈ interface.kind.classSuffixes, class_ = name ++ suffix := by
  let scope : Scope := ⟨package, interface.kind, [], true⟩
  rw [← (ClassDeclaration.perm_names_ofInterface scope interface).mem_iff,
    wellFormed.names_ofInterface, List.mem_map]
  simp only [eq_comm]

end Interface.WellFormed

end RosInterface
