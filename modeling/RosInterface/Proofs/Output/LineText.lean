/-
# RosInterface.Proofs.Output.LineText -- generated texts stay on their lines

A line of generated code is put together from names, references and values.  Names are on one
line where those of the package and of its definitions are, and values are whatever they hold:
strings are quoted, and a quoted text holds printable code points only; numbers are digits and
signs.  So a field and a constant are one line each (`FieldDeclaration.Lined.oneLine`,
`ConstantDeclaration.Lined.oneLine`), and all that a definition declares is
(`Interface.WellFormed.lined_declarations`).
-/
import RosInterface.Proofs.Declaration.TypeMeaning
import RosInterface.Proofs.Output.Writable
import RosInterface.Proofs.Output.Writer
import RosInterface.Proofs.Text.LetterCase
import RosInterface.Proofs.Value.ReadBack

set_option autoImplicit false

namespace RosInterface

open CodePoint (InLiteral)

/-! ## Texts on a line -/

namespace Text

variable {s t : Text}

theorem isLine_of_printable (printable : ∀ c ∈ s, c.isPrintable = true) : s.IsLine :=
  fun c member => CodePoint.not_isLineBoundary_of_isPrintable (printable c member)

theorem isLine_of_inLiteral (inside : ∀ c ∈ s, InLiteral c) : s.IsLine :=
  isLine_of_printable fun c member => (inside c member).isPlain.1

theorem isLine_quoted (s : Text) : s.quoted.IsLine :=
  isLine_of_printable fun _ => isPrintable_of_mem_quoted

theorem isLine_ofNat (n : Nat) : (ofNat n).IsLine :=
  isLine_of_inLiteral (IsDigits.inLiteral fun _ => isDigit_of_mem_ofNat)

theorem IsIdentifier.isLine (name : s.IsIdentifier) : s.IsLine := by
  obtain ⟨c, rest, rfl, letter, words⟩ := name
  refine isLine_of_printable (List.forall_mem_cons.2 ⟨?_, fun d member => ?_⟩)
  · exact isPrintable_of_isWord (CodePoint.isWord_of_isLetter letter)
  · exact isPrintable_of_isWord (words d member)

theorem isLine_joined {separator : Text} {pieces : List Text} (between : separator.IsLine)
    (each : ∀ piece ∈ pieces, piece.IsLine) : (joined separator pieces).IsLine := by
  induction pieces with
  | nil => exact fun c member => by cases member
  | cons piece others ih =>
      obtain ⟨first, later⟩ := List.forall_mem_cons.1 each
      cases others with
      | nil =>
          rw [joined_singleton]
          exact first
      | cons next others =>
          rw [joined_cons_cons]
          exact first.append (between.append (ih later))

/-- A name on one line has its stem there. -/
theorem isLine_snakeCase (isLine : s.IsLine) : s.snakeCase.IsLine := by
  intro c member
  by_contra boundary
  rw [Bool.not_eq_false] at boundary
  have inName := mem_of_mem_snakeCase (.inr boundary) member
  rw [isLine c inName] at boundary
  cases boundary

theorem isLine_attributeName (isLine : s.IsLine) : s.attributeName.IsLine := by
  rw [attributeName]
  split
  · exact isLine.append (by decide)
  · exact isLine

end Text

/-! ## Values -/

namespace Floating

theorem inLiteral_zeros (n : Nat) : ∀ c ∈ zeros n, InLiteral c := by
  intro c member
  rw [List.eq_of_mem_replicate member]
  exact .inl (by decide)

theorem inLiteral_pointed {fraction : Text} (inside : ∀ c ∈ fraction, InLiteral c) :
    ∀ c ∈ pointed fraction, InLiteral c :=
  List.forall_mem_cons.2 ⟨.inr (.inr (.inr rfl)), inside⟩

theorem inLiteral_powerText (layout : Layout) (power : Int) :
    ∀ c ∈ layout.powerText power, InLiteral c := by
  have digits : ∀ c ∈ Text.ofNat power.natAbs, InLiteral c :=
    IsDigits.inLiteral fun _ => Text.isDigit_of_mem_ofNat
  refine List.forall_mem_cons.2 ⟨?_, List.forall_mem_append.2 ⟨inLiteral_zeros _, digits⟩⟩
  split
  · exact .inr (.inr (.inl rfl))
  · exact .inr (.inl rfl)

theorem inLiteral_layout_text (layout : Layout) {digits : Text}
    (inside : ∀ c ∈ digits, InLiteral c) (position : Int) :
    ∀ c ∈ layout.text digits position, InLiteral c := by
  have padded (count : Nat) : ∀ c ∈ digits ++ zeros count, InLiteral c :=
    List.forall_mem_append.2 ⟨inside, inLiteral_zeros count⟩
  rw [Layout.text]
  split
  case isTrue =>
    split
    case isTrue =>
      refine List.forall_mem_cons.2 ⟨.inl (by decide), inLiteral_pointed ?_⟩
      exact List.forall_mem_append.2 ⟨inLiteral_zeros _, inside⟩
    case isFalse =>
      refine List.forall_mem_append.2 ⟨fun c member => padded _ c (List.mem_of_mem_take member),
        inLiteral_pointed ?_⟩
      split
      · exact inLiteral_zeros 1
      · exact fun c member => padded _ c (List.mem_of_mem_drop member)
  case isFalse =>
    refine List.forall_mem_append.2 ⟨List.forall_mem_append.2
      ⟨fun c member => inside c (List.mem_of_mem_take member), ?_⟩,
      List.forall_mem_append.2 ⟨?_, inLiteral_powerText layout _⟩⟩
    · split
      · exact fun c member => by cases member
      · exact inLiteral_pointed fun c member => inside c (List.mem_of_mem_drop member)
    · exact List.forall_mem_singleton.2 (.inl (by decide))

/-- The text of a float is one of digits, signs and letters. -/
theorem inLiteral_text (x : Floating) : ∀ c ∈ x.text, InLiteral c := by
  have magnitude (x : Binary64) : ∀ c ∈ magnitudeText x, InLiteral c := by
    rw [magnitudeText]
    split
    case isTrue =>
      unfold InLiteral
      decide
    case isFalse =>
      exact inLiteral_layout_text layout (IsDigits.inLiteral fun _ => Text.isDigit_of_mem_ofNat) _
  cases x with
  | finite negative x =>
      refine List.forall_mem_append.2 ⟨?_, magnitude x⟩
      unfold InLiteral
      cases negative <;> decide
  | infinite negative =>
      unfold InLiteral
      cases negative <;> decide
  | notANumber =>
      unfold InLiteral
      decide

end Floating

/-- **The expression for a value stays on its line.** -/
theorem Literal.isLine_text {literal : Literal} {text : Text}
    (canonical : literal.type.Canonical literal.value) (written : literal.text = .ok text) :
    text.IsLine := by
  obtain ⟨type, value⟩ := literal
  match type with
  | .string _ =>
      cases written
      exact Text.isLine_quoted value
  | .basic .bool =>
      cases written
      split <;> decide
  | .basic (.integer _) =>
      cases written
      exact Text.isLine_of_inLiteral (BasicType.inLiteral canonical).2
  | .basic (.float _) =>
      unfold Literal.text at written
      simp only at written
      split at written
      case h_1 => cases written
      case h_2 x read =>
        cases written
        split
        case isTrue => exact Text.isLine_of_inLiteral x.inLiteral_text
        case isFalse =>
          exact (Text.isLine_quoted _).between (by decide) (by decide)

namespace ValueClass

variable {scope : Scope} {item : ValueClass}

theorem isLine_zeroText (isLine : item.text.IsLine) : item.zeroText.IsLine := by
  cases item with
  | message ref => exact isLine.append (by decide)
  | bool | int | float | str => decide

theorem isLine_text_ofPrimitive (type : Primitive) : (ofPrimitive type).text.IsLine := by
  match type with
  | .basic .bool => exact (by decide : Text.IsLine "bool")
  | .basic (.integer _) => exact (by decide : Text.IsLine "int")
  | .basic (.float _) => exact (by decide : Text.IsLine "float")
  | .string _ => exact (by decide : Text.IsLine "str")

theorem isLine_text_ofElement {element : ElementType}
    (targets : ∀ type, element.target? scope.package = some type →
      (scope.reference type).text.IsLine) :
    (ofElement scope element).text.IsLine := by
  cases element with
  | primitive type => exact isLine_text_ofPrimitive type
  | named name => exact targets _ rfl
  | qualified type => exact targets _ rfl

end ValueClass

theorem TypeHint.isLine_text {hint : TypeHint} (item : hint.item.text.IsLine) :
    hint.text.IsLine := by
  rw [TypeHint.text]
  split
  · exact item
  · exact item.between (by decide) (by decide)
  · exact item.between (by decide) (by decide)

namespace Initial

/-- The parts of the right-hand side stay on their line. -/
def Lined : Initial → Prop
  | .zero item | .zeros item _ => item.text.IsLine
  | .first values | .tuple values | .newList values =>
      ∀ literal ∈ values, literal.type.Canonical literal.value
  | .newEmptyList => True
  | .newObject ref | .newObjects ref _ => ref.text.IsLine

theorem isLine_tupleText {texts : List Text} (each : ∀ text ∈ texts, text.IsLine) :
    (tupleText texts).IsLine := by
  rw [tupleText.eq_def]
  split
  case h_1 only => exact (each only (by simp)).between (by decide) (by decide)
  case h_2 => exact (Text.isLine_joined (by decide) each).between (by decide) (by decide)

/-- **A right-hand side stays on its line.** -/
theorem Lined.isLine_text {initial : Initial} {text : Text} (lined : initial.Lined)
    (written : initial.text = .ok text) : text.IsLine := by
  have literals {values : List Literal} {texts : List Text}
      (canonical : ∀ literal ∈ values, literal.type.Canonical literal.value)
      (read : values.mapM (·.text) = .ok texts) : ∀ text ∈ texts, text.IsLine := by
    intro text member
    obtain ⟨literal, inValues, own⟩ := (Outcome.mem_iff_of_mapM read).1 member
    exact Literal.isLine_text (canonical literal inValues) own
  cases initial with
  | zero item =>
      cases written
      exact ValueClass.isLine_zeroText lined
  | first values =>
      cases values with
      | nil => cases written
      | cons value values => exact Literal.isLine_text (lined value List.mem_cons_self) written
  | zeros item size =>
      cases written
      exact ((ValueClass.isLine_zeroText lined).between (by decide) (by decide)).append
        (Text.isLine_ofNat size)
  | tuple values =>
      obtain ⟨texts, read, same⟩ := Outcome.bind_eq_ok_iff.1 written
      cases same
      exact isLine_tupleText (literals lined read)
  | newEmptyList =>
      cases written
      decide
  | newList values =>
      obtain ⟨texts, read, same⟩ := Outcome.bind_eq_ok_iff.1 written
      cases same
      exact (Text.isLine_joined (by decide) (literals lined read)).between (by decide) (by decide)
  | newObject ref =>
      cases written
      exact Text.IsLine.between lined (by decide) (by decide)
  | newObjects ref size =>
      cases written
      exact ((Text.IsLine.between lined (by decide) (by decide)).append
        (Text.isLine_ofNat size)).append (by decide)

end Initial

/-! ## Declarations -/

theorem isLine_text_kind (kind : Kind) : kind.text.IsLine := by cases kind <;> decide

/-- A type whose name can be written on a line. -/
def TypeName.Lined (type : TypeName) : Prop := type.package.IsLine ∧ type.name.IsLine

namespace TypeName.Lined

variable {type : TypeName}

theorem isLine_text (lined : type.Lined) : type.text.IsLine := by
  exact ((((lined.1.append (by decide)).append (isLine_text_kind _)).append (by decide)).append
    lined.2)

/-- A scope spells such a type on a line. -/
theorem isLine_reference (lined : type.Lined) (scope : Scope) :
    (scope.reference type).text.IsLine := by
  rw [Scope.reference]
  split
  · exact lined.2
  · exact ((((lined.1.append (by decide)).append (isLine_text_kind _)).append (by decide)).append
      lined.2)

end TypeName.Lined

/-- A type that a definition refers to is named by identifiers, or is in its package. -/
theorem TypeName.lined_of_wellFormed {package : Text} {element : ElementType} {type : TypeName}
    (wellFormed : element.WellFormed) (inPackage : package.IsLine)
    (target : element.target? package = some type) : type.Lined := by
  cases element with
  | primitive _ => cases target
  | named name =>
      cases target
      exact ⟨inPackage, wellFormed.1.isLine⟩
  | qualified name =>
      cases target
      exact ⟨wellFormed.1.isLine, wellFormed.2.isLine⟩

/-- The parts of a field stay on their line. -/
structure FieldDeclaration.Lined (field : FieldDeclaration) : Prop where
  name : field.name.IsLine
  item : field.hint.item.text.IsLine
  initial : field.initial.Lined

/-- The parts of a constant stay on their line. -/
structure ConstantDeclaration.Lined (constant : ConstantDeclaration) : Prop where
  name : constant.name.IsLine
  item : constant.hint.item.text.IsLine
  value : constant.value.Lined

/-- **A field is one line**, whatever its default holds. -/
theorem FieldDeclaration.Lined.oneLine {field : FieldDeclaration} {text : Text}
    (lined : field.Lined) (written : field.text = .ok text) : text.OneLine := by
  obtain ⟨value, read, same⟩ := Outcome.bind_eq_ok_iff.1 written
  cases same
  have keyword : Text.IsLine
      (if field.initial.isFactory then "default_factory=" else "default=") := by
    split <;> decide
  have named : (field.name ++ Text.ofString ": ").OneLine :=
    (show Text.OneLine ": " by decide).behind lined.name
  exact ((((((named.append (TypeHint.isLine_text lined.item)).append (by decide)).append
    keyword).append (lined.initial.isLine_text read)).append (by decide)).append
      (Text.isLine_quoted _)).append (by decide)

/-- **A constant is one line**, whatever its value holds. -/
theorem ConstantDeclaration.Lined.oneLine {constant : ConstantDeclaration} {text : Text}
    (lined : constant.Lined) (written : constant.text = .ok text) : text.OneLine := by
  obtain ⟨value, read, same⟩ := Outcome.bind_eq_ok_iff.1 written
  cases same
  have named : (constant.name ++ Text.ofString ": ClassVar[").OneLine :=
    (show Text.OneLine ": ClassVar[" by decide).behind lined.name
  exact ((named.append (TypeHint.isLine_text lined.item)).append (by decide)).append
    (lined.value.isLine_text read)

/-- What a class is declared with stays on its lines. -/
def ClassDeclaration.Lined : ClassDeclaration → Prop
  | .message declared => declared.name.IsLine ∧ declared.typeName.Lined ∧
      (∀ field ∈ declared.fields, field.Lined) ∧ ∀ constant ∈ declared.constants, constant.Lined
  | .interface declared => declared.name.IsLine ∧ declared.typeName.Lined ∧
      ∀ binding ∈ declared.bindings, binding.1.IsLine ∧ binding.2.IsLine

/-! ## Definitions -/

/-- A member whose names are on one line. -/
structure Member.Lined (package : Text) (member : Member) : Prop where
  name : member.name.IsLine
  target : ∀ type, member.type.element.target? package = some type → type.Lined

/-- A message whose names are on one line, and whose values belong to their types. -/
structure Message.Lined (package : Text) (message : Message) : Prop where
  typeName : message.package.IsLine ∧ message.name.IsLine
  members : ∀ m ∈ message.members, m.Lined package
  valued : message.Valued

namespace ClassDeclaration

variable {scope : Scope}

theorem lined_literals {type : FieldType} {element : Primitive} {values : List Text}
    (isElement : type.element = .primitive element) (holds : type.Holds values) :
    ∀ literal ∈ values.map (Literal.mk element), literal.type.Canonical literal.value := by
  obtain ⟨⟨other, same, canonical⟩, -⟩ := holds
  rw [isElement] at same
  cases same
  intro literal member
  obtain ⟨value, inValues, rfl⟩ := List.mem_map.1 member
  exact canonical value inValues

theorem lined_initial_ofMember {member : Member} (lined : member.Lined scope.package)
    (holds : ∀ values, member.default = some values → member.type.Holds values) :
    (Initial.ofMember scope member).Lined := by
  obtain ⟨name, type, default⟩ := member
  obtain ⟨-, targets⟩ := lined
  have reference (ref : ClassRef) (lined : ref.text.IsLine) :
      (Initial.ofReference ref type).Lined := by
    cases type with
    | single _ | array _ _ => exact lined
    | sequence _ | boundedSequence _ _ => trivial
  unfold Initial.ofMember
  cases isElement : type.element with
  | named name =>
      refine reference _ ((targets ⟨scope.package, .message, name⟩ ?_).isLine_reference scope)
      simp only [isElement, ElementType.target?]
  | qualified name =>
      refine reference _ ((targets name ?_).isLine_reference scope)
      simp only [isElement, ElementType.target?]
  | primitive element =>
      have zero := ValueClass.isLine_text_ofPrimitive element
      cases default with
      | none =>
          cases type with
          | single _ | array _ _ => exact zero
          | sequence _ | boundedSequence _ _ => trivial
      | some values =>
          have literals := lined_literals isElement (holds values rfl)
          cases type with
          | single _ | array _ _ => exact literals
          | sequence _ | boundedSequence _ _ =>
              cases values with
              | nil => trivial
              | cons _ _ => exact literals

theorem lined_ofMember {member : Member} (lined : member.Lined scope.package)
    (holds : ∀ values, member.default = some values → member.type.Holds values) :
    (ofMember scope member).Lined :=
  ⟨Text.isLine_attributeName lined.name, ValueClass.isLine_text_ofElement fun type target =>
    (lined.target type target).isLine_reference scope, lined_initial_ofMember lined holds⟩

theorem lined_ofConstant {constant : Constant} (wellFormed : constant.WellFormed) :
    (ofConstant scope constant).Lined := by
  obtain ⟨element, isElement, -⟩ := wellFormed.value.canonical
  refine ⟨wellFormed.name.isIdentifier.isLine, ValueClass.isLine_text_ofElement ?_, ?_⟩
  · rw [isElement]
    exact fun type target => by cases target
  · have literals := lined_literals isElement wellFormed.value
    have forConstant := wellFormed.forConstant
    obtain ⟨name, type, values⟩ := constant
    simp only [ofConstant, Initial.ofConstant] at isElement forConstant literals ⊢
    rw [isElement]
    cases type with
    | single _ | array _ _ => exact literals
    | sequence _ | boundedSequence _ _ => cases forConstant

theorem lined_ofMessage {message : Message} (lined : message.Lined scope.package) :
    (ofMessage scope message).Lined := by
  refine ⟨lined.typeName.2, lined.typeName, fun field member => ?_, fun constant member => ?_⟩
  · obtain ⟨m, inMembers, rfl⟩ := List.mem_map.1 member
    exact lined_ofMember (lined.members m inMembers) (lined.valued.defaults m inMembers)
  · obtain ⟨c, inConstants, rfl⟩ := List.mem_map.1 member
    exact lined_ofConstant (lined.valued.constants c inConstants)

theorem lined_ofService {service : Service} (request : service.request.Lined scope.package)
    (response : service.response.Lined scope.package)
    (named : service.package.IsLine ∧ service.name.IsLine) :
    ∀ declared ∈ ofService scope service, declared.Lined := by
  have bindings : ∀ binding ∈ [(Text.ofString "Request", service.request.name),
      (Text.ofString "Response", service.response.name)],
      binding.1.IsLine ∧ binding.2.IsLine := by
    simp only [List.forall_mem_cons]
    exact ⟨⟨by decide, request.typeName.2⟩, ⟨by decide, response.typeName.2⟩,
      List.forall_mem_nil _⟩
  simp only [ofService, List.forall_mem_cons]
  exact ⟨lined_ofMessage request, lined_ofMessage response, ⟨named.2, named, bindings⟩,
    List.forall_mem_nil _⟩

theorem lined_ofAction {action : Action}
    (messages : ∀ m ∈ (Interface.action action).messages, m.Lined scope.package)
    (named : action.package.IsLine ∧ action.name.IsLine) :
    ∀ declared ∈ ofAction scope action, declared.Lined := by
  simp only [Interface.messages, List.forall_mem_cons] at messages
  obtain ⟨goal, result, feedback, sendRequest, sendResponse, getRequest, getResponse, own, -⟩ :=
    messages
  have sendGoal : action.sendGoal.name.IsLine := named.2.append (by decide)
  have getResult : action.getResult.name.IsLine := named.2.append (by decide)
  have bindings : ∀ binding ∈ [(Text.ofString "Goal", action.goal.name),
      (Text.ofString "Result", action.result.name),
      (Text.ofString "Feedback", action.feedback.name),
      (Text.ofString "SendGoal", action.sendGoal.name),
      (Text.ofString "GetResult", action.getResult.name),
      (Text.ofString "FeedbackMessage", action.feedbackMessage.name)],
      binding.1.IsLine ∧ binding.2.IsLine := by
    simp only [List.forall_mem_cons]
    exact ⟨⟨by decide, goal.typeName.2⟩, ⟨by decide, result.typeName.2⟩,
      ⟨by decide, feedback.typeName.2⟩, ⟨by decide, sendGoal⟩, ⟨by decide, getResult⟩,
      ⟨by decide, own.typeName.2⟩, List.forall_mem_nil _⟩
  simp only [ofAction, List.forall_mem_append, List.forall_mem_cons]
  exact ⟨⟨⟨⟨lined_ofMessage goal, lined_ofMessage result, lined_ofMessage feedback,
    List.forall_mem_nil _⟩, lined_ofService sendRequest sendResponse ⟨named.1, sendGoal⟩⟩,
    lined_ofService getRequest getResponse ⟨named.1, getResult⟩⟩,
    lined_ofMessage own, ⟨named.2, named, bindings⟩, List.forall_mem_nil _⟩

end ClassDeclaration

/-! ## What an action derives -/

namespace Action

variable {action : Action} {package : Text}

theorem lined_goalId : goalId.Lined package := by
  refine ⟨by decide, fun type target => ?_⟩
  cases target
  exact ⟨by decide, by decide⟩

theorem lined_plain {name : Text} (isLine : name.IsLine) (type : Primitive) :
    (plain name (.primitive type)).Lined package :=
  ⟨isLine, fun _ target => by cases target⟩

theorem lined_own (named : action.package.IsLine ∧ action.name.IsLine) {member suffix : Text}
    (isLine : member.IsLine) (suffixed : suffix.IsLine) :
    (action.own member suffix).Lined package := by
  refine ⟨isLine, fun type target => ?_⟩
  cases target
  exact ⟨named.1, named.2.append suffixed⟩

end Action

namespace Interface

variable {interface : Interface} {package name : Text}

/-- The sections of a definition, as they are written. -/
theorem WellFormed.lined_sections (wellFormed : interface.WellFormed package name)
    (inPackage : package.IsLine) (named : name.IsLine) :
    ∀ m ∈ interface.sections, m.Lined package := by
  intro m member
  have own := wellFormed.sections m member
  have suffixes : ∀ kind : Kind, ∀ suffix ∈ kind.sectionSuffixes, suffix.IsLine := by
    intro kind
    cases kind <;> decide
  have inNames := List.mem_map_of_mem (f := fun m => (m.package, m.name)) member
  rw [wellFormed.names] at inNames
  obtain ⟨suffix, inSuffixes, same⟩ := List.mem_map.1 inNames
  obtain ⟨packageEq, nameEq⟩ := Prod.mk.inj same
  refine ⟨⟨packageEq ▸ inPackage, nameEq ▸ named.append (suffixes _ suffix inSuffixes)⟩, ?_,
    own.valued⟩
  intro field inMembers
  have written := own.members field inMembers
  exact ⟨written.name.isIdentifier.isLine, fun type target =>
    TypeName.lined_of_wellFormed (FieldType.element_wellFormed written.type) inPackage target⟩

/-- The messages of a definition whose name is on one line, derived ones included. -/
theorem WellFormed.lined_messages (wellFormed : interface.WellFormed package name)
    (inPackage : package.IsLine) (named : name.IsLine) :
    ∀ m ∈ interface.messages, m.Lined package := by
  have written := wellFormed.lined_sections inPackage named
  cases interface with
  | message _ | service _ => exact written
  | action a =>
      intro m member
      have values := wellFormed.valued m member
      obtain ⟨packageEq, nameEq, -, -⟩ := wellFormed
      have names : a.package.IsLine ∧ a.name.IsLine := by
        rw [← packageEq] at inPackage
        rw [← nameEq] at named
        exact ⟨inPackage, named⟩
      have members {first second : Member} (one : first.Lined package)
          (other : second.Lined package) : ∀ m ∈ [first, second], m.Lined package :=
        List.forall_mem_cons.2 ⟨one, List.forall_mem_singleton.2 other⟩
      simp only [Interface.messages, List.mem_cons, List.not_mem_nil, or_false] at member
      rcases member with rfl | rfl | rfl | rfl | rfl | rfl | rfl | rfl
      · exact written _ (by simp [Interface.sections])
      · exact written _ (by simp [Interface.sections])
      · exact written _ (by simp [Interface.sections])
      · exact ⟨⟨names.1, (names.2.append (by decide)).append (by decide)⟩,
          members Action.lined_goalId (Action.lined_own names (by decide) (by decide)), values⟩
      · refine ⟨⟨names.1, (names.2.append (by decide)).append (by decide)⟩,
          members (Action.lined_plain (by decide) _) ⟨by decide, fun type target => ?_⟩, values⟩
        cases target
        exact ⟨by decide, by decide⟩
      · exact ⟨⟨names.1, (names.2.append (by decide)).append (by decide)⟩,
          List.forall_mem_singleton.2 Action.lined_goalId, values⟩
      · exact ⟨⟨names.1, (names.2.append (by decide)).append (by decide)⟩,
          members (Action.lined_plain (by decide) _)
            (Action.lined_own names (by decide) (by decide)), values⟩
      · exact ⟨⟨names.1, names.2.append (by decide)⟩,
          members Action.lined_goalId (Action.lined_own names (by decide) (by decide)), values⟩

/-- **What a definition declares stays on its lines**, where its name does. -/
theorem WellFormed.lined_declarations {scope : Scope}
    (wellFormed : interface.WellFormed scope.package name)
    (inPackage : scope.package.IsLine) (named : name.IsLine) :
    ∀ declared ∈ ClassDeclaration.ofInterface scope interface, declared.Lined := by
  have messages := wellFormed.lined_messages inPackage named
  obtain ⟨packageEq, nameEq, -, -⟩ := wellFormed
  rw [← packageEq] at inPackage
  rw [← nameEq] at named
  cases interface with
  | message m =>
      have lined := messages m List.mem_cons_self
      exact List.forall_mem_singleton.2 (ClassDeclaration.lined_ofMessage lined)
  | service s =>
      simp only [Interface.messages, List.forall_mem_cons] at messages
      exact ClassDeclaration.lined_ofService messages.1 messages.2.1 ⟨inPackage, named⟩
  | action a => exact ClassDeclaration.lined_ofAction messages ⟨inPackage, named⟩

end Interface

end RosInterface
