/-
# RosInterface.Proofs.Output.Defaults -- what fields and constants start with

A field of a data class is given either a value, which all objects share, or a factory that is
called for each of them.  `Starts` says which one it is and how it is spelled, one constructor
for each shape of a type: what can be changed later is made by a factory, an array of primitive
values is a tuple of exactly its size, and a default is spelled value by value, in its order
(`Primitive.Spell`).  It mentions no generator.

`Initial.starts_ofMember` is the step for one member whose default belongs to its type, and
`ClassDeclaration.defaults_shaped` the result for every line that is read as a member or as a
constant.
-/
import RosInterface.Proofs.Definition.Invariants
import RosInterface.Proofs.Output.Writable

set_option autoImplicit false

namespace RosInterface

/-! ## Expressions -/

/-- Each entry is the expression for the value at its place. -/
def Primitive.Spell (element : Primitive) (values entries : List Text) : Prop :=
  List.Forall₂ (fun value entry => (Literal.mk element value).text = .ok entry) values entries

/-- The text is a tuple of the entries: a tuple of one keeps its comma. -/
inductive TupleDisplay : List Text → Text → Prop where
  | none : TupleDisplay [] "()"
  | one (entry : Text) : TupleDisplay [entry] ("(" ++ entry ++ ",)")
  | several {entries : List Text} (many : 2 ≤ entries.length) :
      TupleDisplay entries ("(" ++ Text.joined ", " entries ++ ")")

theorem tupleDisplay_tupleText : ∀ entries : List Text,
    TupleDisplay entries (Initial.tupleText entries)
  | [] => .none
  | [entry] => .one entry
  | _ :: _ :: _ => .several (Nat.le_add_left 2 _)

/-- Canonical values have expressions, and there are as many. -/
theorem Primitive.exists_spell {element : Primitive} {values : List Text}
    (canonical : ∀ value ∈ values, element.Canonical value) :
    ∃ entries, element.Spell values entries ∧
      (values.map (Literal.mk element)).mapM (·.text) = .ok entries := by
  obtain ⟨entries, written⟩ := Initial.exists_texts canonical
  refine ⟨entries, ?_, written⟩
  rwa [Outcome.mapM_eq_ok_iff, List.forall₂_map_left_iff] at written

/-! ## What a field starts with -/

/-- What a field is given: a value, or a factory that makes one for each object. -/
inductive Start where
  | value (text : Text)
  | factory (text : Text)

/-- The one argument that says what a field starts with. -/
def Start.argument : Start → Text
  | .value text => "default=" ++ text
  | .factory text => "default_factory=" ++ text

/-- A type whose values are lists. -/
def FieldType.IsSequence : FieldType → Prop
  | .single _ | .array _ _ => False
  | .sequence _ | .boundedSequence _ _ => True

/-- Objects are made of a type by a factory: it is a sequence, or not made of primitive values. -/
def FieldType.NeedsFactory (type : FieldType) : Prop :=
  type.IsSequence ∨ ∀ element, type.element ≠ .primitive element

/-- What a field of a type starts with in a scope, with the default that it was declared with. -/
inductive Starts (scope : Scope) : FieldType → Option (List Text) → Start → Prop where
  | zero (element : Primitive) :
      Starts scope (.single (.primitive element)) none
        (.value (ValueClass.ofPrimitive element).zeroText)
  | value {element : Primitive} {value entry : Text} (spell : element.Spell [value] [entry]) :
      Starts scope (.single (.primitive element)) (some [value]) (.value entry)
  | zeros (element : Primitive) (size : Nat) :
      Starts scope (.array (.primitive element) size) none
        (.value ("(" ++ (ValueClass.ofPrimitive element).zeroText ++ ",) * " ++ Text.ofNat size))
  | tuple {element : Primitive} {size : Nat} {values entries : List Text} {text : Text}
      (spell : element.Spell values entries) (full : entries.length = size)
      (display : TupleDisplay entries text) :
      Starts scope (.array (.primitive element) size) (some values) (.value text)
  | emptyList {type : FieldType} {default : Option (List Text)} (isSequence : type.IsSequence)
      (nothing : ∀ values, default = some values → values = []) :
      Starts scope type default (.factory "_builtins.list")
  | list {type : FieldType} {element : Primitive} {values entries : List Text}
      (isSequence : type.IsSequence) (isElement : type.element = .primitive element)
      (some_ : values ≠ []) (spell : element.Spell values entries)
      (fits : type.HasArity entries.length) :
      Starts scope type (some values) (.factory ("lambda: [" ++ Text.joined ", " entries ++ "]"))
  | object {element : ElementType} {type : TypeName}
      (target : element.target? scope.package = some type) :
      Starts scope (.single element) none
        (.factory ("lambda: " ++ (scope.reference type).text ++ "()"))
  | objects {element : ElementType} {type : TypeName} (size : Nat)
      (target : element.target? scope.package = some type) :
      Starts scope (.array element size) none
        (.factory ("lambda: tuple(" ++ (scope.reference type).text ++ "() for _ in range(" ++
          Text.ofNat size ++ "))"))

namespace Starts

variable {scope : Scope} {type : FieldType} {default : Option (List Text)} {start : Start}

/-- **Nothing that can be changed is shared.** -/
theorem factory_iff (starts : Starts scope type default start) :
    (∃ text, start = .factory text) ↔ type.NeedsFactory := by
  have shared {element : Primitive} {base : FieldType} (single : ¬ base.IsSequence)
      (isElement : base.element = .primitive element) : ¬ base.NeedsFactory := by
    rintro (isSequence | other)
    · exact single isSequence
    · exact other element isElement
  have named {element : ElementType} {name : TypeName}
      (target : element.target? scope.package = some name) :
      ∀ primitive, element ≠ .primitive primitive := by
    rintro primitive rfl
    cases target
  cases starts with
  | zero | value | zeros | tuple =>
      constructor
      · rintro ⟨text, same⟩
        cases same
      · intro factory
        exact absurd factory (shared (fun isSequence => isSequence) rfl)
  | emptyList isSequence | list isSequence => exact ⟨fun _ => .inl isSequence, fun _ => ⟨_, rfl⟩⟩
  | object target | objects _ target => exact ⟨fun _ => .inr (named target), fun _ => ⟨_, rfl⟩⟩

end Starts

namespace Initial

/-- A right-hand side, as a field is given it. -/
def start (initial : Initial) (text : Text) : Start :=
  if initial.isFactory then .factory text else .value text

theorem argument_start (initial : Initial) (text : Text) :
    (initial.start text).argument =
      (if initial.isFactory then Text.ofString "default_factory=" else Text.ofString "default=") ++
        text := by
  rw [start]
  split <;> rfl

variable {scope : Scope} {type : FieldType}

/-- What a field starts with that refers to a definition. -/
theorem starts_ofReference {name : TypeName} {default : Option (List Text)}
    (target : type.element.target? scope.package = some name) (bare : default = none) :
    ∃ text, (ofReference (scope.reference name) type).text = .ok text ∧
      Starts scope type default ((ofReference (scope.reference name) type).start text) := by
  subst bare
  cases type with
  | single element => exact ⟨_, rfl, .object target⟩
  | array element size => exact ⟨_, rfl, .objects size target⟩
  | sequence element | boundedSequence element capacity =>
      exact ⟨_, rfl, .emptyList trivial fun values given => by cases given⟩

/-- What a field of primitive values starts with, when its default belongs to its type. -/
theorem starts_ofPrimitive {element : Primitive} {default : Option (List Text)}
    (isElement : type.element = .primitive element)
    (holds : ∀ values, default = some values → type.Holds values) :
    ∃ text, (ofPrimitive element default type).text = .ok text ∧
      Starts scope type default ((ofPrimitive element default type).start text) := by
  cases default with
  | none =>
      cases type with
      | single base =>
          cases isElement
          exact ⟨_, rfl, .zero element⟩
      | array base size =>
          cases isElement
          exact ⟨_, rfl, .zeros element size⟩
      | sequence base | boundedSequence base capacity =>
          exact ⟨_, rfl, .emptyList trivial fun values given => by cases given⟩
  | some values =>
      obtain ⟨⟨other, same, canonical⟩, arity⟩ := holds values rfl
      rw [isElement] at same
      cases same
      obtain ⟨entries, spell, written⟩ := Primitive.exists_spell canonical
      have counted : values.length = entries.length := spell.length_eq
      cases type with
      | single base =>
          cases isElement
          obtain ⟨value, rfl⟩ := List.length_eq_one_iff.1 arity
          obtain ⟨entry, rfl⟩ := List.length_eq_one_iff.1 counted.symm
          obtain _ | ⟨first, -⟩ := spell
          exact ⟨entry, first, .value (.cons first .nil)⟩
      | array base size =>
          cases isElement
          refine ⟨tupleText entries, Outcome.bind_eq_ok_iff.2 ⟨entries, written, rfl⟩, ?_⟩
          exact .tuple spell (counted.symm.trans arity) (tupleDisplay_tupleText entries)
      | sequence base | boundedSequence base capacity =>
          cases values with
          | nil =>
              refine ⟨_, rfl, .emptyList trivial fun values given => ?_⟩
              cases given
              rfl
          | cons first others =>
              refine ⟨_, Outcome.bind_eq_ok_iff.2 ⟨entries, written, rfl⟩, ?_⟩
              exact .list trivial isElement (List.cons_ne_nil first others) spell (counted ▸ arity)

/-- **What the field of a member starts with.** -/
theorem starts_ofMember (scope : Scope) {member : Member}
    (holds : ∀ values, member.default = some values → member.type.Holds values) :
    ∃ text, (ofMember scope member).text = .ok text ∧
      Starts scope member.type member.default ((ofMember scope member).start text) := by
  have bare (other : ∀ primitive, member.type.element ≠ .primitive primitive) :
      member.default = none := by
    cases given : member.default with
    | none => rfl
    | some values =>
        obtain ⟨⟨primitive, isElement, -⟩, -⟩ := holds values given
        exact absurd isElement (other primitive)
  unfold ofMember
  cases isElement : member.type.element with
  | primitive element => exact starts_ofPrimitive isElement holds
  | named name =>
      have target : member.type.element.target? scope.package = some (scope.fullName name) := by
        rw [isElement]
        rfl
      exact starts_ofReference target (bare (by simp [isElement]))
  | qualified type =>
      have target : member.type.element.target? scope.package = some type := by
        rw [isElement]
        rfl
      exact starts_ofReference target (bare (by simp [isElement]))

/-- What a constant holds: its one value, or a tuple of as many as its type asks for. -/
theorem displays_ofConstant {constant : Constant} (wellFormed : constant.WellFormed) :
    ∃ element entries text, constant.type.element = .primitive element ∧
      element.Spell constant.value entries ∧ (ofConstant constant).text = .ok text ∧
      (constant.type = .single (.primitive element) ∧ entries = [text] ∨
        ∃ size, constant.type = .array (.primitive element) size ∧ entries.length = size ∧
          TupleDisplay entries text) := by
  obtain ⟨name, type, values⟩ := constant
  obtain ⟨-, -, forConstant, ⟨element, isElement, canonical⟩, arity⟩ := wellFormed
  obtain ⟨entries, spell, written⟩ := Primitive.exists_spell canonical
  have counted : values.length = entries.length := spell.length_eq
  unfold ofConstant
  simp only at isElement canonical arity forConstant spell ⊢
  rw [isElement]
  cases type with
  | single base =>
      cases isElement
      obtain ⟨value, rfl⟩ := List.length_eq_one_iff.1 arity
      obtain ⟨entry, rfl⟩ := List.length_eq_one_iff.1 counted.symm
      obtain _ | ⟨first, -⟩ := spell
      exact ⟨element, [entry], entry, rfl, .cons first .nil, first, .inl ⟨rfl, rfl⟩⟩
  | array base size =>
      cases isElement
      refine ⟨element, entries, tupleText entries, rfl, spell,
        Outcome.bind_eq_ok_iff.2 ⟨entries, written, rfl⟩, .inr ⟨size, rfl, ?_, ?_⟩⟩
      · exact counted.symm.trans arity
      · exact tupleDisplay_tupleText entries
  | sequence _ | boundedSequence _ _ => cases forConstant

end Initial

/-! ## Lines that are read -/

namespace ClassDeclaration

/-- **What is generated for a value has the shape of its type.**  Every line that is read as a
member has, in every scope, a field that is given one argument.  It is what the type and the
default of the member ask for, and a factory exactly where objects would share something that can
be changed.  Every line that is read as a constant has a class variable with the expression for
its one value, or with a tuple of exactly as many as the size of its array. -/
theorem defaults_shaped :
    (∀ line member, Item.ofLine line = .ok (.member member) → ∀ scope,
      ∃ start, Starts scope member.type member.default start ∧
        (ofMember scope member).text =
          .ok (member.name.attributeName ++ ": " ++ (TypeHint.ofType scope member.type).text ++
            " = _field(" ++ start.argument ++ ", metadata=\x7b\"idl_type\": " ++
            member.type.text.quoted ++ "\x7d)") ∧
        ((∃ text, start = .factory text) ↔ member.type.NeedsFactory)) ∧
      ∀ line constant, Item.ofLine line = .ok (.constant constant) → ∀ scope,
        ∃ element entries text, element.Spell constant.value entries ∧
          (ofConstant scope constant).text =
            .ok (constant.name ++ ": ClassVar[" ++ (TypeHint.ofType scope constant.type).text ++
              "] = " ++ text) ∧
          (constant.type = .single (.primitive element) ∧ entries = [text] ∨
            ∃ size, constant.type = .array (.primitive element) size ∧ entries.length = size ∧
              TupleDisplay entries text) := by
  constructor
  · intro line member read scope
    have wellFormed : member.WellFormed := Item.wellFormed_of_ofLine read
    obtain ⟨text, written, starts⟩ := Initial.starts_ofMember scope wellFormed.default
    refine ⟨_, starts, Outcome.bind_eq_ok_iff.2 ⟨text, written, ?_⟩, starts.factory_iff⟩
    rw [Initial.argument_start]
    simp only [List.append_assoc]
    rfl
  · intro line constant read scope
    have wellFormed : constant.WellFormed := Item.wellFormed_of_ofLine read
    obtain ⟨element, entries, text, -, spell, written, shape⟩ :=
      Initial.displays_ofConstant wellFormed
    exact ⟨element, entries, text, spell, Outcome.bind_eq_ok_iff.2 ⟨text, written, rfl⟩, shape⟩

/-- A member that starts with a tuple of one. -/
def onlyMember : Member := ⟨"a", .array (.primitive (.basic .bool)) 1, some ["true"]⟩

/-- A constant that is a tuple of nothing. -/
def nothingConstant : Constant := ⟨"NONE", .array (.primitive (.string .unbounded)) 0, []⟩

theorem defaults_shaped_tuples :
    Item.ofLine "bool[1] a [True]" = .ok (.member onlyMember) ∧
      Item.ofLine "string[0] NONE=[]" = .ok (.constant nothingConstant) ∧
      (ofMember ⟨"p", .message, [], false⟩ onlyMember).text =
        .ok (Text.ofString "a: tuple[bool, ...] = _field(default=(True,), " ++
          "metadata=\x7b\"idl_type\": 'bool[1]'\x7d)") ∧
      (∃ start, Starts ⟨"p", .message, [], false⟩ onlyMember.type onlyMember.default start ∧
        ((∃ text, start = .factory text) ↔ onlyMember.type.NeedsFactory)) ∧
      ∃ element entries text, element.Spell nothingConstant.value entries ∧
        (ofConstant ⟨"p", .message, [], false⟩ nothingConstant).text =
          .ok ("NONE: ClassVar[tuple[str, ...]] = " ++ text) ∧
        (nothingConstant.type = .single (.primitive element) ∧ entries = [text] ∨
          ∃ size, nothingConstant.type = .array (.primitive element) size ∧
            entries.length = size ∧ TupleDisplay entries text) := by
  have member : Item.ofLine "bool[1] a [True]" = .ok (.member onlyMember) := by decide +kernel
  have constant : Item.ofLine "string[0] NONE=[]" = .ok (.constant nothingConstant) := by
    decide +kernel
  obtain ⟨start, starts, -, shared⟩ := defaults_shaped.1 _ _ member ⟨"p", .message, [], false⟩
  exact ⟨member, constant, by decide +kernel, ⟨start, starts, shared⟩,
    defaults_shaped.2 _ _ constant ⟨"p", .message, [], false⟩⟩

end ClassDeclaration

end RosInterface
