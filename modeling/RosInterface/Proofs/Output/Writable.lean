/-
# RosInterface.Proofs.Output.Writable -- read definitions have a generated text

Two things can go wrong while a class is written: a value that is to be a float is none, and
the first value is asked for where there is none.  Neither happens where the values of a
message belong to their types (`Message.Valued`): a canonical value has an expression
(`Literal.exists_text`), and a single field has exactly one value.  The messages of a read
definition are such messages, derived ones included, so every module of a parsed package has
a text (`Package.Parsed.exists_text`) and so has its class in a single file
(`Package.Parsed.exists_nestedSteps`).
-/
import RosInterface.Output.Source
import RosInterface.Proofs.Outcome
import RosInterface.Proofs.Output.Layout
import RosInterface.Proofs.Output.Reference

set_option autoImplicit false

namespace RosInterface

/-! ## Floats -/

namespace Floating

/-- A text without underscores has none to take out. -/
theorem withoutUnderscores?_of_forall {s : Text} (free : ∀ c ∈ s, c ≠ CodePoint.ofChar '_')
    (before : Bool) : withoutUnderscores? before s = some s := by
  induction s generalizing before with
  | nil => rfl
  | cons c rest ih =>
      have others : ∀ d ∈ rest, d ≠ CodePoint.ofChar '_' := fun d member =>
        free d (List.mem_cons_of_mem _ member)
      rw [withoutUnderscores?.eq_def]
      simp only [if_neg (free c List.mem_cons_self), ih others]
      rfl

/-- **A float literal has a value.** -/
theorem exists_read?_of_floatText {s : Text} (isFloat : FloatText s) : ∃ x, read? s = some x := by
  have inside := isFloat.inFloat.2
  have plain : ∀ c : CodePoint, c.InFloat →
      c.asciiNumeral = c ∧ c.isAsciiSpace = false ∧ c ≠ CodePoint.ofChar '_' := by
    intro c inFloat
    rcases inFloat with digit | mark
    · have bounds := CodePoint.isDigit_iff.1 digit
      refine ⟨if_pos (by omega), ?_, ?_⟩
      · simp [CodePoint.isAsciiSpace]
        omega
      · rintro rfl
        exact absurd digit (by decide)
    · have marks : ∀ d ∈ floatMarks,
          d.asciiNumeral = d ∧ d.isAsciiSpace = false ∧ d ≠ CodePoint.ofChar '_' := by decide
      exact marks c mark
  have ascii : s.map (·.asciiNumeral) = s :=
    (List.map_congr_left fun c member => (plain c (inside c member)).1).trans (List.map_id' s)
  have bare (t : Text) (within : ∀ c ∈ t, c ∈ s) : t.dropWhile (·.isAsciiSpace) = t :=
    Text.dropWhile_of_stops fun c first =>
      (plain c (inside c (within c (List.mem_of_head? first)))).2.1
  have whole : withoutUnderscores? false s = some s :=
    withoutUnderscores?_of_forall (fun c member => (plain c (inside c member)).2.2) false
  have read := Scientific.read?_isSome_iff.2 isFloat
  unfold read?
  simp only [ascii, bare s fun _ => id, bare s.reverse fun _ => List.mem_reverse.1,
    List.reverse_reverse, whole]
  cases special? s with
  | some value => exact ⟨value, rfl⟩
  | none =>
      obtain ⟨x, found⟩ := Option.isSome_iff_exists.1 read
      exact ⟨ofScientific x, by simp [found]⟩

end Floating

/-! ## Values -/

/-- A canonical value has an expression. -/
theorem Literal.exists_text {literal : Literal}
    (canonical : literal.type.Canonical literal.value) : ∃ text, literal.text = .ok text := by
  obtain ⟨type, value⟩ := literal
  match type with
  | .string _ | .basic .bool | .basic (.integer _) => exact ⟨_, rfl⟩
  | .basic (.float _) =>
      obtain ⟨x, read⟩ := Floating.exists_read?_of_floatText canonical
      unfold Literal.text
      simp only [read]
      exact ⟨_, rfl⟩

namespace Initial

variable {element : Primitive} {values : List Text}

theorem exists_texts (canonical : ∀ value ∈ values, element.Canonical value) :
    ∃ texts, (values.map (Literal.mk element)).mapM (·.text) = .ok texts := by
  apply Outcome.exists_mapM_iff.2
  intro literal member
  obtain ⟨value, inValues, rfl⟩ := List.mem_map.1 member
  exact Literal.exists_text (canonical value inValues)

/-- A value that is made of the expressions of canonical values has one itself. -/
theorem exists_text_of_literals {initial : Initial} {spell : List Text → Text}
    (canonical : ∀ value ∈ values, element.Canonical value)
    (made : initial.text =
      (values.map (Literal.mk element)).mapM (·.text) >>= fun texts => return spell texts) :
    ∃ text, initial.text = .ok text := by
  obtain ⟨texts, written⟩ := exists_texts canonical
  exact ⟨spell texts, made.trans (Outcome.bind_eq_ok_iff.2 ⟨texts, written, rfl⟩)⟩

theorem exists_text_first (canonical : ∀ value ∈ values, element.Canonical value)
    (single : values.length = 1) :
    ∃ text, (first (values.map (Literal.mk element))).text = .ok text := by
  obtain ⟨value, rfl⟩ := List.length_eq_one_iff.1 single
  exact Literal.exists_text (canonical value List.mem_cons_self)

/-- The initial value of a field has a text when the default belongs to the type. -/
theorem exists_text_ofMember (scope : Scope) {member : Member}
    (holds : ∀ values, member.default = some values → member.type.Holds values) :
    ∃ text, (ofMember scope member).text = .ok text := by
  obtain ⟨name, type, default⟩ := member
  have reference (ref : ClassRef) : ∃ text, (ofReference ref type).text = .ok text := by
    cases type <;> exact ⟨_, rfl⟩
  unfold ofMember
  cases isElement : type.element with
  | named name => exact reference _
  | qualified name => exact reference _
  | primitive element =>
      cases default with
      | none => cases type <;> exact ⟨_, rfl⟩
      | some values =>
          obtain ⟨⟨other, same, canonical⟩, arity⟩ := holds values rfl
          rw [isElement] at same
          cases same
          cases type with
          | single _ => exact exists_text_first canonical arity
          | array _ _ => exact exists_text_of_literals canonical rfl
          | sequence _ | boundedSequence _ _ =>
              cases values with
              | nil => exact ⟨_, rfl⟩
              | cons _ _ => exact exists_text_of_literals canonical rfl

theorem exists_text_ofConstant {constant : Constant} (wellFormed : constant.WellFormed) :
    ∃ text, (ofConstant constant).text = .ok text := by
  obtain ⟨name, type, values⟩ := constant
  obtain ⟨-, -, forConstant, ⟨element, isElement, canonical⟩, arity⟩ := wellFormed
  unfold ofConstant
  simp only at isElement canonical arity forConstant ⊢
  rw [isElement]
  cases type with
  | single _ => exact exists_text_first canonical arity
  | array _ _ => exact exists_text_of_literals canonical rfl
  | sequence _ | boundedSequence _ _ => cases forConstant

end Initial

/-! ## Messages -/

/-- The values of a message belong to their types. -/
structure Message.Valued (message : Message) : Prop where
  defaults : ∀ m ∈ message.members, ∀ values, m.default = some values → m.type.Holds values
  constants : ∀ c ∈ message.constants, c.WellFormed

theorem Message.WellFormed.valued {message : Message} (wellFormed : message.WellFormed) :
    message.Valued :=
  ⟨fun m member => (wellFormed.members m member).default, wellFormed.constants⟩

/-- A derived message has no values at all. -/
theorem Message.valued_of_plain {message : Message}
    (plain : ∀ m ∈ message.members, m.default = none) (bare : message.constants = []) :
    message.Valued := by
  constructor
  · intro m member values given
    rw [plain m member] at given
    cases given
  · intro c member
    rw [bare] at member
    cases member

theorem Interface.WellFormed.valued {interface : Interface} {package name : Text}
    (wellFormed : interface.WellFormed package name) : ∀ m ∈ interface.messages, m.Valued := by
  have written : ∀ m ∈ interface.sections, m.Valued := fun m member =>
    (wellFormed.sections m member).valued
  cases interface with
  | message _ | service _ => exact written
  | action a =>
      intro m member
      simp only [Interface.messages, List.mem_cons, List.not_mem_nil, or_false] at member
      rcases member with rfl | rfl | rfl | rfl | rfl | rfl | rfl | rfl
      · exact written _ (by simp [Interface.sections])
      · exact written _ (by simp [Interface.sections])
      · exact written _ (by simp [Interface.sections])
      all_goals
        refine Message.valued_of_plain ?_ rfl
        simp [Action.sendGoal, Action.getResult, Action.feedbackMessage, Action.derivedService,
          Action.goalId, Action.own, Action.plain]

namespace ClassDeclaration

variable {scope : Scope} {message : Message}

theorem exists_text_field {member : Member}
    (holds : ∀ values, member.default = some values → member.type.Holds values) :
    ∃ text, (ofMember scope member).text = .ok text := by
  obtain ⟨value, written⟩ := Initial.exists_text_ofMember scope holds
  exact ⟨_, Outcome.bind_eq_ok_iff.2 ⟨value, written, rfl⟩⟩

theorem exists_text_constant {constant : Constant} (wellFormed : constant.WellFormed) :
    ∃ text, (ofConstant scope constant).text = .ok text := by
  obtain ⟨value, written⟩ := Initial.exists_text_ofConstant wellFormed
  exact ⟨_, Outcome.bind_eq_ok_iff.2 ⟨value, written, rfl⟩⟩

theorem exists_steps_ofMessage (nested : Bool) (valued : message.Valued) :
    ∃ steps, (ofMessage scope message).steps nested = .ok steps := by
  obtain ⟨constants, writtenConstants⟩ : ∃ texts,
      (message.constants.map (ofConstant scope)).mapM (·.text) = .ok texts := by
    apply Outcome.exists_mapM_iff.2
    intro declared member
    obtain ⟨constant, inConstants, rfl⟩ := List.mem_map.1 member
    exact exists_text_constant (valued.constants constant inConstants)
  obtain ⟨fields, writtenFields⟩ : ∃ texts,
      (message.members.map (ofMember scope)).mapM (·.text) = .ok texts := by
    apply Outcome.exists_mapM_iff.2
    intro declared member
    obtain ⟨field, inMembers, rfl⟩ := List.mem_map.1 member
    exact exists_text_field (valued.defaults field inMembers)
  exact ⟨_, Outcome.bind_eq_ok_iff.2 ⟨constants, writtenConstants,
    Outcome.bind_eq_ok_iff.2 ⟨fields, writtenFields, rfl⟩⟩⟩

theorem exists_steps_ofInterface {interface : Interface} (nested : Bool)
    (valued : ∀ m ∈ interface.messages, m.Valued) :
    ∀ declared ∈ ofInterface scope interface, ∃ steps, declared.steps nested = .ok steps := by
  intro declared member
  cases declared with
  | message class_ =>
      obtain ⟨m, inMessages, same⟩ := message_mem_ofInterface_iff.1 member
      rw [same]
      exact exists_steps_ofMessage nested (valued m inMessages)
  | interface class_ => cases nested <;> exact ⟨_, rfl⟩

end ClassDeclaration

/-! ## Packages -/

namespace Package

variable {package : Package} {layout : ModuleLayout} {kind : Kind}

/-- The classes of definitions of a parsed package can be written. -/
theorem Parsed.exists_steps (parsed : package.Parsed) (layout : ModuleLayout) (nested : Bool)
    {interfaces : List Interface}
    (given : ∀ i ∈ interfaces, i ∈ package.interfaces kind) :
    ∃ steps, (package.declarations layout kind interfaces).mapM
      (ClassDeclaration.steps nested) = .ok steps := by
  apply Outcome.exists_mapM_iff.2
  intro declared member
  obtain ⟨i, inInterfaces, ofDefinition⟩ := List.mem_flatMap.1 member
  exact ClassDeclaration.exists_steps_ofInterface nested
    (parsed.wellFormed (given i inInterfaces)).2.valued declared ofDefinition

theorem exists_text_of_steps {file : ModuleFile} {classes : List (List WriterStep)}
    (comments : Bool)
    (written : file.declarations.mapM (ClassDeclaration.steps (layout = .single)) = .ok classes) :
    ∃ text, file.text layout comments = .ok text :=
  ⟨_, Outcome.bind_eq_ok_iff.2 ⟨_, Outcome.bind_eq_ok_iff.2 ⟨classes, written, rfl⟩, rfl⟩⟩

/-- **Every module of a parsed package has a text.** -/
theorem Parsed.exists_text (parsed : package.Parsed) (comments : Bool) {file : ModuleFile}
    (member : file ∈ package.files layout) : ∃ text, file.text layout comments = .ok text := by
  rcases mem_files_iff.1 member with rfl | ⟨kind, ofKind⟩
  · exact exists_text_of_steps comments rfl
  · rcases mem_kindFiles ofKind with ⟨named, rfl⟩ | ⟨path, interfaces, given, rfl⟩
    · exact exists_text_of_steps comments rfl
    · obtain ⟨classes, written⟩ := parsed.exists_steps layout (layout = .single) given
      exact exists_text_of_steps comments written

/-- **A parsed package has its class in a single file.** -/
theorem Parsed.exists_nestedSteps (parsed : package.Parsed) :
    ∃ steps, package.nestedSteps = .ok steps := by
  have ofKind (kind : Kind) : ∃ steps, package.nestedKindSteps kind = .ok steps := by
    unfold nestedKindSteps
    by_cases empty : (package.interfaces kind).isEmpty
    · exact ⟨_, if_pos empty⟩
    · obtain ⟨classes, written⟩ := parsed.exists_steps .single true fun _ => id
      simp only [if_neg empty]
      exact ⟨_, Outcome.bind_eq_ok_iff.2 ⟨classes, written, rfl⟩⟩
  obtain ⟨kinds, written⟩ := Outcome.exists_mapM_iff.2 fun kind (_ : kind ∈ Kind.all) => ofKind kind
  exact ⟨_, Outcome.bind_eq_ok_iff.2 ⟨kinds, written, rfl⟩⟩

end Package

end RosInterface
