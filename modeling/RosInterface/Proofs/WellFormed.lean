/-
# RosInterface.Proofs.WellFormed -- well-formed definitions

What a definition promises to those who take it up, said without any reader.  A
type names identifiers and counts in numbers that can be read back; a value is
canonical for its type and there are as many as the type says; a name is spelled
as its kind of item asks; a message declares no name twice; and the sections of an
interface are named after it.

`Interface.WellFormed package name` gathers all of it.  Readers produce only such
definitions, and of these definitions the written form is read back.
-/
import RosInterface.Declaration.Item
import RosInterface.Proofs.Declaration.Token
import RosInterface.Schema.Interface

set_option autoImplicit false

namespace RosInterface

/-! ## Names -/

namespace Text

/-- The name of a member. -/
structure MemberName (s : Text) : Prop where
  first : ∃ c rest, s = c :: rest ∧ c.isLower = true
  letters : ∀ c ∈ s, c.isLower = true ∨ c.isDigit = true ∨ c = CodePoint.ofChar '_'
  single : ¬ ofString "__" <:+: s
  closed : s.getLast? ≠ some (CodePoint.ofChar '_')

/-- The name of a constant. -/
structure ConstantName (s : Text) : Prop where
  first : ∃ c rest, s = c :: rest ∧ c.isUpper = true
  letters : ∀ c ∈ s, c.isUpper = true ∨ c.isDigit = true ∨ c = CodePoint.ofChar '_'
  single : ¬ ofString "__" <:+: s

theorem hasDoubleUnderscore_iff (s : Text) :
    s.hasDoubleUnderscore = true ↔ ofString "__" <:+: s := by
  induction s with
  | nil => decide
  | cons c rest ih =>
      have start : ofString "__" <+: c :: rest ↔
          c = CodePoint.ofChar '_' ∧ rest.head? = some (CodePoint.ofChar '_') := by
        rw [show ofString "__" = [CodePoint.ofChar '_', CodePoint.ofChar '_'] from rfl,
          List.cons_prefix_cons, eq_comm]
        cases rest with
        | nil => simp
        | cons d rest => simp [List.cons_prefix_cons, eq_comm]
      rw [List.infix_cons_iff, start, ← ih]
      simp [hasDoubleUnderscore]

theorem first_iff {p : CodePoint → Bool} {s : Text} :
    s.head?.any p = true ↔ ∃ c rest, s = c :: rest ∧ p c = true := by
  cases s <;> simp

theorem isMemberName_iff {s : Text} : s.isMemberName = true ↔ MemberName s := by
  have double := hasDoubleUnderscore_iff s
  rw [isMemberName, Bool.and_eq_true, Bool.and_eq_true, Bool.and_eq_true, first_iff,
    Bool.not_eq_true', ← Bool.not_eq_true, double]
  simp only [List.all_eq_true, Bool.or_eq_true, decide_eq_true_eq, bne_iff_ne, or_assoc]
  constructor
  · rintro ⟨⟨⟨first, letters⟩, single⟩, closed⟩
    exact ⟨first, letters, single, closed⟩
  · rintro ⟨first, letters, single, closed⟩
    exact ⟨⟨⟨first, letters⟩, single⟩, closed⟩

theorem isConstantName_iff {s : Text} : s.isConstantName = true ↔ ConstantName s := by
  have double := hasDoubleUnderscore_iff s
  rw [isConstantName, Bool.and_eq_true, Bool.and_eq_true, first_iff, Bool.not_eq_true',
    ← Bool.not_eq_true, double]
  simp only [List.all_eq_true, Bool.or_eq_true, decide_eq_true_eq, or_assoc]
  constructor
  · rintro ⟨⟨first, letters⟩, single⟩
    exact ⟨first, letters, single⟩
  · rintro ⟨first, letters, single⟩
    exact ⟨⟨first, letters⟩, single⟩

theorem isIdentifier_of_forall {s : Text} (first : ∃ c rest, s = c :: rest ∧ c.isLetter = true)
    (letters : ∀ c ∈ s, c.isWord = true) : IsIdentifier s := by
  obtain ⟨c, rest, rfl, letter⟩ := first
  exact ⟨c, rest, rfl, letter, fun d member => letters d (List.mem_cons_of_mem _ member)⟩

theorem MemberName.isIdentifier {s : Text} (name : MemberName s) : IsIdentifier s := by
  obtain ⟨c, rest, shape, lower⟩ := name.first
  refine isIdentifier_of_forall ⟨c, rest, shape, CodePoint.isLetter_iff.2 (.inl lower)⟩ ?_
  intro d member
  rw [CodePoint.isWord_iff, CodePoint.isLetter_iff]
  rcases name.letters d member with isLower | isDigit | rfl
  · exact .inl (.inl isLower)
  · exact .inr (.inl isDigit)
  · exact .inr (.inr rfl)

theorem ConstantName.isIdentifier {s : Text} (name : ConstantName s) : IsIdentifier s := by
  obtain ⟨c, rest, shape, upper⟩ := name.first
  refine isIdentifier_of_forall ⟨c, rest, shape, CodePoint.isLetter_iff.2 (.inr upper)⟩ ?_
  intro d member
  rw [CodePoint.isWord_iff, CodePoint.isLetter_iff]
  rcases name.letters d member with isUpper | isDigit | rfl
  · exact .inl (.inr isUpper)
  · exact .inr (.inl isDigit)
  · exact .inr (.inr rfl)

end Text

/-! ## Types -/

/-- The words that name a primitive type. -/
def Primitive.keywords : List Text :=
  Text.ofString "string" :: Text.ofString "wstring" :: BasicType.all.map (·.text)

/-- A number whose decimal text is within the limit of the reader. -/
def WithinDigits (n : Nat) : Prop := (Text.ofNat n).length ≤ maximalDigits

instance (n : Nat) : Decidable (WithinDigits n) := inferInstanceAs (Decidable (_ ≤ _))

def ElementType.WellFormed : ElementType → Prop
  | .primitive (.basic _) => True
  | .primitive (.string type) => ∀ bound, type.bound = some bound → WithinDigits bound
  | .named name => Text.IsIdentifier name ∧ name ∉ Primitive.keywords
  | .qualified type => Text.IsIdentifier type.package ∧ Text.IsIdentifier type.name

def FieldType.WellFormed : FieldType → Prop
  | .single element => element.WellFormed
  | .array element size => element.WellFormed ∧ WithinDigits size
  | .sequence element => element.WellFormed
  | .boundedSequence element capacity => element.WellFormed ∧ WithinDigits capacity

/-- A type that a constant may have: primitive, alone or in a fixed array, and no
bounded string. -/
def FieldType.ForConstant : FieldType → Prop
  | .single (.primitive (.basic _)) | .array (.primitive (.basic _)) _ => True
  | .single (.primitive (.string type)) | .array (.primitive (.string type)) _ => type.bound = none
  | _ => False

/-! ## Values -/

/-- The canonical texts of the values of a primitive type. -/
def Primitive.Canonical : Primitive → Text → Prop
  | .basic .bool, value => value = Text.ofString "true" ∨ value = Text.ofString "false"
  | .basic (.integer type), value =>
      ∃ n : Int, value = Text.ofInt n ∧ type.least ≤ n ∧ n ≤ type.greatest
  | .basic (.float _), value => FloatText value
  | .string type, value => ∀ bound, type.bound = some bound → value.length ≤ bound

/-- The numbers of values that a type has room for. -/
def FieldType.HasArity : FieldType → Nat → Prop
  | .single _, count => count = 1
  | .array _ size, count => count = size
  | .sequence _, _ => True
  | .boundedSequence _ capacity, count => count ≤ capacity

/-- The values belong to a type: it is a primitive one or made of primitive
elements, each value is canonical, and there are as many as it asks for. -/
structure FieldType.Holds (type : FieldType) (values : List Text) : Prop where
  canonical : ∃ element, type.element = .primitive element ∧
    ∀ value ∈ values, element.Canonical value
  arity : type.HasArity values.length

/-! ## Items, messages and interfaces -/

structure Member.WellFormed (member : Member) : Prop where
  name : Text.MemberName member.name
  type : member.type.WellFormed
  default : ∀ values, member.default = some values → member.type.Holds values

structure Constant.WellFormed (constant : Constant) : Prop where
  name : Text.ConstantName constant.name
  type : constant.type.WellFormed
  forConstant : constant.type.ForConstant
  value : constant.type.Holds constant.value

def Item.WellFormed : Item → Prop
  | .member m => m.WellFormed
  | .constant c => c.WellFormed

structure Message.WellFormed (message : Message) : Prop where
  members : ∀ member ∈ message.members, member.WellFormed
  constants : ∀ constant ∈ message.constants, constant.WellFormed
  distinct : message.declaredNames.Nodup

namespace Interface

/-- The messages that are written in a definition, one to a section. -/
def sections : Interface → List Message
  | .message m => [m]
  | .service s => [s.request, s.response]
  | .action a => [a.goal, a.result, a.feedback]

/-- The package that a definition says it is in. -/
def package : Interface → Text
  | .message m => m.package
  | .service s => s.package
  | .action a => a.package

/-- The definition has the given full name, its sections are named after it, and
each of them is well formed. -/
structure WellFormed (interface : Interface) (package name : Text) : Prop where
  package_eq : interface.package = package
  name_eq : interface.name = name
  names : interface.sections.map (fun m => (m.package, m.name)) =
    interface.kind.sectionSuffixes.map fun suffix => (package, name ++ suffix)
  sections : ∀ message ∈ interface.sections, message.WellFormed

end Interface

end RosInterface
