/-
# RosInterface.Proofs.Value.Canonical -- what is read is canonical

Each reader of a value answers a canonical text of its type, whatever it was
given; an array is read element by element, so its values are canonical as soon as
its elements are.  `Value.holds_of_forType` puts the readers and the check of the
count together: values that have been read belong to their type.
-/
import RosInterface.Proofs.Outcome
import RosInterface.Proofs.Value.Integer
import RosInterface.Proofs.Value.StringLiteral
import RosInterface.Proofs.WellFormed
import RosInterface.Value.Array

set_option autoImplicit false

namespace RosInterface.Value

variable {text value : Text}

/-! ## Single values -/

theorem canonical_of_boolean (read : boolean text = .ok value) :
    Primitive.Canonical (.basic .bool) value := by
  simp only [boolean] at read
  by_cases word : text.trim.lower = "true" ∨ text.trim.lower = "false"
  · rw [if_pos word] at read
    cases read
    exact word
  · rw [if_neg word] at read
    cases read

theorem canonical_of_integer {type : IntegerType} (read : integer type text = .ok value) :
    Primitive.Canonical (.basic (.integer type)) value := by
  have reading := integer_reading type text
  generalize integer type text = outcome at reading read
  cases reading with
  | unreadable | long | outOfRange => cases read
  | @inRange literal _ _ inside =>
      cases read
      simp only [IntegerType.contains, Bool.and_eq_true, decide_eq_true_eq] at inside
      exact ⟨literal.value, rfl, inside⟩

theorem canonical_of_floating {type : FloatType} (read : floating type text = .ok value) :
    Primitive.Canonical (.basic (.float type)) value := by
  simp only [floating] at read
  by_cases literal : (Scientific.read? text.trim).isSome = true
  · rw [if_pos literal] at read
    cases read
    exact Scientific.read?_isSome_iff.1 literal
  · rw [if_neg literal] at read
    cases read

theorem canonical_of_string {type : StringType} {mustQuote : Bool}
    (read : string type mustQuote text = .ok value) :
    Primitive.Canonical (.string type) value := by
  have reading := string_reading type mustQuote text
  generalize string type mustQuote text = outcome at reading read
  cases reading with
  | unterminated | undecodable | unquoted => cases read
  | quoted | bare =>
      obtain ⟨rfl, fits⟩ := fitting_eq_ok_iff.1 read
      exact fits

/-- **What is read for a primitive type is canonical for it.** -/
theorem canonical_of_primitive {type : Primitive} (read : primitive type text = .ok value) :
    type.Canonical value := by
  match type with
  | .basic .bool => exact canonical_of_boolean read
  | .basic (.integer _) => exact canonical_of_integer read
  | .basic (.float _) => exact canonical_of_floating read
  | .string _ => exact canonical_of_string read

/-! ## Arrays -/

theorem canonical_of_element {type : Primitive} {written : ArrayElement}
    (read : element type written = .ok value) : type.Canonical value := by
  cases written with
  | bare source => exact canonical_of_primitive read
  | quoted source =>
      rw [element] at read
      by_cases isString : type.isString = true
      · rw [if_pos isString] at read
        exact canonical_of_primitive read
      · rw [if_neg isString] at read
        cases read

theorem canonical_of_array {type : Primitive} {values : List Text}
    (read : array type text = .ok values) : ∀ value ∈ values, type.Canonical value := by
  rw [array] at read
  cases split : ArrayElement.split? text.trim with
  | none =>
      simp only [split] at read
      cases read
  | some elements =>
      simp only [split] at read
      exact Outcome.forall_mem_of_forall₂ (Outcome.mapM_eq_ok_iff.1 read)
        fun _ _ found => canonical_of_element found

theorem checkCount_eq_ok_iff {type : FieldType} {count : Nat} (array : type.isSingle = false) :
    checkCount type text count = .ok () ↔ type.HasArity count := by
  cases type with
  | single => cases array
  | array element size =>
      rw [checkCount, FieldType.HasArity]
      by_cases fits : count = size
      · simp [fits]
      · simp [fits, Outcome.refuse, Outcome.faultIn]
  | sequence => exact ⟨fun _ => trivial, fun _ => rfl⟩
  | boundedSequence element capacity =>
      rw [checkCount, FieldType.HasArity]
      by_cases fits : count ≤ capacity
      · simp [fits]
      · simp [fits, Outcome.refuse, Outcome.faultIn]

/-- The values of an array type are read in two steps. -/
theorem forType_array_eq_ok_iff {type : FieldType} {element : Primitive} {values : List Text}
    (primitive : type.element = .primitive element) (isArray : type.isSingle = false) :
    forType type text = .ok values ↔
      array element text = .ok values ∧ type.HasArity values.length := by
  simp only [forType, primitive, isArray]
  constructor
  · intro read
    obtain ⟨found, split, later⟩ := Outcome.bind_eq_ok_iff.1 read
    obtain ⟨⟨⟩, checked, whole⟩ := Outcome.bind_eq_ok_iff.1 later
    cases whole
    exact ⟨split, (checkCount_eq_ok_iff isArray).1 checked⟩
  · rintro ⟨split, arity⟩
    exact Outcome.bind_eq_ok_iff.2 ⟨values, split,
      Outcome.bind_eq_ok_iff.2 ⟨(), (checkCount_eq_ok_iff isArray).2 arity, rfl⟩⟩

theorem forType_single_eq_ok_iff {element : Primitive} {values : List Text} :
    forType (.single (.primitive element)) text = .ok values ↔
      ∃ value, primitive element text = .ok value ∧ values = [value] := by
  rw [show forType (.single (.primitive element)) text = (primitive element text).map ([·])
      from rfl,
    Outcome.map_eq_ok_iff]
  exact exists_congr fun value => and_congr_right fun _ => eq_comm

/-- **Values that have been read belong to their type.** -/
theorem holds_of_forType {type : FieldType} {values : List Text}
    (read : forType type text = .ok values) : type.Holds values := by
  cases element : type.element with
  | named name =>
      simp only [forType, element] at read
      cases read
  | qualified name =>
      simp only [forType, element] at read
      cases read
  | primitive primitive =>
      cases isSingle : type.isSingle with
      | true =>
          cases type with
          | single base =>
              cases element
              obtain ⟨value, found, rfl⟩ := forType_single_eq_ok_iff.1 read
              refine ⟨⟨primitive, rfl, fun v member => ?_⟩, rfl⟩
              cases List.mem_singleton.1 member
              exact canonical_of_primitive found
          | array => cases isSingle
          | sequence => cases isSingle
          | boundedSequence => cases isSingle
      | false =>
          obtain ⟨found, arity⟩ := (forType_array_eq_ok_iff element isSingle).1 read
          exact ⟨⟨primitive, element, canonical_of_array found⟩, arity⟩

end RosInterface.Value
