/-
# RosInterface.Proofs.Value.ReadBack -- shown values are read back

A canonical value is shown as it is, a string between quotes (`Primitive.shown`).
Whoever reads the shown text finds the value again: numbers because their digits
spell them, strings because a quoted text is one literal.  In an array the shown
values stand between commas, and each of them is a well-written element; so the array
is one by its syntax, as `ArrayElement.spaced_joined` shows by induction over the
elements.

`Value.forType_valuesText` is the result for every type.
-/
import RosInterface.Proofs.Text.Quoting
import RosInterface.Proofs.Value.ArraySyntax
import RosInterface.Proofs.Value.Canonical
import RosInterface.Proofs.Value.Integer
import RosInterface.Proofs.Value.StringLiteral
import RosInterface.Schema.Item

set_option autoImplicit false

namespace RosInterface

open Text (Spaced IsGap BareEnds OnLine)

/-! ## Literals without quotes -/

namespace CodePoint

/-- What words and signed numbers are written with. -/
def InLiteral (c : CodePoint) : Prop :=
  c.isWord = true ∨ c = ofChar '+' ∨ c = ofChar '-' ∨ c = ofChar '.'

theorem InLiteral.bounds {c : CodePoint} (inside : c.InLiteral) : 0x2B ≤ c.val ∧ c.val ≤ 0x7A := by
  rcases inside with word | rfl | rfl | rfl
  · have := ascii_of_isWord word
    omega
  all_goals decide

theorem InLiteral.not_isSpace {c : CodePoint} (inside : c.InLiteral) : c.isSpace = false := by
  have := inside.bounds
  rw [Bool.eq_false_iff, Ne, isSpace_iff]
  omega

theorem InLiteral.isPlain {c : CodePoint} (inside : c.InLiteral) : c.IsPlain := by
  rcases inside with word | rfl | rfl | rfl
  · exact Text.isPlain_of_isWord word
  all_goals decide

theorem InLiteral.isBare {c : CodePoint} (inside : c.InLiteral) : ArrayElement.isBare c = true := by
  have noSpace := inside.not_isSpace
  have plain := inside.isPlain
  have ne (x : Char) (outside : (ofChar x).isWord = false ∧ x ≠ '+' ∧ x ≠ '-' ∧ x ≠ '.') :
      c ≠ ofChar x := by
    rintro rfl
    rcases inside with word | same | same | same
    · rw [outside.1] at word
      cases word
    · exact outside.2.1 (ofChar_inj.1 same)
    · exact outside.2.2.1 (ofChar_inj.1 same)
    · exact outside.2.2.2 (ofChar_inj.1 same)
  simp [ArrayElement.isBare, noSpace, plain.2.1, ne ',' (by decide), ne '[' (by decide),
    ne ']' (by decide)]

end CodePoint

open CodePoint (InLiteral)

theorem IsDigits.inLiteral {digits : Text} (inside : ∀ c ∈ digits, c.isDigit = true) :
    ∀ c ∈ digits, InLiteral c :=
  fun c member => .inl (CodePoint.isWord_of_isDigit (inside c member))

theorem Text.inLiteral_ofInt (n : Int) : ofInt n ≠ [] ∧ ∀ c ∈ ofInt n, InLiteral c := by
  have digits : ∀ c ∈ ofNat n.natAbs, InLiteral c :=
    IsDigits.inLiteral fun _ => isDigit_of_mem_ofNat
  rcases lt_or_ge n 0 with negative | nonneg
  · rw [ofInt_of_neg negative]
    refine ⟨List.cons_ne_nil _ _, fun c member => ?_⟩
    rcases List.mem_cons.1 member with rfl | inRest
    · exact .inr (.inr (.inl rfl))
    · exact digits c inRest
  · rw [ofInt_of_nonneg nonneg]
    exact ⟨ofNat_ne_nil _, digits⟩

theorem FloatText.inLiteral {s : Text} (isFloat : FloatText s) :
    s ≠ [] ∧ ∀ c ∈ s, InLiteral c := by
  have marks : ∀ c ∈ floatMarks, InLiteral c := by
    unfold InLiteral
    decide
  obtain ⟨nonempty, inside⟩ := isFloat.inFloat
  refine ⟨nonempty, fun c member => ?_⟩
  rcases inside c member with digit | mark
  · exact .inl (CodePoint.isWord_of_isDigit digit)
  · exact marks c mark

/-- The canonical texts of the basic types hold nothing that needs quotes. -/
theorem BasicType.inLiteral {type : BasicType} {value : Text}
    (canonical : (Primitive.basic type).Canonical value) :
    value ≠ [] ∧ ∀ c ∈ value, InLiteral c := by
  match type, canonical with
  | .bool, canonical =>
      have words : ∀ c ∈ value, c.isWord = true := by
        rcases canonical with rfl | rfl <;> decide
      refine ⟨?_, fun c member => .inl (words c member)⟩
      rcases canonical with rfl | rfl <;> decide
  | .integer _, ⟨n, same, _⟩ =>
      rw [same]
      exact Text.inLiteral_ofInt n
  | .float _, isFloat => exact FloatText.inLiteral isFloat

/-! ## Single values -/

/-- A canonical value as it is written. -/
def Primitive.shown : Primitive → Text → Text
  | .basic _, value => value
  | .string _, value => value.quoted

namespace Value

variable {value : Text}

theorem bareEnds_of_inLiteral (inside : ∀ c ∈ value, InLiteral c) : BareEnds value :=
  Text.bareEnds_of_forall fun c member => (inside c member).not_isSpace

theorem bareEnds_shown {type : Primitive} (canonical : type.Canonical value) :
    BareEnds (type.shown value) := by
  cases type with
  | basic type => exact bareEnds_of_inLiteral (BasicType.inLiteral canonical).2
  | string type => exact (Text.isLiteral_quoted value).bareEnds

theorem shown_ne_nil {type : Primitive} (canonical : type.Canonical value) :
    type.shown value ≠ [] := by
  cases type with
  | basic type => exact (BasicType.inLiteral canonical).1
  | string type => exact List.cons_ne_nil _ _

theorem onLine_shown {type : Primitive} (canonical : type.Canonical value) :
    OnLine (type.shown value) := by
  cases type with
  | basic type =>
      exact Text.onLine_of_forall fun c member =>
        ((BasicType.inLiteral canonical).2 c member).isPlain
  | string type => exact Text.onLine_quoted value

theorem string_quoted {type : StringType} (canonical : (Primitive.string type).Canonical value)
    (mustQuote : Bool) : string type mustQuote value.quoted = .ok value := by
  obtain ⟨quote, body, isQuote, shape, written⟩ := Text.exists_quoted value
  have trimmed : value.quoted.trim = quote :: (body ++ [quote]) := by
    rw [Text.trim_of_bareEnds (Text.isLiteral_quoted value).bareEnds, shape]
  rw [string_of_body isQuote written trimmed]
  exact fitting_eq_ok_iff.2 ⟨rfl, canonical⟩

/-- **A canonical value is read back from where it is shown.** -/
theorem primitive_shown {type : Primitive} (canonical : type.Canonical value) :
    primitive type (type.shown value) = .ok value := by
  match type, canonical with
  | .basic .bool, canonical =>
      rcases canonical with rfl | rfl <;> rfl
  | .basic (.integer type), ⟨n, same, low, high⟩ =>
      have trimmed : (Text.ofInt n).trim = Text.ofInt n :=
        Text.trim_of_bareEnds (bareEnds_of_inLiteral (Text.inLiteral_ofInt n).2)
      have short := IntegerType.length_ofNat_le low high
      have inRange : type.contains n = true := by
        simp only [IntegerType.contains, Bool.and_eq_true, decide_eq_true_eq]
        exact ⟨low, high⟩
      subst same
      show integer type (Text.ofInt n) = .ok (Text.ofInt n)
      simp only [integer, trimmed, IntegerLiteral.read?_ofInt, IntegerLiteral.value_ofInt, inRange]
      rw [if_neg (by rw [maximalDigits]; omega)]
      rfl
  | .basic (.float type), isFloat =>
      have trimmed : value.trim = value :=
        Text.trim_of_bareEnds (bareEnds_of_inLiteral (FloatText.inLiteral isFloat).2)
      show floating type value = .ok value
      simp only [floating, trimmed]
      rw [if_pos (Scientific.read?_isSome_iff.2 isFloat)]
  | .string type, canonical => exact string_quoted canonical false

end Value

/-! ## Arrays -/

namespace ArrayElement

theorem wellWritten_bare {source : Text} (nonempty : source ≠ [])
    (inside : ∀ c ∈ source, InLiteral c) : (bare source).WellWritten :=
  ⟨nonempty, fun c member => (inside c member).isBare⟩

/-- A quoted text is printable throughout, so it holds no newline. -/
theorem wellWritten_quoted (s : Text) : (quoted s.quoted).WellWritten :=
  ⟨Text.isLiteral_quoted s, fun member =>
    absurd (Text.isPrintable_of_mem_quoted member) (by decide)⟩

/-- Elements with commas between them are the tokens of a list. -/
theorem spaced_joined (elements : List ArrayElement) {gap : Text} (isGap : IsGap gap) :
    Spaced (listTokens elements false)
      (gap ++ (Text.joined ", " (elements.map source) ++ Text.ofString "]")) [] := by
  induction elements generalizing gap with
  | nil => exact Spaced.singleton_iff.2 ⟨gap, isGap, by simp [Text.joined]⟩
  | cons element others ih =>
      cases others with
      | nil =>
          rw [List.map_singleton, Text.joined_singleton]
          exact Spaced.cons_iff.2 ⟨gap, Text.ofString "]", isGap, rfl,
            Spaced.singleton_iff.2 ⟨[], Text.isGap_nil, by simp⟩⟩
      | cons next others =>
          have joined : Text.joined ", " ((element :: next :: others).map source) =
              element.source ++ (Text.ofString "," ++
                (" " ++ Text.joined ", " ((next :: others).map source))) := by
            rw [List.map_cons, List.map_cons, Text.joined_cons_cons]
            rfl
          rw [joined, listTokens_cons_cons]
          refine Spaced.cons_iff.2 ⟨gap, _, isGap, by rw [List.append_assoc], ?_⟩
          refine Spaced.cons_iff.2 ⟨[], _, Text.isGap_nil, by rw [List.append_assoc]; rfl, ?_⟩
          rw [List.append_assoc]
          exact ih Text.isGap_space

/-- **Elements between brackets, with commas between them, are split again.** -/
theorem split?_joined {elements : List ArrayElement}
    (wellWritten : ∀ element ∈ elements, element.WellWritten) :
    split? ("[" ++ (Text.joined ", " (elements.map source) ++ "]")) = some elements :=
  split?_eq_some_iff.2 ⟨false, [], wellWritten, fun never => (by cases never),
    Spaced.cons_iff.2 ⟨[], _, Text.isGap_nil, rfl, spaced_joined elements Text.isGap_nil⟩,
    Text.isGap_nil⟩

end ArrayElement

namespace Value

/-- The element that shows a canonical value. -/
def shownElement (type : Primitive) (value : Text) : ArrayElement :=
  match type with
  | .basic _ => .bare value
  | .string _ => .quoted value.quoted

theorem source_shownElement (type : Primitive) (value : Text) :
    (shownElement type value).source = type.shown value := by
  cases type <;> rfl

theorem wellWritten_shownElement {type : Primitive} {value : Text}
    (canonical : type.Canonical value) : (shownElement type value).WellWritten := by
  cases type with
  | basic type =>
      obtain ⟨nonempty, inside⟩ := BasicType.inLiteral canonical
      exact ArrayElement.wellWritten_bare nonempty inside
  | string type => exact ArrayElement.wellWritten_quoted value

theorem element_shownElement {type : Primitive} {value : Text}
    (canonical : type.Canonical value) : element type (shownElement type value) = .ok value := by
  cases type with
  | basic type => exact primitive_shown canonical
  | string type => exact primitive_shown canonical

/-- The values of an array between brackets. -/
def shownArray (type : Primitive) (values : List Text) : Text :=
  "[" ++ (Text.joined ", " (values.map type.shown) ++ "]")

theorem bareEnds_shownArray (type : Primitive) (values : List Text) :
    BareEnds (shownArray type values) := by
  constructor
  · exact Text.stops_cons.2 (by decide)
  · intro c last
    rw [shownArray, List.getLast?_append_of_ne_nil _ (by simp [Text.ofString]),
      List.getLast?_append_of_ne_nil _ (by simp [Text.ofString])] at last
    cases last
    decide

theorem array_shownArray {type : Primitive} {values : List Text}
    (canonical : ∀ value ∈ values, type.Canonical value) :
    array type (shownArray type values) = .ok values := by
  have sources : values.map type.shown =
      (values.map (shownElement type)).map ArrayElement.source := by
    rw [List.map_map]
    exact List.map_congr_left fun value _ => (source_shownElement type value).symm
  have split : ArrayElement.split? (shownArray type values) =
      some (values.map (shownElement type)) := by
    rw [shownArray, sources]
    refine ArrayElement.split?_joined fun element member => ?_
    obtain ⟨value, inValues, rfl⟩ := List.mem_map.1 member
    exact wellWritten_shownElement (canonical value inValues)
  simp only [array, Text.trim_of_bareEnds (bareEnds_shownArray type values), split]
  rw [Outcome.mapM_eq_ok_iff, List.forall₂_map_left_iff, List.forall₂_same]
  exact fun value member => element_shownElement (canonical value member)

theorem onLine_joined {pieces : List Text} (onLine : ∀ piece ∈ pieces, OnLine piece) :
    OnLine (Text.joined ", " pieces) := by
  induction pieces with
  | nil => exact Text.onLine_nil
  | cons piece others ih =>
      have first := onLine piece (by simp)
      have later := ih fun p member => onLine p (List.mem_cons_of_mem _ member)
      cases others with
      | nil =>
          rw [Text.joined_singleton]
          exact first
      | cons next others =>
          rw [Text.joined_cons_cons]
          exact first.append ((Text.onLine_of_forall (by decide)).append later)

end Value

namespace FieldType

variable {type : FieldType} {values : List Text}

/-- How the values of a type are written. -/
theorem valuesText_eq {element : Primitive} (primitive : type.element = .primitive element) :
    type.valuesText values =
      if type.isSingle then (values.map element.shown).headD []
      else Value.shownArray element values := by
  cases element with
  | basic basic =>
      have shown : values.map (Primitive.basic basic).shown = values := List.map_id values
      simp only [valuesText, primitive, shown, Value.shownArray, List.append_assoc]
  | string string =>
      have shown : values.map (Primitive.string string).shown = values.map Text.quoted := rfl
      simp only [valuesText, primitive, shown, Value.shownArray, List.append_assoc]

theorem valuesText_single (element : Primitive) (value : Text) :
    (single (.primitive element)).valuesText [value] = element.shown value :=
  valuesText_eq rfl

theorem exists_single (holds : type.Holds values) (isSingle : type.isSingle = true) :
    ∃ element value, type = .single (.primitive element) ∧ values = [value] ∧
      element.Canonical value := by
  obtain ⟨⟨element, primitive, canonical⟩, arity⟩ := holds
  cases type with
  | single base =>
      obtain ⟨value, rfl⟩ := List.length_eq_one_iff.1 arity
      cases primitive
      exact ⟨element, value, rfl, rfl, canonical value (by simp)⟩
  | array => cases isSingle
  | sequence => cases isSingle
  | boundedSequence => cases isSingle

/-- **Values that belong to a type are read back from where they are written.** -/
theorem forType_valuesText (holds : type.Holds values) :
    Value.forType type (type.valuesText values) = .ok values := by
  cases isSingle : type.isSingle with
  | true =>
      obtain ⟨element, value, rfl, rfl, canonical⟩ := exists_single holds isSingle
      rw [valuesText_single]
      exact Value.forType_single_eq_ok_iff.2 ⟨value, Value.primitive_shown canonical, rfl⟩
  | false =>
      obtain ⟨⟨element, primitive, canonical⟩, arity⟩ := holds
      rw [valuesText_eq primitive, isSingle]
      exact (Value.forType_array_eq_ok_iff primitive isSingle).2
        ⟨Value.array_shownArray canonical, arity⟩

/-- Written values begin and end in no white space, are not empty, and stay on their
line. -/
theorem shape_valuesText (holds : type.Holds values) :
    BareEnds (type.valuesText values) ∧ type.valuesText values ≠ [] ∧
      OnLine (type.valuesText values) := by
  cases isSingle : type.isSingle with
  | true =>
      obtain ⟨element, value, rfl, rfl, canonical⟩ := exists_single holds isSingle
      rw [valuesText_single]
      exact ⟨Value.bareEnds_shown canonical, Value.shown_ne_nil canonical,
        Value.onLine_shown canonical⟩
  | false =>
      obtain ⟨⟨element, primitive, canonical⟩, -⟩ := holds
      rw [valuesText_eq primitive, isSingle]
      refine ⟨Value.bareEnds_shownArray element values, List.cons_ne_nil _ _, ?_⟩
      have pieces : OnLine (Text.joined ", " (values.map element.shown)) := by
        refine Value.onLine_joined fun piece member => ?_
        obtain ⟨value, inValues, rfl⟩ := List.mem_map.1 member
        exact Value.onLine_shown (canonical value inValues)
      exact (Text.onLine_of_forall (by decide)).append
        (pieces.append (Text.onLine_of_forall (by decide)))

end FieldType

end RosInterface
