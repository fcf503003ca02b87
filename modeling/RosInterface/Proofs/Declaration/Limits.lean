/-
# RosInterface.Proofs.Declaration.Limits -- declarations past the limits of the reader

A type runs into a limit when a bound or a size in it has more digits than the reader
takes; a kind of definition that is unknown is found first.  A declaration runs into
one through its type, or through its value once the type and the name are in order.
`Item.aborts_ofLine_iff` says that a line aborts exactly then.
-/
import RosInterface.Proofs.Declaration.LineGrammar
import RosInterface.Proofs.Value.Limits

set_option autoImplicit false

namespace RosInterface

open Text (Spaced)

/-! ## The limits -/

/-- The kind of definition in the middle of three words is one of the three. -/
def WordSpec.Known : WordSpec → Prop
  | .full _ kind _ => kind ∈ Kind.all.map (·.text)
  | _ => True

/-- The digit runs of the brackets. -/
def ShapeSpec.sizes : ShapeSpec → List Text
  | .single | .sequence => []
  | .array digits | .boundedSequence digits => [digits]

namespace TypeSpec

/-- The digit runs of a written type: its bound and its size. -/
def sizes (spec : TypeSpec) : List Text := spec.bound.toList ++ spec.shape.sizes

/-- A bound or a size has more digits than the reader takes. -/
def Exceeds (spec : TypeSpec) : Prop :=
  spec.words.Known ∧ ∃ digits ∈ spec.sizes, maximalDigits < digits.length

end TypeSpec

/-- The text is a written type that runs into a limit. -/
def FieldType.TextExceeds (text : Text) : Prop :=
  ∃ spec : TypeSpec, spec.Lexical ∧ Spaced spec.tokens text.trim [] ∧ spec.Exceeds

/-- A cut runs into a limit in its type, or in its value once the type is accepted
and the name is right. -/
def DeclarationText.Exceeds (d : DeclarationText) : Prop :=
  FieldType.TextExceeds d.type ∨
    ∃ type, FieldType.ofText d.type = .ok type ∧
      match d.tail with
      | .absent => False
      | .default value => Text.MemberName d.name ∧ type.Exceeds value
      | .assigned _ value => Text.ConstantName d.name ∧ type.ForConstant ∧ type.Exceeds value

/-- The line can be cut into a declaration that runs into a limit. -/
def Item.LineExceeds (line : Text) : Prop :=
  ∃ d : DeclarationText, d.Shaped ∧ d.text = line.withoutComment.trim ∧ d.Exceeds

/-! ## Types -/

namespace TypeSpec

variable {e : Text} {spec : TypeSpec}

theorem aborts_size_iff {digits : Text} : (size digits).Aborts ↔ maximalDigits < digits.length := by
  rw [size]
  by_cases long : maximalDigits < digits.length
  · rw [if_pos long]
    exact ⟨fun _ => long, fun _ => Outcome.aborts_abort _⟩
  · rw [if_neg long]
    exact ⟨fun aborts => absurd aborts (Outcome.not_aborts_ok _), fun same => absurd same long⟩

theorem exists_resolveWords_iff {words : WordSpec} :
    (∃ element, resolveWords e words = .ok element) ↔ words.Known := by
  cases words with
  | bare name =>
      refine ⟨fun _ => trivial, fun _ => ?_⟩
      cases found : Primitive.ofKeyword? name with
      | none => exact ⟨.named name, by simp only [resolveWords, found]⟩
      | some type => exact ⟨.primitive type, by simp only [resolveWords, found]⟩
  | inPackage package name => exact ⟨fun _ => trivial, fun _ => ⟨_, rfl⟩⟩
  | full package kind name =>
      cases found : Kind.ofText? kind with
      | none =>
          have unknown := found
          rw [Kind.ofText?, List.find?_eq_none] at unknown
          constructor
          · rintro ⟨element, read⟩
            simp only [resolveWords, found] at read
            cases read
          · intro known
            obtain ⟨k, member, same⟩ := List.mem_map.1 known
            exact absurd (decide_eq_true same) (unknown k member)
      | some k =>
          refine ⟨fun _ => ?_, fun _ => ⟨.qualified ⟨package, k, name⟩, ?_⟩⟩
          · have same := List.find?_some found
            exact List.mem_map.2 ⟨k, List.mem_of_find?_eq_some found, by simpa using same⟩
          · simp only [resolveWords, found]

theorem not_aborts_resolveWords {words : WordSpec} : ¬ (resolveWords e words).Aborts := by
  cases words with
  | bare name =>
      rw [resolveWords]
      split <;> exact Outcome.not_aborts_ok _
  | inPackage package name => exact Outcome.not_aborts_ok _
  | full package kind name =>
      rw [resolveWords]
      split
      · exact Outcome.not_aborts_ok _
      · exact Outcome.not_aborts_faultIn _ _

theorem aborts_resolveBound_iff {bound : Option Text} :
    (resolveBound bound).Aborts ↔ ∃ digits ∈ bound.toList, maximalDigits < digits.length := by
  cases bound with
  | none => simp [resolveBound]
  | some digits => simp [resolveBound, Outcome.aborts_map_iff, aborts_size_iff]

theorem aborts_resolveShape_iff {shape : ShapeSpec} :
    (resolveShape shape).Aborts ↔ ∃ digits ∈ shape.sizes, maximalDigits < digits.length := by
  cases shape with
  | single => simp [resolveShape, ShapeSpec.sizes]
  | sequence => simp [resolveShape, ShapeSpec.sizes]
  | array digits =>
      simp [resolveShape, ShapeSpec.sizes, Outcome.aborts_map_iff, aborts_size_iff]
  | boundedSequence digits =>
      simp [resolveShape, ShapeSpec.sizes, Outcome.aborts_map_iff, aborts_size_iff]

theorem not_aborts_bounded {element : ElementType} {bound : Option Nat} :
    ¬ (bounded e element bound).Aborts := by
  cases bound with
  | none => exact Outcome.not_aborts_ok _
  | some n =>
      match element with
      | .primitive (.string type) => exact Outcome.not_aborts_ok _
      | .primitive (.basic type) => exact Outcome.not_aborts_faultIn _ _
      | .named name => exact Outcome.not_aborts_faultIn _ _
      | .qualified name => exact Outcome.not_aborts_faultIn _ _

/-- A bound is read, or it has too many digits. -/
theorem exists_resolveBound {bound : Option Text} (quiet : ¬ (resolveBound bound).Aborts) :
    ∃ value, resolveBound bound = .ok value := by
  cases bound with
  | none => exact ⟨none, rfl⟩
  | some digits =>
      rw [resolveBound, Outcome.aborts_map_iff, aborts_size_iff] at quiet
      exact ⟨some (digits.value 10), Outcome.map_eq_ok_iff.2
        ⟨_, size_eq_ok_iff.2 ⟨Nat.not_lt.1 quiet, rfl⟩, rfl⟩⟩

/-- **A written type aborts exactly past its limits.** -/
theorem aborts_resolve_iff : (spec.resolve e).Aborts ↔ spec.Exceeds := by
  have sizes : (∃ digits ∈ spec.sizes, maximalDigits < digits.length) ↔
      (resolveBound spec.bound).Aborts ∨ (resolveShape spec.shape).Aborts := by
    rw [aborts_resolveBound_iff, aborts_resolveShape_iff, TypeSpec.sizes]
    simp only [List.mem_append, or_and_right, exists_or]
  rw [Exceeds, sizes, ← exists_resolveWords_iff (e := e), resolve, Outcome.aborts_bind_iff,
    or_iff_right not_aborts_resolveWords, exists_and_right.symm]
  refine exists_congr fun base => and_congr_right fun _ => ?_
  rw [Outcome.aborts_bind_iff]
  constructor
  · rintro (bound | ⟨bound, -, later⟩)
    · exact .inl bound
    · rcases Outcome.aborts_bind_iff.1 later with shape | ⟨shape, -, last⟩
      · exact .inr shape
      · rcases Outcome.aborts_bind_iff.1 last with inElement | ⟨_, _, done⟩
        · exact absurd inElement not_aborts_bounded
        · exact absurd done (Outcome.not_aborts_ok _)
  · intro aborts
    by_cases inBound : (resolveBound spec.bound).Aborts
    · exact .inl inBound
    · obtain ⟨bound, read⟩ := exists_resolveBound inBound
      exact .inr ⟨bound, read, Outcome.aborts_bind_iff.2 (.inl (aborts.resolve_left inBound))⟩

section

variable {p : Diagnostic → Prop}

theorem diagnoses_size (digits : Text) : (size digits).Diagnoses p := by
  rw [size]
  split
  · exact Outcome.diagnoses_abort _
  · exact Outcome.diagnoses_ok _

theorem diagnoses_resolveBound (bound : Option Text) : (resolveBound bound).Diagnoses p := by
  cases bound with
  | none => exact Outcome.diagnoses_ok _
  | some digits => exact (diagnoses_size digits).map some

theorem diagnoses_resolveShape (shape : ShapeSpec) : (resolveShape shape).Diagnoses p := by
  cases shape with
  | single => exact Outcome.diagnoses_ok _
  | sequence => exact Outcome.diagnoses_ok _
  | array digits => exact (diagnoses_size digits).map _
  | boundedSequence digits => exact (diagnoses_size digits).map _

variable (each : ∀ f : GrammarFault, p ((Diagnostic.ofFault (.grammar f)).withExcerpt e))

include each

theorem diagnoses_faultIn {α : Type} (f : GrammarFault) :
    (Outcome.faultIn e (.grammar f) : Outcome α).Diagnoses p := by
  rintro d ⟨⟩
  exact each f

theorem diagnoses_resolveWords (words : WordSpec) : (resolveWords e words).Diagnoses p := by
  cases words with
  | bare name =>
      rw [resolveWords]
      split <;> exact Outcome.diagnoses_ok _
  | inPackage package name => exact Outcome.diagnoses_ok _
  | full package kind name =>
      rw [resolveWords]
      split
      · exact Outcome.diagnoses_ok _
      · exact diagnoses_faultIn each _

theorem diagnoses_bounded (element : ElementType) (bound : Option Nat) :
    (bounded e element bound).Diagnoses p := by
  cases bound with
  | none => exact Outcome.diagnoses_ok _
  | some n =>
      match element with
      | .primitive (.string type) => exact Outcome.diagnoses_ok _
      | .primitive (.basic type) => exact diagnoses_faultIn each _
      | .named name => exact diagnoses_faultIn each _
      | .qualified name => exact diagnoses_faultIn each _

/-- What holds of the faults of grammar holds of every diagnostic about a type. -/
theorem diagnoses_resolve : (spec.resolve e).Diagnoses p :=
  (diagnoses_resolveWords each spec.words).bind fun element =>
    (diagnoses_resolveBound spec.bound).bind fun bound =>
      (diagnoses_resolveShape spec.shape).bind fun _ =>
        (diagnoses_bounded each element bound).bind fun _ => Outcome.diagnoses_ok _

end

end TypeSpec

namespace FieldType

variable {text : Text}

/-- The text is a written type exactly when the reader takes it whole. -/
theorem textExceeds_iff :
    TextExceeds text ↔ ∃ spec, TypeSpec.read? text.trim = some (spec, []) ∧ spec.Exceeds := by
  simp only [TextExceeds, TypeSpec.read?_eq_some_iff]
  refine exists_congr fun spec => ?_
  constructor
  · rintro ⟨lexical, spaced, exceeds⟩
    exact ⟨⟨lexical, spaced, spec.ends_nil⟩, exceeds⟩
  · rintro ⟨⟨lexical, spaced, -⟩, exceeds⟩
    exact ⟨lexical, spaced, exceeds⟩

/-- **The reader of types aborts exactly past its limits.** -/
theorem aborts_ofText_iff : (ofText text).Aborts ↔ TextExceeds text := by
  have bare := Text.bareEnds_trim text
  rw [textExceeds_iff, ← ofText_trim]
  constructor
  · intro aborts
    by_contra absent
    have unread : ∀ spec, TypeSpec.read? text.trim ≠ some (spec, []) := by
      intro spec read
      rw [ofText_of_read bare read, TypeSpec.aborts_resolve_iff] at aborts
      exact absent ⟨spec, read, aborts⟩
    rw [ofText_of_not_read bare unread] at aborts
    exact Outcome.not_aborts_faultIn _ _ aborts
  · rintro ⟨spec, read, exceeds⟩
    rw [ofText_of_read bare read]
    exact TypeSpec.aborts_resolve_iff.2 exceeds

theorem tame_ofText : (ofText text).Tame := by
  have bare := Text.bareEnds_trim text
  rw [← ofText_trim]
  by_cases read : ∃ spec, TypeSpec.read? text.trim = some (spec, [])
  · obtain ⟨spec, read⟩ := read
    rw [ofText_of_read bare read]
    exact TypeSpec.diagnoses_resolve fun _ => trivial
  · rw [ofText_of_not_read bare fun spec same => read ⟨spec, same⟩]
    exact Outcome.tame_faultIn _ trivial

end FieldType

/-! ## Lines -/

namespace DeclarationSpec

variable {type : FieldType} {name value : Text}

theorem aborts_buildMember_iff :
    (buildMember type name (some value)).Aborts ↔ Text.MemberName name ∧ type.Exceeds value := by
  rw [buildMember, ← Text.isMemberName_iff]
  by_cases named : name.isMemberName = true
  · rw [if_pos named, and_iff_right named, ← Value.aborts_forType_iff]
    show (Value.forType type value >>= _).Aborts ↔ _
    rw [Outcome.aborts_bind_iff, or_iff_left]
    rintro ⟨values, -, done⟩
    exact Outcome.not_aborts_ok _ done
  · rw [if_neg named]
    exact ⟨fun aborts => absurd aborts (Outcome.not_aborts_fault _), fun h => absurd h.1 named⟩

theorem not_aborts_buildMember_none : ¬ (buildMember type name none).Aborts := by
  rw [buildMember]
  split
  · exact Outcome.not_aborts_ok _
  · exact Outcome.not_aborts_fault _

theorem structured_checkConstantType : (checkConstantType type).Structured := by
  have strings {s : StringType} {f : GrammarFault} :
      Outcome.Structured (if s.bound.isSome = true then .fault (.grammar f) else .ok ()) := by
    split
    · exact Outcome.structured_fault trivial
    · exact Outcome.structured_ok _
  match type with
  | .single (.primitive (.basic _)) | .array (.primitive (.basic _)) _ =>
      exact Outcome.structured_ok _
  | .single (.primitive (.string s)) | .array (.primitive (.string s)) _ => exact strings
  | .single (.named _) | .single (.qualified _) | .array (.named _) _ | .array (.qualified _) _
  | .sequence _ | .boundedSequence _ _ => exact Outcome.structured_fault trivial

theorem aborts_buildConstant_iff :
    (buildConstant type name value).Aborts ↔
      Text.ConstantName name ∧ type.ForConstant ∧ type.Exceeds value := by
  rw [buildConstant, Outcome.aborts_bind_iff, or_iff_right structured_checkConstantType.not_aborts,
    ← checkConstantType_eq_ok_iff, ← Text.isConstantName_iff, ← Value.aborts_forType_iff]
  by_cases named : name.isConstantName = true
  · simp only [named, true_and]
    constructor
    · rintro ⟨_, checked, aborts⟩
      rcases Outcome.aborts_bind_iff.1 aborts with inValue | ⟨_, _, done⟩
      · exact ⟨checked, inValue⟩
      · exact absurd done (Outcome.not_aborts_ok _)
    · rintro ⟨checked, aborts⟩
      exact ⟨(), checked, Outcome.aborts_bind_iff.2 (.inl aborts)⟩
  · simp [named]

theorem tame_build {tail : TailSpec} : (build type name tail).Tame := by
  cases tail with
  | absent =>
      show (buildMember type name none).Tame
      rw [buildMember]
      split
      · exact Outcome.diagnoses_ok _
      · exact Outcome.tame_fault trivial
  | default value =>
      show (buildMember type name (some value)).Tame
      rw [buildMember]
      split
      · exact (Value.tame_forType type).bind fun _ => Outcome.diagnoses_ok _
      · exact Outcome.tame_fault trivial
  | assigned value =>
      refine structured_checkConstantType.tame.bind fun _ => ?_
      split
      · exact (Value.tame_forType type).bind fun _ => Outcome.diagnoses_ok _
      · exact Outcome.tame_fault trivial

end DeclarationSpec

/-- A cut whose type is accepted can run into a limit only in its value. -/
theorem DeclarationText.exceeds_iff {d : DeclarationText} {type : FieldType}
    (accepted : FieldType.ofText d.type = .ok type) :
    d.Exceeds ↔ (DeclarationSpec.build type d.name d.tail.spec).Aborts := by
  have inType : ¬ FieldType.TextExceeds d.type := by
    rw [← FieldType.aborts_ofText_iff, accepted]
    exact Outcome.not_aborts_ok _
  rw [Exceeds, or_iff_right inType]
  simp only [accepted, Except.ok.injEq, exists_eq_left']
  cases d.tail with
  | absent => exact (iff_false_intro DeclarationSpec.not_aborts_buildMember_none).symm
  | default value => exact DeclarationSpec.aborts_buildMember_iff.symm
  | assigned gap value => exact DeclarationSpec.aborts_buildConstant_iff.symm

namespace Item

variable {line : Text}

/-- A cut whose type can be read aborts exactly past its limits. -/
theorem aborts_ofLine_of_shaped {d : DeclarationText} {spec : TypeSpec} (shaped : d.Shaped)
    (whole : d.text = line.withoutComment.trim)
    (alone : TypeSpec.read? d.type = some (spec, [])) : (ofLine line).Aborts ↔ d.Exceeds := by
  rw [ofLine_of_shaped shaped whole alone, Outcome.aborts_bind_iff]
  simp only [Outcome.aborts_mapDiagnostic_iff]
  have resolve {e : Text} {type : FieldType} :
      spec.resolve e = .ok type ↔ FieldType.ofText d.type = .ok type := by
    rw [FieldType.ofText_of_read shaped.bare alone]
    exact ⟨TypeSpec.resolve_excerpt, TypeSpec.resolve_excerpt⟩
  have inType : FieldType.TextExceeds d.type ↔ spec.Exceeds := by
    rw [← FieldType.aborts_ofText_iff, FieldType.ofText_of_read shaped.bare alone,
      TypeSpec.aborts_resolve_iff]
  rw [TypeSpec.aborts_resolve_iff, ← inType]
  constructor
  · rintro (exceeds | ⟨type, resolved, aborts⟩)
    · exact .inl exceeds
    · exact (DeclarationText.exceeds_iff (resolve.1 resolved)).2 aborts
  · rintro (exceeds | ⟨type, accepted, inValue⟩)
    · exact .inl exceeds
    · exact .inr ⟨type, resolve.2 accepted,
        (DeclarationText.exceeds_iff accepted).1 (.inr ⟨type, accepted, inValue⟩)⟩

/-- The type of a cut that runs into a limit can be read. -/
theorem read?_of_exceeds {d : DeclarationText} (shaped : d.Shaped) (exceeds : d.Exceeds) :
    ∃ spec, TypeSpec.read? d.type = some (spec, []) := by
  rcases exceeds with inType | ⟨type, accepted, -⟩
  · obtain ⟨spec, read, -⟩ := FieldType.textExceeds_iff.1 inType
    rw [Text.trim_of_bareEnds shaped.bare] at read
    exact ⟨spec, read⟩
  · obtain ⟨spec, read, -⟩ := (FieldType.ofText_eq_ok_iff shaped.bare).1 accepted
    exact ⟨spec, read⟩

/-- **The reader of lines aborts exactly past its limits.** -/
theorem aborts_ofLine_iff : (ofLine line).Aborts ↔ LineExceeds line := by
  constructor
  · intro aborts
    by_contra absent
    have uncut : ∀ (d : DeclarationText) (spec : TypeSpec), d.Shaped →
        d.text = line.withoutComment.trim → TypeSpec.read? d.type ≠ some (spec, []) :=
      fun d spec shaped whole alone =>
        absent ⟨d, shaped, whole, (aborts_ofLine_of_shaped shaped whole alone).1 aborts⟩
    obtain ⟨excerpt, fault, failed⟩ := ofLine_of_not_shaped uncut
    rw [failed] at aborts
    exact Outcome.not_aborts_faultIn _ _ aborts
  · rintro ⟨d, shaped, whole, exceeds⟩
    obtain ⟨spec, alone⟩ := read?_of_exceeds shaped exceeds
    exact (aborts_ofLine_of_shaped shaped whole alone).2 exceeds

theorem tame_ofLine : (ofLine line).Tame := by
  rw [ofLine]
  split
  · exact Outcome.tame_faultIn _ trivial
  · split
    · exact Outcome.tame_faultIn _ trivial
    · exact (TypeSpec.diagnoses_resolve fun _ => trivial).bind fun _ =>
        DeclarationSpec.tame_build.mapDiagnostic fun _ ofText => ofText

/-- Every diagnostic of a line shows the text that it is about. -/
theorem shown_ofLine : (ofLine line).Shown := by
  rw [ofLine]
  split
  · exact Outcome.shown_faultIn _ _
  · split
    · exact Outcome.shown_faultIn _ _
    · exact (TypeSpec.diagnoses_resolve fun _ => rfl).bind fun _ =>
        DeclarationSpec.tame_build.mapDiagnostic fun _ _ => rfl

end Item

end RosInterface
