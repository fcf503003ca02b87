/-
# RosInterface.Proofs.Declaration.ReadBack -- written items are read back

The text of a well-formed item stays on its line (`Item.onLine_text`), and cut as it
was put together it is a declaration of the item: type, space, name, and then
nothing, or a space and a default, or an equals sign and a value.  The grammar of
declarations does the rest, so `Item.ofLine_text` needs no reader at all.
-/
import RosInterface.Proofs.Declaration.LineGrammar
import RosInterface.Proofs.Value.ReadBack

set_option autoImplicit false

namespace RosInterface

open Text (Stops IsIdentifier IsGap BareEnds OnLine)

/-! ## Types -/

namespace CodePoint

/-- What types are written with. -/
def InType (c : CodePoint) : Prop := c.isWord = true ∨ c ∈ Text.ofString "/<=[]"

theorem InType.isPlain {c : CodePoint} (inside : c.InType) : c.IsPlain := by
  rcases inside with word | mark
  · exact Text.isPlain_of_isWord word
  · exact (show ∀ d ∈ Text.ofString "/<=[]", d.IsPlain by decide) c mark

theorem InType.not_isSpace {c : CodePoint} (inside : c.InType) : c.isSpace = false := by
  rcases inside with word | mark
  · exact not_isSpace_of_isWord word
  · exact (show ∀ d ∈ Text.ofString "/<=[]", d.isSpace = false by decide) c mark

end CodePoint

open CodePoint (InType)

theorem IsDigits.inType {digits : Text} (run : IsDigits digits) : ∀ c ∈ digits, InType c :=
  fun c member => .inl (CodePoint.isWord_of_isDigit (run.2 c member))

theorem Text.IsIdentifier.inType {name : Text} (identifier : IsIdentifier name) :
    ∀ c ∈ name, InType c :=
  fun c member => .inl (identifier.isWord c member)

theorem WordSpec.inType {words : WordSpec} (lexical : words.Lexical) :
    ∀ token ∈ words.tokens, ∀ c ∈ token, InType c := by
  have slash : ∀ c ∈ Text.ofString "/", InType c := fun c member => .inr (by
    revert c
    decide)
  cases words with
  | bare name => simpa [tokens] using lexical.inType
  | inPackage package name =>
      simpa [tokens] using ⟨lexical.1.inType, slash, lexical.2.inType⟩
  | full package kind name =>
      simpa [tokens] using
        ⟨lexical.1.inType, slash, lexical.2.1.inType, slash, lexical.2.2.inType⟩

theorem TypeSpec.inType {spec : TypeSpec} (lexical : spec.Lexical) :
    ∀ token ∈ spec.tokens, ∀ c ∈ token, InType c := by
  have marks (mark : Text) (inside : ∀ c ∈ mark, c ∈ Text.ofString "/<=[]") :
      ∀ c ∈ mark, InType c := fun c member => .inr (inside c member)
  have le := marks "<=" (by decide)
  have opening := marks "[" (by decide)
  have closing := marks "]" (by decide)
  have bound : ∀ token ∈ boundTokens spec.bound, ∀ c ∈ token, InType c := by
    cases written : spec.bound with
    | none => simp [boundTokens]
    | some digits => simpa [boundTokens] using ⟨le, (lexical.bound digits written).inType⟩
  have shape : ∀ token ∈ spec.shape.tokens, ∀ c ∈ token, InType c := by
    have digits := lexical.shape
    cases written : spec.shape with
    | single => simp [ShapeSpec.tokens]
    | sequence => simpa [ShapeSpec.tokens] using ⟨opening, closing⟩
    | array size =>
        rw [written] at digits
        simpa [ShapeSpec.tokens] using ⟨opening, IsDigits.inType digits, closing⟩
    | boundedSequence size =>
        rw [written] at digits
        simpa [ShapeSpec.tokens] using ⟨opening, le, IsDigits.inType digits, closing⟩
  intro token member
  rw [tokens, List.mem_append, List.mem_append] at member
  rcases member with inWords | inBound | inShape
  · exact WordSpec.inType lexical.words token inWords
  · exact bound token inBound
  · exact shape token inShape

namespace FieldType

variable {type : FieldType}

theorem inType_text (wellFormed : type.WellFormed) : ∀ c ∈ type.text, InType c := by
  intro c member
  rw [← flatten_tokens, List.mem_flatten] at member
  obtain ⟨token, inTokens, inToken⟩ := member
  exact TypeSpec.inType (lexical_spec wellFormed) token inTokens c inToken

theorem bareEnds_text (wellFormed : type.WellFormed) : BareEnds type.text :=
  Text.bareEnds_of_forall fun c member => (inType_text wellFormed c member).not_isSpace

theorem onLine_text (wellFormed : type.WellFormed) : OnLine type.text :=
  Text.onLine_of_forall fun c member => (inType_text wellFormed c member).isPlain

theorem text_ne_nil (wellFormed : type.WellFormed) : type.text ≠ [] := by
  intro empty
  have read := read?_text wellFormed
  rw [empty] at read
  cases read

/-- **The text of a well-formed type spells the type.** -/
theorem ofText_text (wellFormed : type.WellFormed) : ofText type.text = .ok type :=
  (ofText_eq_ok_iff (bareEnds_text wellFormed)).2
    ⟨type.spec, read?_text wellFormed, resolve_spec wellFormed type.text⟩

/-- What stands at the beginning of written values is no equals sign. -/
theorem head?_valuesText {values : List Text} (holds : type.Holds values) :
    (type.valuesText values).head? ≠ some (CodePoint.ofChar '=') := by
  intro first
  cases isSingle : type.isSingle with
  | true =>
      obtain ⟨element, value, rfl, rfl, canonical⟩ := exists_single holds isSingle
      rw [valuesText_single] at first
      cases element with
      | basic basic =>
          have inside := (BasicType.inLiteral canonical).2 _ (List.mem_of_head? first)
          rcases inside with word | same | same | same
          · exact absurd word (by decide)
          · exact absurd same (by decide)
          · exact absurd same (by decide)
          · exact absurd same (by decide)
      | string string =>
          obtain ⟨quote, body, isQuote, shape, -⟩ := Text.exists_quoted value
          rw [show (Primitive.string string).shown value = value.quoted from rfl, shape] at first
          cases first
          exact absurd isQuote (by decide)
  | false =>
      obtain ⟨⟨element, primitive, -⟩, -⟩ := holds
      rw [valuesText_eq primitive, isSingle, if_neg (by decide)] at first
      have bracket : (Value.shownArray element values).head? = some (CodePoint.ofChar '[') := rfl
      rw [bracket] at first
      exact absurd first (by decide)

theorem isValueText_valuesText {values : List Text} (holds : type.Holds values) :
    IsValueText (type.valuesText values) := by
  obtain ⟨bare, nonempty, onLine⟩ := shape_valuesText holds
  exact ⟨nonempty, bare.1, fun newline => absurd (onLine.printable _ newline) (by decide)⟩

end FieldType

/-! ## Items -/

theorem Text.IsIdentifier.onLine {name : Text} (identifier : IsIdentifier name) : OnLine name :=
  Text.onLine_of_forall fun c member => Text.isPlain_of_isWord (identifier.isWord c member)

theorem Text.IsIdentifier.bareEnds {name : Text} (identifier : IsIdentifier name) :
    BareEnds name :=
  Text.bareEnds_of_forall fun c member =>
    CodePoint.not_isSpace_of_isWord (identifier.isWord c member)

namespace Item

/-- The item cut as it is put together. -/
def declaration : Item → DeclarationText
  | .member m =>
      match m.default with
      | none => ⟨m.type.text, " ", m.name, [], .absent⟩
      | some values => ⟨m.type.text, " ", m.name, " ", .default (m.type.valuesText values)⟩
  | .constant c => ⟨c.type.text, " ", c.name, [], .assigned [] (c.type.valuesText c.value)⟩

theorem text_declaration (item : Item) : item.declaration.text = item.text := by
  match item with
  | .member ⟨name, type, none⟩ =>
      simp [declaration, DeclarationText.text, TailText.text, text, Member.text]
  | .member ⟨name, type, some values⟩ =>
      simp [declaration, DeclarationText.text, TailText.text, text, Member.text]
  | .constant ⟨name, type, value⟩ =>
      simp [declaration, DeclarationText.text, TailText.text, text, Constant.text]

variable {item : Item}

theorem wellWritten_declaration (wellFormed : item.WellFormed) : item.declaration.WellWritten := by
  have space : Text.ofString " " ≠ [] := by decide
  match item, wellFormed with
  | .member ⟨name, type, none⟩, wellFormed =>
      exact {
        bare := FieldType.bareEnds_text wellFormed.type
        gap := Text.isGap_space
        parted := fun _ => space
        name := wellFormed.name.isIdentifier
        maximal := Text.stops_nil _
        nameGap := Text.isGap_nil
        tail := trivial
        accepted := ⟨type, FieldType.ofText_text wellFormed.type⟩ }
  | .member ⟨name, type, some values⟩, wellFormed =>
      have holds := wellFormed.default values rfl
      exact {
        bare := FieldType.bareEnds_text wellFormed.type
        gap := Text.isGap_space
        parted := fun _ => space
        name := wellFormed.name.isIdentifier
        maximal := Text.stops_cons.2 (by decide)
        nameGap := Text.isGap_space
        tail := ⟨FieldType.isValueText_valuesText holds, FieldType.head?_valuesText holds⟩
        accepted := ⟨type, FieldType.ofText_text wellFormed.type⟩ }
  | .constant ⟨name, type, value⟩, wellFormed =>
      exact {
        bare := FieldType.bareEnds_text wellFormed.type
        gap := Text.isGap_space
        parted := fun _ => space
        name := wellFormed.name.isIdentifier
        maximal := Text.stops_cons.2 (by decide)
        nameGap := Text.isGap_nil
        tail := ⟨Text.isGap_nil, FieldType.isValueText_valuesText wellFormed.value⟩
        accepted := ⟨type, FieldType.ofText_text wellFormed.type⟩ }

theorem declares_declaration (wellFormed : item.WellFormed) : item.declaration.Declares item := by
  match item, wellFormed with
  | .member ⟨name, type, none⟩, wellFormed =>
      exact ⟨type, FieldType.ofText_text wellFormed.type, wellFormed.name, rfl⟩
  | .member ⟨name, type, some values⟩, wellFormed =>
      exact ⟨type, FieldType.ofText_text wellFormed.type, wellFormed.name, values,
        FieldType.forType_valuesText (wellFormed.default values rfl), rfl⟩
  | .constant ⟨name, type, value⟩, wellFormed =>
      exact ⟨type, FieldType.ofText_text wellFormed.type, wellFormed.name, wellFormed.forConstant,
        value, FieldType.forType_valuesText wellFormed.value, rfl⟩

theorem onLine_text (wellFormed : item.WellFormed) : OnLine item.text := by
  have space : OnLine (Text.ofString " ") := Text.onLine_of_forall (by decide)
  match item, wellFormed with
  | .member ⟨name, type, none⟩, wellFormed =>
      exact (((FieldType.onLine_text wellFormed.type).append space).append
        wellFormed.name.isIdentifier.onLine).append Text.onLine_nil
  | .member ⟨name, type, some values⟩, wellFormed =>
      have shown := (FieldType.shape_valuesText (wellFormed.default values rfl)).2.2
      exact (((FieldType.onLine_text wellFormed.type).append space).append
        wellFormed.name.isIdentifier.onLine).append (space.append shown)
  | .constant ⟨name, type, value⟩, wellFormed =>
      have shown := (FieldType.shape_valuesText wellFormed.value).2.2
      exact ((((FieldType.onLine_text wellFormed.type).append space).append
        wellFormed.name.isIdentifier.onLine).append (Text.onLine_of_forall (by decide))).append
          shown

/-- The text of an item begins with its type and ends with its name or its values. -/
theorem bareEnds_text (wellFormed : item.WellFormed) : BareEnds item.text := by
  match item, wellFormed with
  | .member ⟨name, type, none⟩, wellFormed =>
      have around := (FieldType.bareEnds_text wellFormed.type).around
        (FieldType.text_ne_nil wellFormed.type) wellFormed.name.isIdentifier.ne_nil
        wellFormed.name.isIdentifier.bareEnds " "
      simpa [text, Member.text] using around
  | .member ⟨name, type, some values⟩, wellFormed =>
      obtain ⟨bare, nonempty, -⟩ := FieldType.shape_valuesText (wellFormed.default values rfl)
      have around := (FieldType.bareEnds_text wellFormed.type).around
        (FieldType.text_ne_nil wellFormed.type) nonempty bare (" " ++ (name ++ " "))
      simpa [text, Member.text] using around
  | .constant ⟨name, type, value⟩, wellFormed =>
      obtain ⟨bare, nonempty, -⟩ := FieldType.shape_valuesText wellFormed.value
      have around := (FieldType.bareEnds_text wellFormed.type).around
        (FieldType.text_ne_nil wellFormed.type) nonempty bare (" " ++ (name ++ "="))
      simpa [text, Constant.text] using around

/-- What is read of a written item: all of it. -/
theorem trim_withoutComment_text (wellFormed : item.WellFormed) :
    item.text.withoutComment.trim = item.text := by
  rw [(onLine_text wellFormed).withoutComment, Text.trim_of_bareEnds (bareEnds_text wellFormed)]

/-- **The text of a well-formed item declares the item.** -/
theorem ofLine_text (wellFormed : item.WellFormed) : ofLine item.text = .ok item :=
  ofLine_eq_ok_iff.2 ⟨item.declaration, wellWritten_declaration wellFormed,
    (text_declaration item).trans (trim_withoutComment_text wellFormed).symm,
    declares_declaration wellFormed⟩

end Item

end RosInterface
