/-
# RosInterface.Proofs.Declaration.LineGrammar -- the grammar of a declaration

A declaration is cut into a type, a gap, a name, another gap and a tail
(`DeclarationText`).  `DeclarationText.WellWritten` says which cuts are meant, in
terms of their texts alone; nothing in it depends on where a reader stops.  Where
one part ends is still decided by the text: `DeclarationText.eq_of_text` shows that
no text is cut in two ways.

`Item.ofLine_grammar` is the main result: a line declares an item exactly when it
can be cut so, and the item is the one that the cut declares.
-/
import RosInterface.Proofs.Declaration.TypeMeaning

set_option autoImplicit false

namespace RosInterface

open Text (Stops IsIdentifier IsGap BareEnds EndsInIdentifier)

/-! ## The parts of a declaration -/

/-- The tail of a declaration as it is written. -/
inductive TailText where
  | absent
  | assigned (gap value : Text)
  | default (value : Text)
  deriving DecidableEq

/-- A value: at least one code point, none of them a newline, and no white space at
the beginning. -/
structure IsValueText (s : Text) : Prop where
  nonempty : s ≠ []
  start : Stops CodePoint.isSpace s
  oneLine : CodePoint.newline ∉ s

namespace TailText

def text : TailText → Text
  | .absent => []
  | .assigned gap value => "=" ++ (gap ++ value)
  | .default value => value

/-- The tail without its gap. -/
def spec : TailText → TailSpec
  | .absent => .absent
  | .assigned _ value => .assigned value
  | .default value => .default value

/-- A value is assigned behind an equals sign; a default does not begin with one. -/
def WellWritten : TailText → Prop
  | .absent => True
  | .assigned gap value => IsGap gap ∧ IsValueText value
  | .default value => IsValueText value ∧ value.head? ≠ some (CodePoint.ofChar '=')

end TailText

/-- A declaration cut into its parts. -/
structure DeclarationText where
  type : Text
  gap : Text
  name : Text
  nameGap : Text
  tail : TailText
  deriving DecidableEq

namespace DeclarationText

def text (d : DeclarationText) : Text :=
  d.type ++ (d.gap ++ (d.name ++ (d.nameGap ++ d.tail.text)))

/-- The parts other than the type are of their kinds.  The gap before the name may
be missing when the type does not end in an identifier, and the name is not
continued by what follows. -/
structure Shaped (d : DeclarationText) : Prop where
  bare : BareEnds d.type
  gap : IsGap d.gap
  parted : EndsInIdentifier d.type → d.gap ≠ []
  name : IsIdentifier d.name
  maximal : Stops CodePoint.isWord (d.nameGap ++ d.tail.text)
  nameGap : IsGap d.nameGap
  tail : d.tail.WellWritten

/-- All parts are of their kinds: the first is a type, too. -/
structure WellWritten (d : DeclarationText) : Prop extends Shaped d where
  accepted : ∃ type, FieldType.ofText d.type = .ok type

/-- The item that a cut declares.  An equals sign makes it a constant. -/
def Declares (d : DeclarationText) (item : Item) : Prop :=
  ∃ type, FieldType.ofText d.type = .ok type ∧
    match d.tail with
    | .absent => Text.MemberName d.name ∧ item = .member ⟨d.name, type, none⟩
    | .default value =>
        Text.MemberName d.name ∧ ∃ values, Value.forType type value = .ok values ∧
          item = .member ⟨d.name, type, some values⟩
    | .assigned _ value =>
        Text.ConstantName d.name ∧ type.ForConstant ∧
          ∃ values, Value.forType type value = .ok values ∧
            item = .constant ⟨d.name, type, values⟩

end DeclarationText

/-! ## Tails -/

/-- A gap ends where something begins that is none. -/
theorem Text.IsGap.append_inj {g h s t : Text} (first : IsGap g) (second : IsGap h)
    (stops : Stops CodePoint.isGap s) (stops' : Stops CodePoint.isGap t)
    (same : g ++ s = h ++ t) : g = h ∧ s = t := by
  have rest : s = t := by
    rw [← skipGap_of_stops stops, ← skipGap_append first, same, skipGap_append second,
      skipGap_of_stops stops']
  subst rest
  exact ⟨List.append_cancel_right same, rfl⟩

theorem IsValueText.stops {s : Text} (value : IsValueText s) : Stops CodePoint.isGap s := by
  intro c first
  rw [Bool.eq_false_iff]
  intro gap
  have space := value.start c first
  rw [CodePoint.isSpace_of_isGap gap] at space
  cases space

namespace TailText

theorem stops {tail : TailText} (wellWritten : tail.WellWritten) :
    Stops CodePoint.isGap tail.text := by
  cases tail with
  | absent => exact Text.stops_nil _
  | assigned gap value => exact Text.stops_cons.2 (by decide)
  | default value => exact wellWritten.1.stops

theorem eq_of_text {tail other : TailText} (wellWritten : tail.WellWritten)
    (wellWritten' : other.WellWritten) (same : tail.text = other.text) : tail = other := by
  cases tail with
  | absent =>
      cases other with
      | absent => rfl
      | assigned gap value => cases same
      | default value => exact absurd same.symm wellWritten'.1.nonempty
  | assigned gap value =>
      cases other with
      | absent => cases same
      | assigned gap' value' =>
          obtain ⟨rfl, rfl⟩ := wellWritten.1.append_inj wellWritten'.1 wellWritten.2.stops
            wellWritten'.2.stops (List.append_cancel_left same)
          rfl
      | default value' =>
          exact absurd (congrArg List.head? same.symm) wellWritten'.2
  | default value =>
      cases other with
      | absent => exact absurd same wellWritten.1.nonempty
      | assigned gap' value' => exact absurd (congrArg List.head? same) wellWritten.2
      | default value' => exact congrArg TailText.default same

end TailText

theorem DeclarationSpec.value?_eq_some_iff {s value : Text} :
    value? s = some value ↔ s = value ∧ IsValueText value := by
  cases s with
  | nil =>
      constructor
      · intro read
        cases read
      · rintro ⟨rfl, isValue⟩
        exact absurd rfl isValue.nonempty
  | cons c rest =>
      simp only [value?, Bool.or_eq_true, List.contains_iff_mem, Option.ite_none_left_eq_some,
        Option.some.injEq, not_or, Bool.not_eq_true]
      constructor
      · rintro ⟨⟨noSpace, oneLine⟩, rfl⟩
        refine ⟨rfl, List.cons_ne_nil c rest, Text.stops_cons.2 noSpace, ?_⟩
        rintro (_ | ⟨_, inRest⟩)
        · exact absurd noSpace (by decide)
        · exact oneLine inRest
      · rintro ⟨rfl, isValue⟩
        exact ⟨⟨Text.stops_cons.1 isValue.start,
          fun inRest => isValue.oneLine (List.mem_cons_of_mem _ inRest)⟩, rfl⟩

/-- A tail is read from behind its gap. -/
theorem DeclarationSpec.tail?_eq_some_iff {s : Text} {spec : TailSpec} :
    tail? s = some spec ↔
      ∃ gap tail, s = gap ++ TailText.text tail ∧ IsGap gap ∧ tail.WellWritten ∧
        tail.spec = spec := by
  have sign {s rest : Text} : s.after? "=" = some rest ↔ Text.Spaced [Text.ofString "="] s rest :=
    Text.after?_eq_some_iff (by decide)
  constructor
  · intro read
    cases assigned : s.after? "=" with
    | some rest =>
        simp only [tail?, assigned] at read
        obtain ⟨value, found, rfl⟩ := Option.map_eq_some_iff.1 read
        obtain ⟨whole, isValue⟩ := value?_eq_some_iff.1 found
        obtain ⟨gap, isGap, rfl⟩ := Text.Spaced.singleton_iff.1 (sign.1 assigned)
        obtain ⟨valueGap, split, isValueGap⟩ := Text.exists_gap rest
        rw [whole] at split
        exact ⟨gap, .assigned valueGap value, by rw [split]; rfl, isGap, ⟨isValueGap, isValue⟩, rfl⟩
    | none =>
        obtain ⟨gap, split, isGap⟩ := Text.exists_gap s
        cases found : s.skipGap with
        | nil =>
            simp only [tail?, assigned, found] at read
            cases read
            rw [found] at split
            exact ⟨gap, .absent, split, isGap, trivial, rfl⟩
        | cons c rest =>
            simp only [tail?, assigned, found] at read
            obtain ⟨value, isFound, rfl⟩ := Option.map_eq_some_iff.1 read
            obtain ⟨rfl, isValue⟩ := value?_eq_some_iff.1 isFound
            rw [found] at split
            refine ⟨gap, .default (c :: rest), split, isGap, ⟨isValue, ?_⟩, rfl⟩
            rintro ⟨⟩
            have present : s.after? "=" = some rest :=
              sign.2 (Text.Spaced.singleton_iff.2 ⟨gap, isGap, split⟩)
            rw [present] at assigned
            cases assigned
  · rintro ⟨gap, tail, rfl, isGap, wellWritten, rfl⟩
    have skipped : (gap ++ tail.text).skipGap = tail.text := by
      rw [Text.skipGap_append isGap, Text.skipGap_of_stops (TailText.stops wellWritten)]
    have unassigned (other : tail.text.head? ≠ some (CodePoint.ofChar '=')) :
        (gap ++ tail.text).after? "=" = none :=
      Text.after?_eq_none (by decide) (by rw [skipped]; exact other)
    cases tail with
    | absent =>
        simp only [tail?, unassigned (by simp [TailText.text]), skipped]
        rfl
    | assigned valueGap value =>
        have assigned : (gap ++ TailText.text (.assigned valueGap value)).after? "=" =
            some (valueGap ++ value) :=
          sign.2 (Text.Spaced.singleton_iff.2 ⟨gap, isGap, rfl⟩)
        simp only [tail?, assigned]
        rw [Text.skipGap_append wellWritten.1, Text.skipGap_of_stops wellWritten.2.stops,
          value?_eq_some_iff.2 ⟨rfl, wellWritten.2⟩]
        rfl
    | default value =>
        obtain ⟨c, rest, rfl⟩ := List.exists_cons_of_ne_nil wellWritten.1.nonempty
        have found : (gap ++ TailText.text (.default (c :: rest))).skipGap = c :: rest := skipped
        simp only [tail?, unassigned wellWritten.2, found,
          value?_eq_some_iff.2 ⟨rfl, wellWritten.1⟩]
        rfl

/-! ## Declarations -/

namespace DeclarationText

/-- Type and name of a cut are what the readers take off. -/
theorem read_of_shaped {d : DeclarationText} {spec : TypeSpec} (shaped : d.Shaped)
    (read : TypeSpec.read? d.type = some (spec, [])) :
    TypeSpec.read? d.text = some (spec, d.gap ++ (d.name ++ (d.nameGap ++ d.tail.text))) ∧
      TypeSpec.word? (d.gap ++ (d.name ++ (d.nameGap ++ d.tail.text))) =
        some (d.name, d.nameGap ++ d.tail.text) :=
  TypeSpec.read?_before_word_iff.2
    ⟨d.type, d.gap, rfl, rfl, read, shaped.gap, shaped.parted, shaped.name, shaped.maximal⟩

/-- **No text is a declaration in two ways.** -/
theorem eq_of_text {d e : DeclarationText} (first : d.WellWritten) (second : e.WellWritten)
    (same : d.text = e.text) : d = e := by
  obtain ⟨type, accepted⟩ := first.accepted
  obtain ⟨type', accepted'⟩ := second.accepted
  obtain ⟨spec, read, -⟩ := (FieldType.ofText_eq_ok_iff first.bare).1 accepted
  obtain ⟨spec', read', -⟩ := (FieldType.ofText_eq_ok_iff second.bare).1 accepted'
  obtain ⟨readType, readName⟩ := read_of_shaped first.toShaped read
  obtain ⟨readType', readName'⟩ := read_of_shaped second.toShaped read'
  have rest := readType.symm.trans (same ▸ readType')
  simp only [Option.some.injEq, Prod.mk.injEq] at rest
  have named := readName.symm.trans (rest.2 ▸ readName')
  simp only [Option.some.injEq, Prod.mk.injEq] at named
  have types : d.type = e.type := by
    rw [text, text, rest.2] at same
    exact List.append_cancel_right same
  have gaps : d.gap = e.gap := by
    have split := rest.2
    rw [named.1, named.2] at split
    exact List.append_cancel_right split
  obtain ⟨nameGaps, tails⟩ := first.nameGap.append_inj second.nameGap
    (TailText.stops first.tail) (TailText.stops second.tail) named.2
  have tail := TailText.eq_of_text first.tail second.tail tails
  obtain ⟨_, _, _, _, _⟩ := d
  obtain ⟨_, _, _, _, _⟩ := e
  cases types
  cases gaps
  cases named.1
  cases nameGaps
  cases tail
  rfl

end DeclarationText

namespace DeclarationSpec

/-- The shape of a line is that of a cut. -/
theorem read?_eq_some_iff {s : Text} {spec : DeclarationSpec} (start : Stops CodePoint.isSpace s) :
    read? s = some spec ↔
      ∃ d : DeclarationText, d.text = s ∧ d.Shaped ∧
        TypeSpec.read? d.type = some (spec.type, []) ∧ d.name = spec.name ∧
        d.tail.spec = spec.tail := by
  obtain ⟨type, name, tail⟩ := spec
  constructor
  · intro read
    rw [read?, Option.bind_eq_bind, Option.bind_eq_some_iff] at read
    obtain ⟨⟨typeSpec, s₁⟩, readType, read⟩ := read
    obtain ⟨⟨name, s₂⟩, readName, read⟩ := Option.bind_eq_some_iff.1 read
    obtain ⟨tailSpec, readTail, whole⟩ := Option.bind_eq_some_iff.1 read
    cases whole
    obtain ⟨type, gap, rfl, -, alone, isGap, parted, identifier, maximal⟩ :=
      TypeSpec.read?_before_word_iff.1 ⟨readType, readName⟩
    obtain ⟨nameGap, tail, rfl, isNameGap, wellWritten, rfl⟩ := tail?_eq_some_iff.1 readTail
    have nonempty : type ≠ [] := by
      rintro rfl
      cases alone
    have bare : BareEnds type := by
      refine ⟨fun c first => start c ?_, TypeSpec.getLast?_not_isSpace alone⟩
      rw [List.head?_append_of_ne_nil _ nonempty, first]
    exact ⟨⟨type, gap, name, nameGap, tail⟩, rfl,
      ⟨bare, isGap, parted, identifier, maximal, isNameGap, wellWritten⟩, alone, rfl, rfl⟩
  · rintro ⟨d, rfl, shaped, alone, rfl, rfl⟩
    obtain ⟨readType, readName⟩ := DeclarationText.read_of_shaped shaped alone
    have readTail := tail?_eq_some_iff.2 ⟨d.nameGap, d.tail, rfl, shaped.nameGap, shaped.tail, rfl⟩
    simp only [read?, readType, readName, readTail, Option.bind_eq_bind, Option.bind_some]
    rfl

theorem checkConstantType_eq_ok_iff {type : FieldType} :
    checkConstantType type = .ok () ↔ type.ForConstant := by
  have strings {s : StringType} {failure : Failure} :
      (if s.bound.isSome = true then .error failure else .ok () : Outcome Unit) = .ok () ↔
        s.bound = none := by
    cases s.bound <;> simp
  match type with
  | .single (.primitive (.basic _)) => exact ⟨fun _ => trivial, fun _ => rfl⟩
  | .single (.primitive (.string s)) => exact strings
  | .array (.primitive (.basic _)) _ => exact ⟨fun _ => trivial, fun _ => rfl⟩
  | .array (.primitive (.string s)) _ => exact strings
  | .single (.named _) | .single (.qualified _) | .array (.named _) _ | .array (.qualified _) _
  | .sequence _ | .boundedSequence _ _ => exact ⟨fun read => (by cases read), fun no => no.elim⟩

variable {type : FieldType} {name value : Text} {item : Item}

theorem buildMember_none_eq_ok_iff :
    buildMember type name none = .ok item ↔
      Text.MemberName name ∧ item = .member ⟨name, type, none⟩ := by
  rw [buildMember, ← Text.isMemberName_iff]
  by_cases named : name.isMemberName = true
  · rw [if_pos named]
    simp [named, eq_comm]
  · rw [if_neg named]
    simp [named, Outcome.fault]

theorem buildMember_some_eq_ok_iff :
    buildMember type name (some value) = .ok item ↔
      Text.MemberName name ∧ ∃ values, Value.forType type value = .ok values ∧
        item = .member ⟨name, type, some values⟩ := by
  rw [buildMember, ← Text.isMemberName_iff]
  by_cases named : name.isMemberName = true
  · rw [if_pos named]
    simp only [Outcome.bind_eq_ok_iff, named, true_and]
    exact exists_congr fun values => and_congr_right fun _ => by simp [pure, Except.pure, eq_comm]
  · rw [if_neg named]
    simp [named, Outcome.fault]

theorem buildConstant_eq_ok_iff :
    buildConstant type name value = .ok item ↔
      Text.ConstantName name ∧ type.ForConstant ∧
        ∃ values, Value.forType type value = .ok values ∧
          item = .constant ⟨name, type, values⟩ := by
  rw [buildConstant, Outcome.bind_eq_ok_iff, ← Text.isConstantName_iff,
    ← checkConstantType_eq_ok_iff]
  by_cases named : name.isConstantName = true
  · simp only [named, true_and]
    constructor
    · rintro ⟨_, checked, built⟩
      obtain ⟨values, read, whole⟩ := Outcome.bind_eq_ok_iff.1 built
      cases whole
      exact ⟨checked, values, read, rfl⟩
    · rintro ⟨checked, values, read, rfl⟩
      exact ⟨(), checked, Outcome.bind_eq_ok_iff.2 ⟨values, read, rfl⟩⟩
  · simp [named, Outcome.fault]

end DeclarationSpec

namespace Item

/-- A cut whose type means `type` declares what the builder makes of it. -/
theorem build_eq_ok_iff {d : DeclarationText} {type : FieldType} {item : Item}
    (accepted : FieldType.ofText d.type = .ok type) :
    DeclarationSpec.build type d.name d.tail.spec = .ok item ↔ d.Declares item := by
  have alone {p : FieldType → Prop} :
      (∃ other, FieldType.ofText d.type = .ok other ∧ p other) ↔ p type := by
    constructor
    · rintro ⟨other, found, holds⟩
      rw [accepted] at found
      cases found
      exact holds
    · intro holds
      exact ⟨type, accepted, holds⟩
  rw [DeclarationText.Declares, alone]
  cases d.tail with
  | absent => exact DeclarationSpec.buildMember_none_eq_ok_iff
  | assigned gap value => exact DeclarationSpec.buildConstant_eq_ok_iff
  | default value => exact DeclarationSpec.buildMember_some_eq_ok_iff

/-- A line that can be cut is read in the order of its parts. -/
theorem ofLine_of_shaped {line : Text} {d : DeclarationText} {spec : TypeSpec} (shaped : d.Shaped)
    (whole : d.text = line.withoutComment.trim)
    (alone : TypeSpec.read? d.type = some (spec, [])) :
    ofLine line = (do
      let type ← spec.resolve line.withoutComment.trim
      (DeclarationSpec.build type d.name d.tail.spec).mapDiagnostic (·.withExcerpt line)) := by
  have nonempty : line.withoutComment.trim ≠ [] := by
    rw [← whole, DeclarationText.text]
    simp [shaped.name.ne_nil]
  have read : DeclarationSpec.read? line.withoutComment.trim =
      some ⟨spec, d.name, d.tail.spec⟩ :=
    (DeclarationSpec.read?_eq_some_iff (Text.bareEnds_trim _).1).2
      ⟨d, whole, shaped, alone, rfl, rfl⟩
  rw [ofLine]
  simp only [read]
  rw [if_neg (by simpa using nonempty)]

/-- Every other line is empty or malformed. -/
theorem ofLine_of_not_shaped {line : Text}
    (uncut : ∀ (d : DeclarationText) (spec : TypeSpec), d.Shaped →
      d.text = line.withoutComment.trim → TypeSpec.read? d.type ≠ some (spec, [])) :
    ∃ excerpt fault, ofLine line = .faultIn excerpt (.grammar fault) := by
  rw [ofLine]
  by_cases empty : line.withoutComment.trim.isEmpty = true
  · exact ⟨line, .emptyDeclaration, by rw [if_pos empty]⟩
  · refine ⟨line.withoutComment.trim, .malformed, ?_⟩
    rw [if_neg empty]
    cases read : DeclarationSpec.read? line.withoutComment.trim with
    | none => rfl
    | some spec =>
        obtain ⟨d, whole, shaped, alone, -⟩ :=
          (DeclarationSpec.read?_eq_some_iff (Text.bareEnds_trim _).1).1 read
        exact absurd alone (uncut d spec.type shaped whole)

theorem ofLine_eq_ok_iff {line : Text} {item : Item} :
    ofLine line = .ok item ↔
      ∃ d : DeclarationText, d.WellWritten ∧ d.text = line.withoutComment.trim ∧
        d.Declares item := by
  constructor
  · intro found
    by_contra absent
    have uncut : ∀ (d : DeclarationText) (spec : TypeSpec), d.Shaped →
        d.text = line.withoutComment.trim → TypeSpec.read? d.type ≠ some (spec, []) := by
      intro d spec shaped whole alone
      rw [ofLine_of_shaped shaped whole alone] at found
      obtain ⟨type, resolved, built⟩ := Outcome.bind_eq_ok_iff.1 found
      have accepted : FieldType.ofText d.type = .ok type :=
        (FieldType.ofText_eq_ok_iff shaped.bare).2 ⟨spec, alone, TypeSpec.resolve_excerpt resolved⟩
      rw [Outcome.mapDiagnostic_eq_ok_iff, build_eq_ok_iff accepted] at built
      exact absent ⟨d, ⟨shaped, type, accepted⟩, whole, built⟩
    obtain ⟨excerpt, fault, failed⟩ := ofLine_of_not_shaped uncut
    rw [failed] at found
    cases found
  · rintro ⟨d, ⟨shaped, type, accepted⟩, whole, declares⟩
    obtain ⟨spec, alone, resolved⟩ := (FieldType.ofText_eq_ok_iff shaped.bare).1 accepted
    rw [ofLine_of_shaped shaped whole alone]
    refine Outcome.bind_eq_ok_iff.2 ⟨type, TypeSpec.resolve_excerpt resolved, ?_⟩
    rw [Outcome.mapDiagnostic_eq_ok_iff]
    exact (build_eq_ok_iff accepted).2 declares

/-- **A line declares an item exactly when it is a declaration, and it is one in at
most one way.**  The line counts without its comment and without the white space
at its ends. -/
theorem ofLine_grammar (line : Text) (item : Item) :
    (ofLine line = .ok item ↔
      ∃ d : DeclarationText, d.WellWritten ∧ d.text = line.withoutComment.trim ∧
        d.Declares item) ∧
    { d : DeclarationText | d.WellWritten ∧ d.text = line.withoutComment.trim }.Subsingleton := by
  refine ⟨ofLine_eq_ok_iff, ?_⟩
  rintro d ⟨first, whole⟩ e ⟨second, whole'⟩
  exact DeclarationText.eq_of_text first second (whole.trans whole'.symm)

/-- A bound ends where its digits end, so a name may follow without a gap. -/
example : ofLine "string<=5abc" =
    .ok (.member ⟨"abc", .single (.primitive (.string ⟨false, some 5⟩)), none⟩) := rfl

end Item

end RosInterface
