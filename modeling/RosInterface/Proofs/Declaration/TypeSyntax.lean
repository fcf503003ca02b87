/-
# RosInterface.Proofs.Declaration.TypeSyntax -- written types, token by token

A written type is the sequence of its tokens (`TypeSpec.tokens`), where words are
identifiers and sizes are digit runs (`TypeSpec.Lexical`).  The reader takes the
longest written type off a text.  `TypeSpec.read?_eq_some_iff` says exactly when
it does: the text begins with the tokens, and what follows can neither continue
the last token nor open the part of a type that has been left out
(`TypeSpec.Ends`).

Two consequences serve the readers above this one.  `TypeSpec.read?_whole` says
that what has been taken off is a type when it stands alone, and
`TypeSpec.read?_append` that a type which stands alone is taken off whole when a
word follows, provided a gap parts the two where both are words.
-/
import RosInterface.Proofs.Declaration.Token

set_option autoImplicit false

namespace RosInterface

open Text (Spaced Stops IsIdentifier IsGap)

/-! ## Words -/

namespace WordSpec

def tokens : WordSpec → List Text
  | .bare name => [name]
  | .inPackage package name => [package, Text.ofString "/", name]
  | .full package kind name => [package, Text.ofString "/", kind, Text.ofString "/", name]

/-- All words are identifiers. -/
def Lexical : WordSpec → Prop
  | .bare name => IsIdentifier name
  | .inPackage package name => IsIdentifier package ∧ IsIdentifier name
  | .full package kind name => IsIdentifier package ∧ IsIdentifier kind ∧ IsIdentifier name

/-- What follows does not continue the words. -/
def Ends : WordSpec → Text → Prop
  | .full _ _ _, rest => Stops CodePoint.isWord rest
  | _, rest => Stops CodePoint.isWord rest ∧ rest.after? "/" = none

theorem exists_last {words : WordSpec} (lexical : words.Lexical) :
    ∃ init name, words.tokens = init ++ [name] ∧ IsIdentifier name := by
  cases words with
  | bare name => exact ⟨[], name, rfl, lexical⟩
  | inPackage package name => exact ⟨[package, Text.ofString "/"], name, rfl, lexical.2⟩
  | full package kind name =>
      exact ⟨[package, Text.ofString "/", kind, Text.ofString "/"], name, rfl, lexical.2.2⟩

theorem solid_slash : (Text.ofString "/").head?.any (!·.isGap) = true := by decide

/-- A token that is no word and no slash ends every sequence of words. -/
theorem ends_of_spaced (words : WordSpec) {mark s rest : Text} {tokens : List Text}
    (solid : mark.head?.any (!·.isGap) = true) (isMark : mark.head?.all (!·.isWord) = true)
    (noSlash : mark.head? ≠ (Text.ofString "/").head?) (spaced : Spaced (mark :: tokens) s rest) :
    words.Ends s := by
  have stops : Stops CodePoint.isWord s := by
    refine spaced.stops solid (fun _ => CodePoint.not_isWord_of_isGap) fun c first => ?_
    rw [first] at isMark
    simpa using isMark
  have slash : s.after? "/" = none := spaced.after?_eq_none solid (by decide) noSlash
  cases words with
  | bare => exact ⟨stops, slash⟩
  | inPackage => exact ⟨stops, slash⟩
  | full => exact stops

theorem stops_of_slash {s rest : Text} {tokens : List Text}
    (spaced : Spaced (Text.ofString "/" :: tokens) s rest) : Stops CodePoint.isWord s := by
  refine spaced.stops solid_slash (fun _ => CodePoint.not_isWord_of_isGap) fun c first => ?_
  rw [show (Text.ofString "/").head? = some (CodePoint.ofChar '/') from rfl] at first
  cases first
  decide

end WordSpec

theorem TypeSpec.readWords?_eq_some_iff {s rest : Text} {words : WordSpec} :
    readWords? s = some (words, rest) ↔
      words.Lexical ∧ Spaced words.tokens s rest ∧ words.Ends rest := by
  have slash {s rest : Text} : s.after? "/" = some rest ↔ Spaced [Text.ofString "/"] s rest :=
    Text.after?_eq_some_iff WordSpec.solid_slash
  constructor
  · intro read
    rw [readWords?, Option.bind_eq_bind, Option.bind_eq_some_iff] at read
    obtain ⟨⟨first, s₁⟩, readFirst, read⟩ := read
    obtain ⟨isFirst, spacedFirst, stopsFirst⟩ := Text.word?_eq_some_iff.1 readFirst
    cases one : s₁.after? "/" with
    | none =>
        simp only [one] at read
        cases read
        exact ⟨isFirst, spacedFirst, stopsFirst, one⟩
    | some s₂ =>
        simp only [one] at read
        obtain ⟨⟨second, s₃⟩, readSecond, read⟩ := Option.bind_eq_some_iff.1 read
        obtain ⟨isSecond, spacedSecond, stopsSecond⟩ := Text.word?_eq_some_iff.1 readSecond
        have two := spacedFirst.append ((slash.1 one).append spacedSecond)
        cases more : s₃.after? "/" with
        | none =>
            simp only [more] at read
            cases read
            exact ⟨⟨isFirst, isSecond⟩, two, stopsSecond, more⟩
        | some s₄ =>
            simp only [more] at read
            obtain ⟨⟨third, s₅⟩, readThird, read⟩ := Option.bind_eq_some_iff.1 read
            cases read
            obtain ⟨isThird, spacedThird, stopsThird⟩ := Text.word?_eq_some_iff.1 readThird
            exact ⟨⟨isFirst, isSecond, isThird⟩,
              two.append ((slash.1 more).append spacedThird), stopsThird⟩
  · rintro ⟨lexical, spaced, ends⟩
    cases words with
    | bare name =>
        rw [readWords?, Text.word?_eq_some_iff.2 ⟨lexical, spaced, ends.1⟩, Option.bind_eq_bind,
          Option.bind_some]
        simp only [ends.2]
        rfl
    | inPackage package name =>
        obtain ⟨s₁, first, later⟩ := Spaced.split_first spaced
        obtain ⟨s₂, mark, second⟩ := Spaced.split_first later
        rw [readWords?,
          Text.word?_eq_some_iff.2 ⟨lexical.1, first, WordSpec.stops_of_slash mark⟩,
          Option.bind_eq_bind, Option.bind_some]
        simp only [slash.2 mark, Text.word?_eq_some_iff.2 ⟨lexical.2, second, ends.1⟩,
          Option.bind_some, ends.2]
        rfl
    | full package kind name =>
        obtain ⟨s₁, first, later⟩ := Spaced.split_first spaced
        obtain ⟨s₂, mark, later⟩ := Spaced.split_first later
        obtain ⟨s₃, second, later⟩ := Spaced.split_first later
        obtain ⟨s₄, mark', third⟩ := Spaced.split_first later
        rw [readWords?,
          Text.word?_eq_some_iff.2 ⟨lexical.1, first, WordSpec.stops_of_slash mark⟩,
          Option.bind_eq_bind, Option.bind_some]
        simp only [slash.2 mark,
          Text.word?_eq_some_iff.2 ⟨lexical.2.1, second, WordSpec.stops_of_slash mark'⟩,
          slash.2 mark', Text.word?_eq_some_iff.2 ⟨lexical.2.2, third, ends⟩,
          Option.bind_some]
        rfl

/-! ## Bounds and brackets -/

namespace TypeSpec

def boundTokens : Option Text → List Text
  | none => []
  | some digits => [Text.ofString "<=", digits]

/-- What follows does not continue the bound, or open one. -/
def BoundEnds : Option Text → Text → Prop
  | none, rest => rest.after? "<=" = none
  | some _, rest => Stops CodePoint.isDigit rest

end TypeSpec

namespace ShapeSpec

def tokens : ShapeSpec → List Text
  | .single => []
  | .sequence => [Text.ofString "[", Text.ofString "]"]
  | .array digits => [Text.ofString "[", digits, Text.ofString "]"]
  | .boundedSequence digits =>
      [Text.ofString "[", Text.ofString "<=", digits, Text.ofString "]"]

/-- Sizes are digit runs. -/
def Lexical : ShapeSpec → Prop
  | .single | .sequence => True
  | .array digits | .boundedSequence digits => IsDigits digits

end ShapeSpec

namespace TypeSpec

theorem readBound?_eq_some_iff {s rest : Text} {bound : Option Text} :
    readBound? s = some (bound, rest) ↔
      (∀ digits, bound = some digits → IsDigits digits) ∧ Spaced (boundTokens bound) s rest ∧
        BoundEnds bound rest := by
  have mark {s rest : Text} : s.after? "<=" = some rest ↔ Spaced [Text.ofString "<="] s rest :=
    Text.after?_eq_some_iff (by decide)
  constructor
  · intro read
    rw [readBound?] at read
    cases present : s.after? "<=" with
    | none =>
        rw [present] at read
        cases read
        exact ⟨fun digits same => (by cases same), .nil s, present⟩
    | some s₁ =>
        rw [present] at read
        obtain ⟨⟨digits, s₂⟩, readDigits, whole⟩ := Option.map_eq_some_iff.1 read
        cases whole
        obtain ⟨run, spaced, stops⟩ := Text.spacedDigits?_eq_some_iff.1 readDigits
        exact ⟨fun _ same => (Option.some.inj same) ▸ run, (mark.1 present).append spaced, stops⟩
  · rintro ⟨run, spaced, ends⟩
    cases bound with
    | none =>
        cases Spaced.nil_iff.1 spaced
        simp only [readBound?, show s.after? "<=" = none from ends]
    | some digits =>
        obtain ⟨s₁, first, later⟩ := Spaced.split_first spaced
        have readDigits := Text.spacedDigits?_eq_some_iff.2 ⟨run digits rfl, later, ends⟩
        simp only [readBound?, mark.2 first, readDigits, Option.map_some]

/-- A size and the bracket that closes it, as both forms with a size end. -/
theorem sized_eq_some_iff {make : Text → ShapeSpec} {shape : ShapeSpec} {s rest : Text} :
    (do
      let (digits, s) ← Text.digits? s.skipGap
      let s ← s.after? "]"
      return (make digits, s)) = some (shape, rest) ↔
      ∃ digits, make digits = shape ∧ IsDigits digits ∧
        Spaced [digits, Text.ofString "]"] s rest := by
  have closing {s rest : Text} : s.after? "]" = some rest ↔ Spaced [Text.ofString "]"] s rest :=
    Text.after?_eq_some_iff (by decide)
  constructor
  · intro read
    obtain ⟨⟨digits, s₁⟩, readDigits, read⟩ := Option.bind_eq_some_iff.1 read
    obtain ⟨s₂, last, whole⟩ := Option.bind_eq_some_iff.1 read
    cases whole
    obtain ⟨run, spaced, -⟩ := Text.spacedDigits?_eq_some_iff.1 readDigits
    exact ⟨digits, rfl, run, spaced.append (closing.1 last)⟩
  · rintro ⟨digits, rfl, run, spaced⟩
    obtain ⟨s₁, first, last⟩ := Spaced.split_first spaced
    have stops : Stops CodePoint.isDigit s₁ :=
      last.stops (by decide) (fun _ => CodePoint.not_isDigit_of_isGap)
        (fun c first => by cases first; decide)
    simp only [Text.spacedDigits?_eq_some_iff.2 ⟨run, first, stops⟩, closing.2 last,
      Option.bind_eq_bind, Option.bind_some]
    rfl

theorem readShape?_eq_some_iff {s rest : Text} {shape : ShapeSpec} :
    readShape? s = some (shape, rest) ↔
      shape.Lexical ∧ Spaced shape.tokens s rest ∧
        (shape = .single → rest.after? "[" = none) := by
  have opening {s rest : Text} : s.after? "[" = some rest ↔ Spaced [Text.ofString "["] s rest :=
    Text.after?_eq_some_iff (by decide)
  have closing {s rest : Text} : s.after? "]" = some rest ↔ Spaced [Text.ofString "]"] s rest :=
    Text.after?_eq_some_iff (by decide)
  have mark {s rest : Text} : s.after? "<=" = some rest ↔ Spaced [Text.ofString "<="] s rest :=
    Text.after?_eq_some_iff (by decide)
  constructor
  · intro read
    rw [readShape?] at read
    cases opened : s.after? "[" with
    | none =>
        rw [opened] at read
        cases read
        exact ⟨trivial, .nil s, fun _ => opened⟩
    | some s₁ =>
        have first := opening.1 opened
        cases closed : s₁.after? "]" with
        | some s₂ =>
            simp only [opened, closed] at read
            cases read
            exact ⟨trivial, first.append (closing.1 closed), fun same => by cases same⟩
        | none =>
            cases marked : s₁.after? "<=" with
            | some s₂ =>
                simp only [opened, closed, marked] at read
                obtain ⟨digits, rfl, run, sized⟩ := sized_eq_some_iff.1 read
                exact ⟨run, first.append ((mark.1 marked).append sized), fun same => by cases same⟩
            | none =>
                simp only [opened, closed, marked] at read
                obtain ⟨digits, rfl, run, sized⟩ := sized_eq_some_iff.1 read
                exact ⟨run, first.append sized, fun same => by cases same⟩
  · rintro ⟨lexical, spaced, ends⟩
    cases shape with
    | single =>
        cases Spaced.nil_iff.1 spaced
        simp only [readShape?, ends rfl]
    | sequence =>
        obtain ⟨s₁, first, last⟩ := Spaced.split_first spaced
        simp only [readShape?, opening.2 first, closing.2 last]
    | array digits =>
        obtain ⟨s₁, first, sized⟩ := Spaced.split_first spaced
        have solid := Text.solid_of_isDigits lexical
        have notClosed : s₁.after? "]" = none :=
          sized.after?_eq_none solid (by decide) (Text.head?_ne_of_isDigits lexical (by decide))
        have notMarked : s₁.after? "<=" = none :=
          sized.after?_eq_none solid (by decide) (Text.head?_ne_of_isDigits lexical (by decide))
        simp only [readShape?, opening.2 first, notClosed, notMarked]
        exact sized_eq_some_iff.2 ⟨digits, rfl, lexical, sized⟩
    | boundedSequence digits =>
        obtain ⟨s₁, first, later⟩ := Spaced.split_first spaced
        obtain ⟨s₂, marked, sized⟩ := Spaced.split_first later
        have notClosed : s₁.after? "]" = none :=
          later.after?_eq_none (by decide) (by decide) (by decide)
        simp only [readShape?, opening.2 first, notClosed, mark.2 marked]
        exact sized_eq_some_iff.2 ⟨digits, rfl, lexical, sized⟩

end TypeSpec

/-! ## Whole types -/

namespace TypeSpec

def tokens (spec : TypeSpec) : List Text :=
  spec.words.tokens ++ (boundTokens spec.bound ++ spec.shape.tokens)

/-- Words are identifiers, sizes are digit runs. -/
structure Lexical (spec : TypeSpec) : Prop where
  words : spec.words.Lexical
  bound : ∀ digits, spec.bound = some digits → IsDigits digits
  shape : spec.shape.Lexical

/-- What follows neither continues the last token of the type nor opens a part
that it leaves out.  A bracket closes a type, whatever follows. -/
def Ends (spec : TypeSpec) (rest : Text) : Prop :=
  spec.shape = .single →
    rest.after? "[" = none ∧ BoundEnds spec.bound rest ∧ (spec.bound = none → spec.words.Ends rest)

end TypeSpec

theorem ShapeSpec.exists_bracket {shape : ShapeSpec} (shaped : shape ≠ .single) :
    ∃ tokens, shape.tokens = Text.ofString "[" :: tokens := by
  cases shape with
  | single => exact absurd rfl shaped
  | sequence => exact ⟨_, rfl⟩
  | array digits => exact ⟨_, rfl⟩
  | boundedSequence digits => exact ⟨_, rfl⟩

theorem ShapeSpec.exists_closing {shape : ShapeSpec} (shaped : shape ≠ .single) :
    ∃ tokens, shape.tokens = tokens ++ [Text.ofString "]"] := by
  cases shape with
  | single => exact absurd rfl shaped
  | sequence => exact ⟨[Text.ofString "["], rfl⟩
  | array digits => exact ⟨[Text.ofString "[", digits], rfl⟩
  | boundedSequence digits => exact ⟨[Text.ofString "[", Text.ofString "<=", digits], rfl⟩

namespace TypeSpec

/-- A bound ends where brackets open, and otherwise where the type ends. -/
theorem boundEnds_of_spaced {bound : Option Text} {shape : ShapeSpec} {s rest : Text}
    (spaced : Spaced shape.tokens s rest) (ends : shape = .single → BoundEnds bound rest) :
    BoundEnds bound s := by
  by_cases single : shape = .single
  · subst single
    cases Spaced.nil_iff.1 spaced
    exact ends rfl
  · obtain ⟨tokens, opened⟩ := ShapeSpec.exists_bracket single
    rw [opened] at spaced
    cases bound with
    | none => exact spaced.after?_eq_none (by decide) (by decide) (by decide)
    | some digits =>
        exact spaced.stops (by decide) (fun _ => CodePoint.not_isDigit_of_isGap)
          fun c first => by cases first; decide

/-- Words end where a bound or brackets open, and otherwise where the type ends. -/
theorem wordsEnd_of_spaced {words : WordSpec} {bound : Option Text} {shape : ShapeSpec}
    {s rest : Text} (spaced : Spaced (boundTokens bound ++ shape.tokens) s rest)
    (ends : shape = .single → bound = none → words.Ends rest) : words.Ends s := by
  cases bound with
  | some digits => exact words.ends_of_spaced (by decide) (by decide) (by decide) spaced
  | none =>
      rw [show boundTokens none ++ shape.tokens = shape.tokens from rfl] at spaced
      by_cases single : shape = .single
      · subst single
        cases Spaced.nil_iff.1 spaced
        exact ends rfl rfl
      · obtain ⟨tokens, opened⟩ := ShapeSpec.exists_bracket single
        rw [opened] at spaced
        exact words.ends_of_spaced (by decide) (by decide) (by decide) spaced

/-- **The longest written type is taken off.** -/
theorem read?_eq_some_iff {s rest : Text} {spec : TypeSpec} :
    read? s = some (spec, rest) ↔
      spec.Lexical ∧ Spaced spec.tokens s rest ∧ spec.Ends rest := by
  obtain ⟨words, bound, shape⟩ := spec
  constructor
  · intro read
    rw [read?, Option.bind_eq_bind, Option.bind_eq_some_iff] at read
    obtain ⟨⟨_, s₁⟩, readWords, read⟩ := read
    obtain ⟨⟨_, s₂⟩, readBound, read⟩ := Option.bind_eq_some_iff.1 read
    obtain ⟨⟨_, s₃⟩, readShape, whole⟩ := Option.bind_eq_some_iff.1 read
    cases whole
    obtain ⟨lexicalWords, spacedWords, endsWords⟩ := readWords?_eq_some_iff.1 readWords
    obtain ⟨lexicalBound, spacedBound, endsBound⟩ := readBound?_eq_some_iff.1 readBound
    obtain ⟨lexicalShape, spacedShape, endsShape⟩ := readShape?_eq_some_iff.1 readShape
    refine ⟨⟨lexicalWords, lexicalBound, lexicalShape⟩,
      spacedWords.append (spacedBound.append spacedShape), ?_⟩
    rintro (rfl : shape = .single)
    cases Spaced.nil_iff.1 spacedShape
    refine ⟨endsShape rfl, endsBound, ?_⟩
    rintro (rfl : bound = none)
    cases Spaced.nil_iff.1 spacedBound
    exact endsWords
  · rintro ⟨⟨lexicalWords, lexicalBound, lexicalShape⟩, spaced, ends⟩
    obtain ⟨s₁, spacedWords, later⟩ := Spaced.append_iff.1 spaced
    obtain ⟨s₂, spacedBound, spacedShape⟩ := Spaced.append_iff.1 later
    have endsShape : shape = .single → rest.after? "[" = none := fun single => (ends single).1
    have endsBound := boundEnds_of_spaced spacedShape fun single => (ends single).2.1
    have endsWords := wordsEnd_of_spaced later fun single => (ends single).2.2
    have readWords := readWords?_eq_some_iff.2 ⟨lexicalWords, spacedWords, endsWords⟩
    have readBound := readBound?_eq_some_iff.2 ⟨lexicalBound, spacedBound, endsBound⟩
    have readShape := readShape?_eq_some_iff.2 ⟨lexicalShape, spacedShape, endsShape⟩
    simp only [read?, readWords, readBound, readShape, Option.bind_eq_bind, Option.bind_some]
    rfl

theorem ends_nil (spec : TypeSpec) : spec.Ends [] := by
  intro _
  refine ⟨rfl, ?_, fun _ => ?_⟩
  · cases spec.bound with
    | none => rfl
    | some digits => exact Text.stops_nil _
  · cases spec.words with
    | bare => exact ⟨Text.stops_nil _, rfl⟩
    | inPackage => exact ⟨Text.stops_nil _, rfl⟩
    | full => exact Text.stops_nil _

/-- What has been taken off is a written type when it stands alone. -/
theorem read?_whole {s rest : Text} {spec : TypeSpec} (read : read? s = some (spec, rest)) :
    ∃ taken, s = taken ++ rest ∧ read? taken = some (spec, []) := by
  obtain ⟨lexical, spaced, -⟩ := read?_eq_some_iff.1 read
  obtain ⟨taken, rfl, frame⟩ := spaced.exists_taken
  have alone := frame []
  rw [List.append_nil] at alone
  exact ⟨taken, rfl, read?_eq_some_iff.2 ⟨lexical, alone, spec.ends_nil⟩⟩

end TypeSpec

/-! ## A type and then a word -/

namespace Text

/-- The last code points of the text are an identifier. -/
def EndsInIdentifier (s : Text) : Prop := ∃ before name, s = before ++ name ∧ IsIdentifier name

/-- Behind a code point that is in no word stands no letter. -/
theorem not_endsInIdentifier {before tail : Text} {c : CodePoint} (outside : c.isWord = false)
    (noLetter : ∀ d ∈ tail, d.isLetter = false) : ¬ EndsInIdentifier (before ++ c :: tail) := by
  rintro ⟨front, name, whole, identifier⟩
  obtain ⟨d, rest, rfl, letter, -⟩ := id identifier
  rcases List.append_eq_append_iff.1 whole with ⟨between, -, same⟩ | ⟨between, -, same⟩
  · cases between with
    | nil =>
        obtain ⟨rfl, -⟩ := List.cons.inj same
        rw [CodePoint.isWord_of_isLetter letter] at outside
        cases outside
    | cons e between =>
        obtain ⟨-, rfl⟩ := List.cons.inj same
        rw [noLetter d (by simp)] at letter
        cases letter
  · have inside := identifier.isWord c (by rw [same]; simp)
    rw [outside] at inside
    cases inside

end Text

namespace TypeSpec

/-- How a written type ends: in the name that it is, in the digits of its bound, or
in its closing bracket. -/
theorem exists_end {spec : TypeSpec} {type : Text} (read : read? type = some (spec, [])) :
    (spec.bound = none ∧ spec.shape = .single ∧ Text.EndsInIdentifier type) ∨
      (spec.bound ≠ none ∧ spec.shape = .single ∧ ∃ before gap digits,
        type = before ++ CodePoint.ofChar '=' :: (gap ++ digits) ∧ IsGap gap ∧ IsDigits digits) ∨
      (spec.shape ≠ .single ∧ ∃ before, type = before ++ [CodePoint.ofChar ']']) := by
  obtain ⟨lexical, spaced, -⟩ := read?_eq_some_iff.1 read
  by_cases single : spec.shape = .single
  · cases bounded : spec.bound with
    | none =>
        refine .inl ⟨rfl, single, ?_⟩
        obtain ⟨init, name, last, identifier⟩ := WordSpec.exists_last lexical.words
        have tokens : spec.tokens = init ++ [name] := by
          rw [TypeSpec.tokens, bounded, single, last]
          exact List.append_nil _
        rw [tokens] at spaced
        obtain ⟨before, gap, -, rfl⟩ := spaced.exists_last
        exact ⟨before ++ gap, name, (List.append_assoc _ _ _).symm, identifier⟩
    | some digits =>
        refine .inr (.inl ⟨by simp, single, ?_⟩)
        have tokens : spec.tokens = (spec.words.tokens ++ [Text.ofString "<="]) ++ [digits] := by
          rw [TypeSpec.tokens, bounded, single, List.append_assoc]
          rfl
        rw [tokens] at spaced
        obtain ⟨mid, first, last⟩ := Spaced.append_iff.1 spaced
        obtain ⟨gap, isGap, rfl⟩ := Spaced.singleton_iff.1 last
        obtain ⟨start, mark, later⟩ := Spaced.append_iff.1 first
        obtain ⟨front, rfl, -⟩ := mark.exists_taken
        obtain ⟨space, -, rfl⟩ := Spaced.singleton_iff.1 later
        refine ⟨front ++ (space ++ [CodePoint.ofChar '<']), gap, digits, ?_, isGap,
          lexical.bound digits bounded⟩
        rw [show Text.ofString "<=" = [CodePoint.ofChar '<', CodePoint.ofChar '='] from rfl]
        simp
  · refine .inr (.inr ⟨single, ?_⟩)
    obtain ⟨init, closed⟩ := ShapeSpec.exists_closing single
    have tokens : spec.tokens =
        (spec.words.tokens ++ (boundTokens spec.bound ++ init)) ++ [Text.ofString "]"] := by
      rw [TypeSpec.tokens, closed]
      simp only [List.append_assoc]
    rw [tokens] at spaced
    obtain ⟨before, gap, -, rfl⟩ := spaced.exists_last
    exact ⟨before ++ gap, (List.append_assoc _ _ _).symm⟩

theorem endsInIdentifier_iff {spec : TypeSpec} {type : Text}
    (read : read? type = some (spec, [])) :
    Text.EndsInIdentifier type ↔ spec.bound = none ∧ spec.shape = .single := by
  rcases exists_end read with ⟨bound, single, ends⟩ |
    ⟨bound, -, before, gap, digits, rfl, isGap, run⟩ | ⟨shaped, before, rfl⟩
  · exact ⟨fun _ => ⟨bound, single⟩, fun _ => ends⟩
  · refine ⟨fun ends => absurd ends (Text.not_endsInIdentifier (by decide) ?_),
      fun bare => absurd bare.1 bound⟩
    intro d member
    rw [Bool.eq_false_iff]
    intro letter
    rcases List.mem_append.1 member with inGap | inDigits
    · have word := CodePoint.isWord_of_isLetter letter
      rw [CodePoint.not_isWord_of_isGap (isGap d inGap)] at word
      cases word
    · have digit := run.2 d inDigits
      rw [CodePoint.not_isDigit_of_isLetter letter] at digit
      cases digit
  · exact ⟨fun ends => absurd ends
      (Text.not_endsInIdentifier (by decide) fun d member => by cases member),
      fun bare => absurd bare.2 shaped⟩

/-- A written type ends in no white space. -/
theorem getLast?_not_isSpace {spec : TypeSpec} {type : Text}
    (read : read? type = some (spec, [])) :
    ∀ c, type.getLast? = some c → c.isSpace = false := by
  intro c last
  rcases exists_end read with ⟨-, -, before, name, rfl, identifier⟩ |
    ⟨-, -, before, gap, digits, rfl, -, run⟩ | ⟨-, before, rfl⟩
  · rw [List.getLast?_append_of_ne_nil _ identifier.ne_nil] at last
    exact CodePoint.not_isSpace_of_isWord (identifier.isWord c (List.mem_of_getLast? last))
  · rw [List.getLast?_append_of_ne_nil _ (List.cons_ne_nil _ _), ← List.cons_append,
      List.getLast?_append_of_ne_nil _ run.1] at last
    exact CodePoint.not_isSpace_of_isWord
      (CodePoint.isWord_of_isDigit (run.2 c (List.mem_of_getLast? last)))
  · rw [List.getLast?_append_of_ne_nil _ (List.cons_ne_nil _ _)] at last
    cases last
    decide

/-- What ends a written type when a letter comes after the gap. -/
theorem ends_iff {spec : TypeSpec} {gap rest : Text} {c : CodePoint} (isGap : IsGap gap)
    (letter : c.isLetter = true) :
    spec.Ends (gap ++ c :: rest) ↔ (spec.bound = none ∧ spec.shape = .single → gap ≠ []) := by
  have word := CodePoint.isWord_of_isLetter letter
  have other {mark : Text} (nonempty : mark ≠ []) (isMark : mark.head?.all (!·.isWord) = true) :
      (gap ++ c :: rest).after? mark = none := by
    refine Text.after?_eq_none nonempty ?_
    rw [Text.skipGap_append isGap,
      Text.skipGap_of_stops (Text.stops_cons.2 (CodePoint.not_isGap_of_isWord word))]
    intro same
    rw [← same] at isMark
    simp [word] at isMark
  have stops : Stops CodePoint.isWord (gap ++ c :: rest) ↔ gap ≠ [] := by
    cases gap with
    | nil => simp [Text.stops_cons, word]
    | cons g gap => simp [Text.stops_cons, CodePoint.not_isWord_of_isGap (isGap g (by simp))]
  have endsWords : spec.words.Ends (gap ++ c :: rest) ↔ gap ≠ [] := by
    rw [← stops]
    cases spec.words with
    | bare => exact and_iff_left (other (by decide) (by decide))
    | inPackage => exact and_iff_left (other (by decide) (by decide))
    | full => exact Iff.rfl
  constructor
  · rintro ends ⟨bound, single⟩
    exact endsWords.1 ((ends single).2.2 bound)
  · intro parted single
    refine ⟨other (by decide) (by decide), ?_, fun bound => endsWords.2 (parted ⟨bound, single⟩)⟩
    cases spec.bound with
    | none => exact other (by decide) (by decide)
    | some digits =>
        exact isGap.stops (fun _ => CodePoint.not_isDigit_of_isGap)
          (Text.stops_cons.2 (CodePoint.not_isDigit_of_isLetter letter))

/-- **A type and then a word**: the type is what stands alone as a type, the word is
as long as possible, and a gap parts the two where the type ends in a word. -/
theorem read?_before_word_iff {s rest name more : Text} {spec : TypeSpec} :
    read? s = some (spec, rest) ∧ word? rest = some (name, more) ↔
      ∃ type gap, s = type ++ (gap ++ (name ++ more)) ∧ rest = gap ++ (name ++ more) ∧
        read? type = some (spec, []) ∧ IsGap gap ∧ (Text.EndsInIdentifier type → gap ≠ []) ∧
        IsIdentifier name ∧ Stops CodePoint.isWord more := by
  constructor
  · rintro ⟨readType, readWord⟩
    obtain ⟨type, rfl, whole⟩ := read?_whole readType
    obtain ⟨identifier, spaced, stops⟩ := Text.word?_eq_some_iff.1 readWord
    obtain ⟨gap, isGap, rfl⟩ := Spaced.singleton_iff.1 spaced
    refine ⟨type, gap, rfl, rfl, whole, isGap, ?_, identifier, stops⟩
    obtain ⟨-, -, ends⟩ := read?_eq_some_iff.1 readType
    obtain ⟨c, word, rfl, letter, -⟩ := identifier
    rw [endsInIdentifier_iff whole]
    exact (ends_iff isGap letter).1 ends
  · rintro ⟨type, gap, rfl, rfl, whole, isGap, parted, identifier, stops⟩
    refine ⟨?_, Text.word?_eq_some_iff.2
      ⟨identifier, Spaced.singleton_iff.2 ⟨gap, isGap, rfl⟩, stops⟩⟩
    obtain ⟨lexical, spaced, -⟩ := read?_eq_some_iff.1 whole
    obtain ⟨taken, same, frame⟩ := spaced.exists_taken
    rw [List.append_nil] at same
    subst same
    refine read?_eq_some_iff.2 ⟨lexical, frame _, ?_⟩
    obtain ⟨c, word, rfl, letter, -⟩ := identifier
    rw [endsInIdentifier_iff whole] at parted
    exact (ends_iff isGap letter).2 parted

end TypeSpec

end RosInterface
