/-
# RosInterface.Proofs.Declaration.Token -- tokens with gaps between them

`Text.Spaced tokens s rest` says that a text begins with some tokens, each with a
gap before it, and goes on with `rest`.  It mentions no reader; the theorems of
this module say what each reader of one token does in these words.  An identifier
and a digit run end where they cannot be continued, a mark ends where it is
written to end.

How a reading goes on is decided by the code point after the gap, so a text that
begins with one token begins with no other (`Spaced.after?_eq_none`), and ends the
run before it (`Spaced.stops`).
-/
import RosInterface.Declaration.TypeSpec
import RosInterface.Proofs.Decimal.FloatSyntax
import RosInterface.Proofs.Text.Run

set_option autoImplicit false

namespace RosInterface

namespace Text

/-- A letter, then letters, digits and underscores. -/
def IsIdentifier (s : Text) : Prop :=
  ∃ c rest, s = c :: rest ∧ c.isLetter = true ∧ ∀ d ∈ rest, d.isWord = true

namespace IsIdentifier

variable {s : Text}

theorem ne_nil (identifier : IsIdentifier s) : s ≠ [] := by
  obtain ⟨c, rest, rfl, -⟩ := identifier
  exact List.cons_ne_nil c rest

theorem isWord (identifier : IsIdentifier s) : ∀ c ∈ s, c.isWord = true := by
  obtain ⟨c, rest, rfl, letter, words⟩ := identifier
  intro d member
  rcases List.mem_cons.1 member with rfl | inRest
  · exact CodePoint.isWord_of_isLetter letter
  · exact words d inRest

end IsIdentifier

/-! ## Tokens -/

/-- The text begins with the tokens, each with a gap before it, and goes on with
`rest`. -/
inductive Spaced : List Text → Text → Text → Prop where
  | nil (s : Text) : Spaced [] s s
  | cons {gap s rest : Text} {token : Text} {tokens : List Text} (isGap : IsGap gap)
      (more : Spaced tokens s rest) : Spaced (token :: tokens) (gap ++ (token ++ s)) rest

namespace Spaced

variable {token : Text} {tokens others : List Text} {s mid rest : Text}

theorem nil_iff : Spaced [] s rest ↔ s = rest := by
  constructor
  · rintro ⟨⟩
    rfl
  · rintro rfl
    exact .nil s

theorem cons_iff :
    Spaced (token :: tokens) s rest ↔
      ∃ gap more, IsGap gap ∧ s = gap ++ (token ++ more) ∧ Spaced tokens more rest := by
  constructor
  · rintro (_ | ⟨isGap, more⟩)
    exact ⟨_, _, isGap, rfl, more⟩
  · rintro ⟨gap, more, isGap, rfl, spaced⟩
    exact .cons isGap spaced

theorem singleton_iff :
    Spaced [token] s rest ↔ ∃ gap, IsGap gap ∧ s = gap ++ (token ++ rest) := by
  rw [cons_iff]
  constructor
  · rintro ⟨gap, more, isGap, rfl, last⟩
    cases nil_iff.1 last
    exact ⟨gap, isGap, rfl⟩
  · rintro ⟨gap, isGap, rfl⟩
    exact ⟨gap, rest, isGap, rfl, .nil rest⟩

theorem append (first : Spaced tokens s mid) (second : Spaced others mid rest) :
    Spaced (tokens ++ others) s rest := by
  induction first with
  | nil => exact second
  | cons isGap _ ih => exact .cons isGap (ih second)

theorem append_iff :
    Spaced (tokens ++ others) s rest ↔ ∃ mid, Spaced tokens s mid ∧ Spaced others mid rest := by
  constructor
  · intro spaced
    induction tokens generalizing s with
    | nil => exact ⟨s, .nil s, spaced⟩
    | cons token tokens ih =>
        rw [List.cons_append] at spaced
        obtain ⟨gap, more, isGap, rfl, later⟩ := cons_iff.1 spaced
        obtain ⟨mid, first, second⟩ := ih later
        exact ⟨mid, .cons isGap first, second⟩
  · rintro ⟨mid, first, second⟩
    exact first.append second

/-- The first token, then the others. -/
theorem split_first (spaced : Spaced (token :: tokens) s rest) :
    ∃ mid, Spaced [token] s mid ∧ Spaced tokens mid rest :=
  append_iff.1 (show Spaced ([token] ++ tokens) s rest from spaced)

/-- What the tokens take of a text does not depend on what follows. -/
theorem exists_taken (spaced : Spaced tokens s rest) :
    ∃ taken, s = taken ++ rest ∧ ∀ other, Spaced tokens (taken ++ other) other := by
  induction spaced with
  | nil => exact ⟨[], rfl, fun other => .nil other⟩
  | @cons gap _ _ token _ isGap _ ih =>
      obtain ⟨taken, rfl, frame⟩ := ih
      refine ⟨gap ++ (token ++ taken), by simp, fun other => ?_⟩
      have written : Spaced (token :: _) _ other := .cons isGap (frame other)
      simpa using written

/-- The last token ends the text. -/
theorem exists_last (spaced : Spaced (tokens ++ [token]) s []) :
    ∃ before gap, IsGap gap ∧ s = before ++ (gap ++ token) := by
  obtain ⟨mid, first, last⟩ := append_iff.1 spaced
  obtain ⟨before, rfl, -⟩ := first.exists_taken
  obtain ⟨gap, isGap, rfl⟩ := singleton_iff.1 last
  exact ⟨before, gap, isGap, by rw [List.append_nil]⟩

/-- Tokens side by side. -/
theorem flatten (tokens : List Text) (rest : Text) :
    Spaced tokens (tokens.flatten ++ rest) rest := by
  induction tokens with
  | nil => exact .nil rest
  | cons token tokens ih =>
      have written : Spaced (token :: tokens) _ rest := .cons isGap_nil ih
      simpa using written

/-- Where the text after the gap is no gap, the gap is all of it. -/
theorem exists_first (solid : token.head?.any (!·.isGap) = true)
    (spaced : Spaced (token :: tokens) s rest) :
    ∃ gap c more, IsGap gap ∧ s = gap ++ c :: more ∧ c.isGap = false ∧ token.head? = some c := by
  obtain ⟨gap, more, isGap, rfl, -⟩ := cons_iff.1 spaced
  cases token with
  | nil => cases solid
  | cons c token => exact ⟨gap, c, token ++ more, isGap, rfl, by simpa using solid, rfl⟩

theorem skipGap_eq (solid : token.head?.any (!·.isGap) = true)
    (spaced : Spaced (token :: tokens) s rest) : s.skipGap.head? = token.head? := by
  obtain ⟨gap, c, more, isGap, rfl, outside, first⟩ := spaced.exists_first solid
  rw [skipGap_append isGap, skipGap_of_stops (stops_cons.2 outside), first]
  rfl

/-- A text that begins with a token ends a run that the token cannot continue. -/
theorem stops {p : CodePoint → Bool} (solid : token.head?.any (!·.isGap) = true)
    (gaps : ∀ c : CodePoint, c.isGap = true → p c = false)
    (outside : ∀ c, token.head? = some c → p c = false)
    (spaced : Spaced (token :: tokens) s rest) : Stops p s := by
  obtain ⟨gap, c, more, isGap, rfl, -, first⟩ := spaced.exists_first solid
  exact isGap.stops gaps (stops_cons.2 (outside c first))

end Spaced

/-! ## The readers of one token -/

theorem skipGap_eq_iff {s t : Text} (solid : Stops CodePoint.isGap t) :
    s.skipGap = t ↔ ∃ gap, IsGap gap ∧ s = gap ++ t := by
  constructor
  · rintro rfl
    obtain ⟨gap, whole, isGap⟩ := exists_gap s
    exact ⟨gap, isGap, whole⟩
  · rintro ⟨gap, isGap, rfl⟩
    rw [skipGap_append isGap, skipGap_of_stops solid]

theorem identifier?_eq_some_iff {s name rest : Text} :
    identifier? s = some (name, rest) ↔
      s = name ++ rest ∧ IsIdentifier name ∧ Stops CodePoint.isWord rest := by
  cases s with
  | nil =>
      constructor
      · intro read
        cases read
      · rintro ⟨whole, identifier, -⟩
        exact absurd (List.append_eq_nil_iff.1 whole.symm).1 identifier.ne_nil
  | cons c s =>
      rw [identifier?, Option.ite_none_right_eq_some, Option.some.injEq, Prod.mk.injEq]
      constructor
      · rintro ⟨letter, rfl, rfl⟩
        obtain ⟨run, whole, inside⟩ := exists_run CodePoint.isWord s
        have run_eq : s.takeWhile CodePoint.isWord = run := by
          rw [whole, takeWhile_append_stop inside (stops_dropWhile _ s)]
        rw [run_eq, List.cons_append, ← whole]
        exact ⟨rfl, ⟨c, run, rfl, letter, inside⟩, stops_dropWhile _ s⟩
      · rintro ⟨whole, ⟨d, run, rfl, letter, inside⟩, stops⟩
        rw [List.cons_append] at whole
        obtain ⟨rfl, rfl⟩ := List.cons.inj whole
        exact ⟨letter, by rw [takeWhile_append_stop inside stops],
          dropWhile_append_stop inside stops⟩

theorem digits?_eq_some_iff {s digits rest : Text} :
    digits? s = some (digits, rest) ↔
      s = digits ++ rest ∧ IsDigits digits ∧ Stops CodePoint.isDigit rest := by
  simp only [digits?, Option.ite_none_left_eq_some, Option.some.injEq, Prod.mk.injEq,
    List.isEmpty_iff]
  constructor
  · rintro ⟨nonempty, rfl, rfl⟩
    exact ⟨List.takeWhile_append_dropWhile.symm,
      ⟨nonempty, fun _ => List.mem_takeWhile_imp⟩, stops_dropWhile _ s⟩
  · rintro ⟨rfl, ⟨nonempty, inside⟩, stops⟩
    rw [takeWhile_append_stop inside stops]
    exact ⟨nonempty, rfl, dropWhile_append_stop inside stops⟩

theorem IsIdentifier.solid {name : Text} (identifier : IsIdentifier name) :
    name.head?.any (!·.isGap) = true := by
  obtain ⟨c, rest, rfl, letter, -⟩ := identifier
  simpa using CodePoint.not_isGap_of_isWord (CodePoint.isWord_of_isLetter letter)

theorem solid_of_isDigits {digits : Text} (run : IsDigits digits) :
    digits.head?.any (!·.isGap) = true := by
  obtain ⟨nonempty, inside⟩ := run
  obtain ⟨c, rest, rfl⟩ := List.exists_cons_of_ne_nil nonempty
  have word := CodePoint.isWord_of_isDigit (inside c (by simp))
  simpa using CodePoint.not_isGap_of_isWord word

theorem stops_of_solid {token : Text} (solid : token.head?.any (!·.isGap) = true) (rest : Text) :
    Stops CodePoint.isGap (token ++ rest) := by
  cases token with
  | nil => cases solid
  | cons c token => exact stops_cons.2 (by simpa using solid)

theorem word?_eq_some_iff {s name rest : Text} :
    TypeSpec.word? s = some (name, rest) ↔
      IsIdentifier name ∧ Spaced [name] s rest ∧ Stops CodePoint.isWord rest := by
  rw [TypeSpec.word?, identifier?_eq_some_iff, Spaced.singleton_iff]
  constructor
  · rintro ⟨whole, identifier, stops⟩
    exact ⟨identifier, (skipGap_eq_iff (stops_of_solid identifier.solid rest)).1 whole, stops⟩
  · rintro ⟨identifier, spaced, stops⟩
    exact ⟨(skipGap_eq_iff (stops_of_solid identifier.solid rest)).2 spaced, identifier, stops⟩

theorem spacedDigits?_eq_some_iff {s digits rest : Text} :
    digits? s.skipGap = some (digits, rest) ↔
      IsDigits digits ∧ Spaced [digits] s rest ∧ Stops CodePoint.isDigit rest := by
  rw [digits?_eq_some_iff, Spaced.singleton_iff]
  constructor
  · rintro ⟨whole, run, stops⟩
    exact ⟨run, (skipGap_eq_iff (stops_of_solid (solid_of_isDigits run) rest)).1 whole, stops⟩
  · rintro ⟨run, spaced, stops⟩
    exact ⟨(skipGap_eq_iff (stops_of_solid (solid_of_isDigits run) rest)).2 spaced, run, stops⟩

theorem after?_eq_some_iff {s mark rest : Text} (solid : mark.head?.any (!·.isGap) = true) :
    s.after? mark = some rest ↔ Spaced [mark] s rest := by
  simp only [after?, Option.ite_none_right_eq_some, Option.some.injEq, List.isPrefixOf_iff_prefix]
  rw [Spaced.singleton_iff, ← skipGap_eq_iff (stops_of_solid solid rest)]
  constructor
  · rintro ⟨⟨more, whole⟩, rfl⟩
    rw [← whole, List.drop_left]
  · intro whole
    rw [whole]
    exact ⟨List.prefix_append mark rest, List.drop_left⟩

/-- A text whose first code point after the gap begins another token. -/
theorem after?_eq_none {s mark : Text} (nonempty : mark ≠ [])
    (other : s.skipGap.head? ≠ mark.head?) : s.after? mark = none := by
  simp only [after?, ite_eq_right_iff, reduceCtorEq, List.isPrefixOf_iff_prefix]
  rintro ⟨more, whole⟩
  rw [← whole, List.head?_append_of_ne_nil _ nonempty] at other
  exact other rfl

theorem Spaced.after?_eq_none {token mark s rest : Text} {tokens : List Text}
    (solid : token.head?.any (!·.isGap) = true) (nonempty : mark ≠ [])
    (other : token.head? ≠ mark.head?) (spaced : Spaced (token :: tokens) s rest) :
    s.after? mark = none :=
  Text.after?_eq_none nonempty (by rwa [spaced.skipGap_eq solid])

theorem head?_ne_of_isDigits {digits mark : Text} (run : IsDigits digits)
    (isMark : mark.head?.all (!·.isWord) = true) : digits.head? ≠ mark.head? := by
  obtain ⟨nonempty, inside⟩ := run
  obtain ⟨c, rest, rfl⟩ := List.exists_cons_of_ne_nil nonempty
  intro same
  rw [← same] at isMark
  have word := CodePoint.isWord_of_isDigit (inside c (by simp))
  simp [word] at isMark

end Text

end RosInterface
