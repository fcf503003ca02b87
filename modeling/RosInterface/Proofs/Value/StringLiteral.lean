/-
# RosInterface.Proofs.Value.StringLiteral -- what a quoted string stands for

The reader of strings finds the closing quote first and decodes the escapes afterwards
(`Value.quotedContent?_eq_some_iff`).  Whatever it is given, it goes one of five ways
(`Value.StringReading`); the last step of two of them compares the content with the bound of the
type (`Value.fitting`).

A literal that is written piece by piece passes both steps: its body is guarded, so it ends where
it was written to end, and decoding gives what the pieces stand for.  `Value.string_of_spelled`
says so with white space around the literal.
-/
import RosInterface.Proofs.Text.Pieces
import RosInterface.Value.Primitive

set_option autoImplicit false

namespace RosInterface.Value

open Text (Guarded IsLiteral LiteralBody Stops)
open CodePoint (singleQuote)

variable {type : StringType} {mustQuote : Bool} {quote : CodePoint} {text body content : Text}

/-- A quoted form is taken where it is one literal, and its body is decoded. -/
theorem quotedContent?_eq_some_iff (isQuote : quote.isQuote = true) {rest : Text}
    {result : Except EscapeFault Text} :
    quotedContent? quote rest = some result ↔
      ∃ body, rest = body ++ [quote] ∧ Guarded quote body ∧ Text.unescape body = result := by
  constructor
  · intro read
    rw [quotedContent?] at read
    split at read
    case h_1 body found =>
      obtain ⟨whole, guarded⟩ := (Text.untilQuote_eq_some_iff isQuote).1 found
      exact ⟨body, whole, guarded, Option.some.inj read⟩
    case h_2 => cases read
  · rintro ⟨body, rfl, guarded, rfl⟩
    rw [quotedContent?, (Text.untilQuote_eq_some_iff isQuote).2 ⟨rfl, guarded⟩]

theorem quotedContent?_isSome_iff (isQuote : quote.isQuote = true) {rest : Text} :
    (quotedContent? quote rest).isSome = true ↔ IsLiteral (quote :: rest) := by
  rw [Option.isSome_iff_exists]
  simp only [quotedContent?_eq_some_iff isQuote]
  constructor
  · rintro ⟨_, body, rfl, guarded, -⟩
    exact ⟨quote, body, rfl, isQuote, guarded⟩
  · rintro ⟨quote, body, whole, -, guarded⟩
    obtain ⟨rfl, rfl⟩ := List.cons.inj whole
    exact ⟨_, body, rfl, guarded, rfl⟩

/-! ## The bound -/

/-- The content, where it is not longer than the bound of its type. -/
def fitting (type : StringType) (text content : Text) : Outcome Text :=
  match type.bound with
  | none => .ok content
  | some bound =>
      if content.length ≤ bound then .ok content
      else .refuse text (.single (.primitive (.string type))) (some (.tooLong content.length bound))

theorem fitting_eq_ok_iff {value : Text} :
    fitting type text content = .ok value ↔
      value = content ∧ ∀ bound, type.bound = some bound → content.length ≤ bound := by
  cases bounded : type.bound with
  | none =>
      simp only [fitting, bounded, Except.ok.injEq, reduceCtorEq, false_implies, implies_true,
        and_true]
      exact eq_comm
  | some bound =>
      simp only [fitting, bounded, Option.some.injEq, forall_eq']
      by_cases fits : content.length ≤ bound
      · rw [if_pos fits, Except.ok.injEq, and_iff_left fits]
        exact eq_comm
      · rw [if_neg fits]
        exact ⟨fun read => (by cases read), fun found => absurd found.2 fits⟩

theorem fitting_of_tooLong {bound : Nat} (bounded : type.bound = some bound)
    (tooLong : bound < content.length) :
    fitting type text content =
      .refuse text (.single (.primitive (.string type)))
        (some (.tooLong content.length bound)) := by
  simp only [fitting, bounded]
  exact if_neg (Nat.not_le.2 tooLong)

/-! ## The forms of a string -/

/-- How a text is read as a string, by what stands at its beginning and at its end. -/
inductive StringReading (type : StringType) (mustQuote : Bool) (text : Text) :
    Outcome Text → Prop where
  | unterminated (unclosed : text.trim.Unclosed) : StringReading type mustQuote text
      (.refuse text (.single (.primitive (.string type))) (some .unterminated))
  | undecodable {quote : CodePoint} {body : Text} {fault : EscapeFault}
      (literal : text.trim = quote :: (body ++ [quote])) (isQuote : quote.isQuote = true)
      (guarded : Guarded quote body) (failed : Text.unescape body = .error fault) :
      StringReading type mustQuote text (.abort (.escape fault))
  | quoted {quote : CodePoint} {body content : Text}
      (literal : text.trim = quote :: (body ++ [quote])) (isQuote : quote.isQuote = true)
      (guarded : Guarded quote body) (decoded : Text.unescape body = .ok content) :
      StringReading type mustQuote text (fitting type text content)
  | unquoted (noQuote : Stops CodePoint.isQuote text.trim) (must : mustQuote = true) :
      StringReading type mustQuote text
        (.refuse text (.single (.primitive (.string type))) (some .unquoted))
  | bare {content : Text} (literal : text.trim = content)
      (noQuote : Stops CodePoint.isQuote content) (free : mustQuote = false) :
      StringReading type mustQuote text (fitting type text content)

/-- **A string is read in one of these ways.** -/
theorem string_reading (type : StringType) (mustQuote : Bool) (text : Text) :
    StringReading type mustQuote text (string type mustQuote text) := by
  simp only [string]
  cases literal : text.trim with
  | nil =>
      cases mustQuote with
      | true => exact .unquoted (literal ▸ Text.stops_nil _) rfl
      | false => exact .bare literal (Text.stops_nil _) rfl
  | cons c rest =>
      simp only
      split
      case isTrue isQuote =>
        cases content : quotedContent? c rest with
        | none =>
            refine .unterminated (literal ▸ ⟨⟨c, rest, rfl, isQuote⟩, fun found => ?_⟩)
            rw [← quotedContent?_isSome_iff isQuote, content] at found
            cases found
        | some result =>
            obtain ⟨body, rfl, guarded, decoded⟩ := (quotedContent?_eq_some_iff isQuote).1 content
            cases result with
            | error fault => exact .undecodable literal isQuote guarded decoded
            | ok content => exact .quoted literal isQuote guarded decoded
      case isFalse noQuote =>
        have stops : Stops CodePoint.isQuote (c :: rest) :=
          Text.stops_cons.2 (Bool.eq_false_iff.2 noQuote)
        cases mustQuote with
        | true => exact .unquoted (literal ▸ stops) rfl
        | false => exact .bare literal stops rfl

/-- Without a quote at its beginning a text stands for itself. -/
theorem string_of_bare (noQuote : Stops CodePoint.isQuote text.trim) :
    string type false text = fitting type text text.trim := by
  simp only [string]
  cases literal : text.trim with
  | nil => rfl
  | cons c rest =>
      rw [literal, Text.stops_cons] at noQuote
      simp only [noQuote]
      rfl

/-- A literal is read by its pieces. -/
theorem string_of_body (isQuote : quote.isQuote = true) (written : LiteralBody quote body content)
    (trimmed : text.trim = quote :: (body ++ [quote])) :
    string type mustQuote text = fitting type text content := by
  have found : quotedContent? quote (body ++ [quote]) = some (.ok content) :=
    (quotedContent?_eq_some_iff isQuote).2 ⟨body, rfl, written.guarded isQuote, written.unescape⟩
  simp only [string, trimmed, isQuote, found]
  rfl

/-- **A quoted literal is read as what its pieces stand for**, whatever white space is around it,
where that is not longer than the bound; and otherwise it is refused for its length. -/
theorem string_of_spelled (type : StringType) (mustQuote : Bool) {lead trail : Text}
    (isQuote : quote.isQuote = true) (written : LiteralBody quote body content)
    (inLead : ∀ c ∈ lead, c.isSpace = true) (inTrail : ∀ c ∈ trail, c.isSpace = true)
    (whole : text = lead ++ (quote :: (body ++ [quote]) ++ trail)) :
    ((∀ bound, type.bound = some bound → content.length ≤ bound) →
      string type mustQuote text = .ok content) ∧
    ∀ bound, type.bound = some bound → bound < content.length →
      string type mustQuote text =
        .refuse text (.single (.primitive (.string type)))
          (some (.tooLong content.length bound)) := by
  have literal : IsLiteral (quote :: (body ++ [quote])) :=
    ⟨quote, body, rfl, isQuote, written.guarded isQuote⟩
  have trimmed : text.trim = quote :: (body ++ [quote]) := by
    rw [whole]
    exact Text.trim_around inLead inTrail literal.ne_nil literal.bareEnds
  rw [string_of_body isQuote written trimmed]
  exact ⟨fun fits => fitting_eq_ok_iff.2 ⟨rfl, fits⟩,
    fun _ bounded tooLong => fitting_of_tooLong bounded tooLong⟩

/-- Behind two hexadecimal digits a `g` is itself, and so is an `8` behind three octal ones; a
backslash before `q`, and before an `x` without digits, is kept.  That makes ten code points. -/
theorem string_of_spelled_mixed :
    string ⟨false, some 10⟩ false " 'A\\x41g\\1018\\q\\x\\\"'\n" = .ok "AAgA8\\q\\x\"" ∧
      string ⟨false, some 9⟩ false " 'A\\x41g\\1018\\q\\x\\\"'\n" =
        .refuse " 'A\\x41g\\1018\\q\\x\\\"'\n" (.single (.primitive (.string ⟨false, some 9⟩)))
          (some (.tooLong 10 9)) := by
  have written : LiteralBody singleQuote _ _ :=
    @LiteralBody.cons _ "A" "A" _ _ (.itself (by decide) (by decide)) <|
    @LiteralBody.cons _ "\\x41" "A" _ _ (.hexadecimal (by decide) rfl (by decide) (by decide)) <|
    @LiteralBody.cons _ "g" "g" _ _ (.itself (by decide) (by decide)) <|
    @LiteralBody.cons _ "\\101" "A" _ _
      (.octal (by decide) (by decide) (by decide) (.inl (by decide)) (by decide)) <|
    @LiteralBody.cons _ "8" "8" _ _ (.itself (by decide) (by decide)) <|
    @LiteralBody.cons _ "\\q" "\\q" _ _ (.unknown (by decide) (by decide) (by decide)) <|
    @LiteralBody.cons _ "\\x" "\\x" _ _
      (.undigited (show (_, 2) ∈ Text.hexLetters by decide) (by decide)) <|
    @LiteralBody.cons _ "\\\"" "\"" _ _ (.letter (by decide)) .nil
  constructor
  · exact (string_of_spelled _ false (by decide) written (by decide) (by decide)
      (show _ = (" " : Text) ++ (_ ++ "\n") by decide)).1 (by decide)
  · exact (string_of_spelled _ false (by decide) written (by decide) (by decide)
      (show _ = (" " : Text) ++ (_ ++ "\n") by decide)).2 9 rfl (by decide)

end RosInterface.Value
