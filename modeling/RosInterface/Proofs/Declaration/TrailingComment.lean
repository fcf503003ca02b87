/-
# RosInterface.Proofs.Declaration.TrailingComment -- a comment behind a declaration

Two readers look at the quotes of a line.  The search for a comment follows them from the
beginning of the line, and the reader of the value asks only how the value begins.  They agree
where the line is closed (`Text.Closed`), and there a comment behind a declaration is never
part of it.

They do not agree on a string that is written without quotes and holds one, as in
`string a it's`: the quote opens nothing for the reader of the value, but the search takes it
for the beginning of a literal, and the comment becomes part of the string.
`Item.ofLine_comment_iff` says that there is no other exception.  The reason is that a
declaration has quotes in its value only (`DeclarationText.exists_front`) and that the spelling
of every other value is closed (`Value.closed_of_forType`).
-/
import RosInterface.Proofs.Declaration.ReadBack
import RosInterface.Proofs.Value.Quotes

set_option autoImplicit false

namespace RosInterface

open CodePoint (newline)
open Text (BareEnds Closed IsGap Open Spaced Stops)

/-! ## Where a declaration has no quotes -/

/-- Neither a quote nor a newline. -/
def CodePoint.Inert (c : CodePoint) : Prop := c.isQuote = false ∧ c ≠ newline

instance (c : CodePoint) : Decidable c.Inert := inferInstanceAs (Decidable (_ ∧ _))

namespace CodePoint

theorem IsPlain.inert {c : CodePoint} (plain : c.IsPlain) : c.Inert := by
  refine ⟨plain.2.1, ?_⟩
  rintro rfl
  exact absurd plain.1 (by decide)

theorem inert_of_isGap {c : CodePoint} (gap : c.isGap = true) : c.Inert := by
  refine ⟨not_isQuote_of_isSpace (isSpace_of_isGap gap), ?_⟩
  rintro rfl
  exact absurd gap (by decide)

end CodePoint

theorem Text.Spaced.inert {tokens : List Text} {s rest : Text} (spaced : Spaced tokens s rest)
    (inTokens : ∀ token ∈ tokens, ∀ c ∈ token, c.Inert) (inRest : ∀ c ∈ rest, c.Inert) :
    ∀ c ∈ s, c.Inert := by
  induction spaced with
  | nil => exact inRest
  | cons isGap _ ih =>
      rw [List.forall_mem_cons] at inTokens
      intro c member
      simp only [List.mem_append] at member
      rcases member with inGap | inToken | later
      · exact CodePoint.inert_of_isGap (isGap c inGap)
      · exact inTokens.1 c inToken
      · exact ih inTokens.2 inRest c later

/-- A written type holds neither quotes nor newlines. -/
theorem TypeSpec.inert_of_read? {spec : TypeSpec} {s : Text} (read : read? s = some (spec, [])) :
    ∀ c ∈ s, c.Inert := by
  obtain ⟨lexical, spaced, -⟩ := read?_eq_some_iff.1 read
  refine spaced.inert (fun token inTokens c inToken => ?_) fun c none_ =>
    absurd none_ List.not_mem_nil
  exact (TypeSpec.inType lexical token inTokens c inToken).isPlain.inert

/-! ## The value of a declaration -/

namespace TailText

def value? : TailText → Option Text
  | .absent => none
  | .assigned _ value => some value
  | .default value => some value

/-- The tail with another value. -/
def withValue (value : Text) : TailText → TailText
  | .absent => .absent
  | .assigned gap _ => .assigned gap value
  | .default _ => .default value

variable {tail : TailText} {value more : Text}

theorem text_withValue (given : tail.value? = some value) :
    (tail.withValue (value ++ more)).text = tail.text ++ more := by
  cases tail with
  | absent => cases given
  | assigned gap value =>
      cases given
      simp [withValue, text]
  | default value =>
      cases given
      rfl

theorem text_ne_nil (wellWritten : tail.WellWritten) (given : tail.value? = some value) :
    tail.text ≠ [] := by
  cases tail with
  | absent => cases given
  | assigned gap value => simp [text, Text.ofString]
  | default value => exact wellWritten.1.nonempty

theorem isValueText (wellWritten : tail.WellWritten) (given : tail.value? = some value) :
    IsValueText value := by
  cases tail with
  | absent => cases given
  | assigned gap value =>
      cases given
      exact wellWritten.2
  | default value =>
      cases given
      exact wellWritten.1

theorem value?_withValue (given : tail.value? = some value) :
    (tail.withValue more).value? = some more := by
  cases tail with
  | absent => cases given
  | assigned => rfl
  | default => rfl

/-- A value may go on, if it stays on its line. -/
theorem wellWritten_withValue (wellWritten : tail.WellWritten) (given : tail.value? = some value)
    (oneLine : newline ∉ more) : (tail.withValue (value ++ more)).WellWritten := by
  have longer (isValue : IsValueText value) : IsValueText (value ++ more) := by
    refine ⟨List.append_ne_nil_of_left_ne_nil isValue.nonempty _, fun c first => ?_, ?_⟩
    · rw [List.head?_append_of_ne_nil _ isValue.nonempty] at first
      exact isValue.start c first
    · rw [List.mem_append, not_or]
      exact ⟨isValue.oneLine, oneLine⟩
  cases tail with
  | absent => cases given
  | assigned gap value =>
      cases given
      exact ⟨wellWritten.1, longer wellWritten.2⟩
  | default value =>
      cases given
      refine ⟨longer wellWritten.1, ?_⟩
      rw [List.head?_append_of_ne_nil _ wellWritten.1.nonempty]
      exact wellWritten.2

end TailText

namespace DeclarationText

variable {d : DeclarationText} {item : Item} {value more : Text}

/-- The declaration with another value. -/
def withValue (d : DeclarationText) (value : Text) : DeclarationText :=
  { d with tail := d.tail.withValue value }

theorem text_withValue (given : d.tail.value? = some value) :
    (d.withValue (value ++ more)).text = d.text ++ more := by
  simp [text, withValue, TailText.text_withValue given]

theorem WellWritten.withValue (wellWritten : d.WellWritten) (given : d.tail.value? = some value)
    (oneLine : newline ∉ more) : (d.withValue (value ++ more)).WellWritten := by
  have some_ := TailText.text_ne_nil wellWritten.tail given
  refine ⟨⟨wellWritten.bare, wellWritten.gap, wellWritten.parted, wellWritten.name, ?_,
    wellWritten.nameGap, TailText.wellWritten_withValue wellWritten.tail given oneLine⟩,
    wellWritten.accepted⟩
  intro c first
  have whole : d.nameGap ++ (d.withValue (value ++ more)).tail.text =
      (d.nameGap ++ d.tail.text) ++ more := by
    rw [DeclarationText.withValue, TailText.text_withValue given, List.append_assoc]
  refine wellWritten.maximal c ?_
  rwa [show (d.withValue (value ++ more)).nameGap = d.nameGap from rfl, whole,
    List.head?_append_of_ne_nil _ (List.append_ne_nil_of_right_ne_nil _ some_)] at first

/-- **Quotes and newlines of a declaration are in its value**, which is the end of it. -/
theorem exists_front (wellWritten : d.WellWritten) :
    ∃ front, (∀ c ∈ front, c.Inert) ∧ d.text = front ++ d.tail.value?.getD [] := by
  obtain ⟨type, accepted⟩ := wellWritten.accepted
  obtain ⟨spec, read, -⟩ := (FieldType.ofText_eq_ok_iff wellWritten.bare).1 accepted
  have gap {g : Text} (isGap : IsGap g) : ∀ c ∈ g, c.Inert :=
    fun c member => CodePoint.inert_of_isGap (isGap c member)
  have named : ∀ c ∈ d.name, c.Inert :=
    fun c member => (Text.isPlain_of_isWord (wellWritten.name.isWord c member)).inert
  have head : ∀ c ∈ d.type ++ (d.gap ++ (d.name ++ d.nameGap)), c.Inert := by
    simp only [List.forall_mem_append]
    exact ⟨TypeSpec.inert_of_read? read, gap wellWritten.gap, named,
      gap wellWritten.nameGap⟩
  obtain ⟨type, typeGap, name, nameGap, tail⟩ := d
  cases tail with
  | absent => exact ⟨_, head, by simp [text, TailText.text, TailText.value?]⟩
  | default value => exact ⟨_, head, by simp [text, TailText.text, TailText.value?]⟩
  | assigned valueGap value =>
      refine ⟨type ++ (typeGap ++ (name ++ nameGap)) ++ ("=" ++ valueGap), ?_,
        by simp [text, TailText.text, TailText.value?]⟩
      simp only [List.forall_mem_append] at head ⊢
      exact ⟨head, by decide, gap wellWritten.tail.1⟩

theorem WellWritten.oneLine (wellWritten : d.WellWritten) : newline ∉ d.text := by
  obtain ⟨front, inert, whole⟩ := exists_front wellWritten
  rw [whole, List.mem_append, not_or]
  refine ⟨fun member => (inert _ member).2 rfl, ?_⟩
  cases given : d.tail.value? with
  | none => exact List.not_mem_nil
  | some value => exact (TailText.isValueText wellWritten.tail given).oneLine

/-- The value of a declaration without white space at its ends has none either. -/
theorem WellWritten.trim_value (wellWritten : d.WellWritten) (bare : BareEnds d.text)
    (given : d.tail.value? = some value) : value.trim = value := by
  have isValue := TailText.isValueText wellWritten.tail given
  obtain ⟨front, -, whole⟩ := exists_front wellWritten
  refine Text.trim_of_bareEnds ⟨isValue.start, fun c last => bare.2 c ?_⟩
  rw [whole, given, Option.getD_some, List.getLast?_append_of_ne_nil _ isValue.nonempty, last]

end DeclarationText

/-- The type and the values of an item that has values. -/
def Item.given? : Item → Option (FieldType × List Text)
  | .member m => m.default.map fun values => (m.type, values)
  | .constant c => some (c.type, c.value)

theorem DeclarationText.Declares.given {d : DeclarationText} {item : Item} {value : Text}
    (declares : d.Declares item) (given : d.tail.value? = some value) :
    ∃ type values, FieldType.ofText d.type = .ok type ∧ Value.forType type value = .ok values ∧
      item.given? = some (type, values) := by
  obtain ⟨type, accepted, declares⟩ := declares
  match tail : d.tail with
  | .absent =>
      rw [tail] at given
      cases given
  | .default other =>
      rw [tail] at given
      cases given
      simp only [tail] at declares
      obtain ⟨-, values, read, rfl⟩ := declares
      exact ⟨type, values, accepted, read, rfl⟩
  | .assigned gap other =>
      rw [tail] at given
      cases given
      simp only [tail] at declares
      obtain ⟨-, -, values, read, rfl⟩ := declares
      exact ⟨type, values, accepted, read, rfl⟩

/-! ## A comment behind a declaration -/

namespace Item

variable {line gap : Text} {item : Item}

theorem closed_of_closed_trim (closed : Closed line.trim) : Closed line := by
  obtain ⟨lead, trail, whole, inLead, inTrail⟩ := Text.exists_trim line
  have space {s : Text} (inside : ∀ c ∈ s, c.isSpace = true) : Closed s :=
    .of_forall fun c member => CodePoint.not_isQuote_of_isSpace (inside c member)
  rw [whole]
  exact (space inLead).append (closed.append (space inTrail))

/-- A declaration with an open quote gives a string that is written without quotes. -/
theorem exists_bare_value {d : DeclarationText} (wellWritten : d.WellWritten)
    (bare : BareEnds d.text) (declares : d.Declares item) (notClosed : ¬ Closed d.text) :
    ∃ string value, d.tail.value? = some value ∧ value <:+ d.text ∧ ¬ Closed value ∧
      Stops CodePoint.isQuote value ∧
      item.given? = some (.single (.primitive (.string string)), [value]) := by
  obtain ⟨front, inert, whole⟩ := DeclarationText.exists_front wellWritten
  have closedFront : Closed front := .of_forall fun c member => (inert c member).1
  cases given : d.tail.value? with
  | none =>
      rw [whole, given] at notClosed
      exact absurd (closedFront.append .nil) notClosed
  | some value =>
      rw [given, Option.getD_some] at whole
      have open_ : ¬ Closed value := by
        intro closed
        rw [whole] at notClosed
        exact notClosed (closedFront.append closed)
      have ends := wellWritten.trim_value bare given
      obtain ⟨type, values, -, read, found⟩ := declares.given given
      rcases Value.closed_of_forType read with closed | ⟨⟨string, rfl⟩, rfl, noQuote⟩
      · exact absurd (ends ▸ closed) open_
      · rw [ends] at found noQuote
        exact ⟨string, value, rfl, ⟨front, whole.symm⟩, open_, noQuote, found⟩

/-- A string that is written without quotes is all of the value, so a longer value is another
string. -/
theorem eq_nil_of_declares {d e : DeclarationText} {value more : Text} {string : StringType}
    (wellWritten : d.WellWritten) (wellWritten' : e.WellWritten) (longer : e.text = d.text ++ more)
    (bare : BareEnds e.text) (given : d.tail.value? = some value)
    (noQuote : Stops CodePoint.isQuote value) (declares : e.Declares item)
    (held : item.given? = some (.single (.primitive (.string string)), [value])) :
    more = [] := by
  have oneLine := wellWritten'.oneLine
  rw [longer, List.mem_append, not_or] at oneLine
  have same : e = d.withValue (value ++ more) :=
    DeclarationText.eq_of_text wellWritten' (wellWritten.withValue given oneLine.2)
      (longer.trans (DeclarationText.text_withValue given).symm)
  have given' : e.tail.value? = some (value ++ more) := by
    rw [same]
    exact TailText.value?_withValue given
  have trimmed := wellWritten'.trim_value bare given'
  have begins : Stops CodePoint.isQuote (value ++ more) := by
    intro c first
    have some_ := (TailText.isValueText wellWritten.tail given).nonempty
    rw [List.head?_append_of_ne_nil _ some_] at first
    exact noQuote c first
  obtain ⟨type, values, -, read, found⟩ := declares.given given'
  rw [held] at found
  cases found
  obtain ⟨content, readString, single⟩ := Value.forType_single_eq_ok_iff.1 read
  cases single
  have whole := Value.eq_of_string (trimmed.symm ▸ begins) readString
  rw [trimmed, List.self_eq_append_right] at whole
  exact whole

theorem trim_ne_nil_of_ofLine (read : ofLine line = .ok item) :
    line.withoutComment.trim ≠ [] := by
  obtain ⟨d, wellWritten, whole, -⟩ := ofLine_eq_ok_iff.1 read
  rw [← whole, DeclarationText.text]
  simp [wellWritten.name.ne_nil]

/-- Behind a closed line the comment is found, and the gap before it is trimmed. -/
theorem ofLine_comment_of_closed (kept : line.withoutComment = line)
    (read : ofLine line = .ok item) (isGap : IsGap gap) (comment : Text) (closed : Closed line) :
    ofLine (line ++ (gap ++ CodePoint.ofChar '#' :: comment)) = .ok item := by
  have some_ := trim_ne_nil_of_ofLine read
  rw [ofLine_eq_ok_iff] at read ⊢
  rw [kept] at read some_
  rw [closed.withoutComment_append kept isGap comment, Text.trim_append_space some_ fun c member =>
    CodePoint.isSpace_of_isGap (isGap c member)]
  exact read

/-- Behind an open quote the comment becomes part of the value. -/
theorem closed_of_ofLine_comment (kept : line.withoutComment = line)
    (read : ofLine line = .ok item) (isGap : IsGap gap) {comment : Text}
    (again : ofLine (line ++ (gap ++ CodePoint.ofChar '#' :: comment)) = .ok item) :
    Closed line := by
  by_contra notClosed
  have some_ := trim_ne_nil_of_ofLine read
  obtain ⟨d, wellWritten, whole, declares⟩ := ofLine_eq_ok_iff.1 read
  obtain ⟨e, wellWritten', whole', declares'⟩ := ofLine_eq_ok_iff.1 again
  have open_ := (Text.closed_or_open line).resolve_left notClosed
  obtain ⟨tail, -, found⟩ := open_.exists_withoutComment kept isGap comment
  rw [kept] at whole some_
  have hash : Text.trim (gap ++ CodePoint.ofChar '#' :: tail) ≠ [] :=
    Text.trim_ne_nil (c := CodePoint.ofChar '#') (by simp) (by decide)
  obtain ⟨between, longer⟩ := Text.exists_trim_append some_ hash
  have bare : BareEnds d.text := whole ▸ Text.bareEnds_trim line
  obtain ⟨string, value, given, -, -, noQuote, held⟩ := exists_bare_value wellWritten bare declares
    fun closed => notClosed (closed_of_closed_trim (whole ▸ closed))
  have none_ := eq_nil_of_declares wellWritten wellWritten'
    (by rw [whole', found, longer, ← whole]) (whole' ▸ Text.bareEnds_trim _) given noQuote
    declares' held
  exact hash (List.append_eq_nil_iff.1 none_).2

/-- **When a comment behind a declaration is none of it.**  The line declares the same item with
the comment exactly when it leaves no quote open; and it leaves one open only if its item gives
a string whose value is written without quotes and holds it. -/
theorem ofLine_comment_iff (kept : line.withoutComment = line) (read : ofLine line = .ok item)
    (isGap : IsGap gap) (comment : Text) :
    (ofLine (line ++ (gap ++ CodePoint.ofChar '#' :: comment)) = .ok item ↔ Closed line) ∧
      (Closed line ∨ ∃ string value, value <:+ line.trim ∧ ¬ Closed value ∧
        Stops CodePoint.isQuote value ∧
        item.given? = some (.single (.primitive (.string string)), [value])) := by
  refine ⟨⟨closed_of_ofLine_comment kept read isGap,
    ofLine_comment_of_closed kept read isGap comment⟩, ?_⟩
  by_cases closed : Closed line
  · exact .inl closed
  · obtain ⟨d, wellWritten, whole, declares⟩ := ofLine_eq_ok_iff.1 read
    rw [kept] at whole
    obtain ⟨string, value, -, ends, open_, noQuote, held⟩ := exists_bare_value wellWritten
      (whole ▸ Text.bareEnds_trim line) declares fun inside =>
        closed (closed_of_closed_trim (whole ▸ inside))
    exact .inr ⟨string, value, whole ▸ ends, open_, noQuote, held⟩

/-- A quoted string may hold a hash, and a comment behind it a quote. -/
theorem ofLine_comment_quoted :
    Text.withoutComment "string a 'x # y'" = "string a 'x # y'" ∧
      ofLine ("string a 'x # y'" ++ (" " ++ CodePoint.ofChar '#' :: "it's")) =
        .ok (.member ⟨"a", .single (.primitive (.string ⟨false, none⟩)), some ["x # y"]⟩) := by
  have kept : Text.withoutComment "string a 'x # y'" = "string a 'x # y'" := by decide +kernel
  have read : ofLine "string a 'x # y'" =
      .ok (.member ⟨"a", .single (.primitive (.string ⟨false, none⟩)), some ["x # y"]⟩) := by
    decide +kernel
  have front : Closed "string a " := .of_forall (by decide)
  have literal : Closed (CodePoint.singleQuote :: ("x # y" ++ [CodePoint.singleQuote])) :=
    .single (by decide) (.of_forall (by decide))
  have whole : Text.ofString "string a 'x # y'" =
      "string a " ++ CodePoint.singleQuote :: ("x # y" ++ [CodePoint.singleQuote]) := by
    decide +kernel
  have closed : Closed "string a 'x # y'" := whole ▸ front.append literal
  exact ⟨kept, (ofLine_comment_iff kept read Text.isGap_space "it's").1.2 closed⟩

/-- In a string that is written without quotes an apostrophe opens one: the comment is kept. -/
theorem ofLine_comment_apostrophe :
    Text.withoutComment "string a it's" = "string a it's" ∧
      ofLine "string a it's" =
        .ok (.member ⟨"a", .single (.primitive (.string ⟨false, none⟩)), some ["it's"]⟩) ∧
      ofLine "string a it's # note" =
        .ok (.member ⟨"a", .single (.primitive (.string ⟨false, none⟩)), some ["it's # note"]⟩) ∧
      ofLine "string a it's # note" ≠ ofLine "string a it's" := by
  decide +kernel

end Item

end RosInterface
