/-
# RosInterface.Proofs.Value.ArraySyntax -- the elements of an array literal

An array literal is a sequence of tokens with gaps between them: the opening bracket, elements
with commas between neighbours, one more comma behind the last where there is an element, and the
closing bracket (`ArrayElement.tokens`).  An element is a literal that holds no newline or a run
of code points that may stand bare.  What stands behind an element is a gap, a comma or a bracket,
and none of them continues a run; so every run is as long as it can be.

`ArrayElement.split?_eq_some_iff` says that a text is cut into elements exactly when it is such a
sequence.  `Value.array_grammar` is the same for the values: the elements are quoted in arrays of
strings only, and each value is what its element means as a single value.
-/
import RosInterface.Proofs.Declaration.Token
import RosInterface.Proofs.Outcome
import RosInterface.Proofs.Text.Literal
import RosInterface.Value.Array

set_option autoImplicit false

namespace RosInterface

open Text (Spaced Stops IsGap IsLiteral)

namespace ArrayElement

/-! ## Elements and tokens -/

/-- A literal without a newline, or a run of code points that may stand bare. -/
def WellWritten : ArrayElement → Prop
  | .quoted source => IsLiteral source ∧ CodePoint.newline ∉ source
  | .bare source => source ≠ [] ∧ ∀ c ∈ source, isBare c = true

/-- The tokens behind the last element. -/
def closing (comma : Bool) : List Text :=
  if comma then [Text.ofString ",", Text.ofString "]"] else [Text.ofString "]"]

/-- The tokens of a list of elements, with a comma behind the last one or without. -/
def listTokens (elements : List ArrayElement) (comma : Bool) : List Text :=
  (elements.map source).intersperse (Text.ofString ",") ++ closing comma

/-- The tokens of an array literal. -/
def tokens (elements : List ArrayElement) (comma : Bool) : List Text :=
  Text.ofString "[" :: listTokens elements comma

theorem listTokens_cons_cons (element next : ArrayElement) (more : List ArrayElement)
    (comma : Bool) :
    listTokens (element :: next :: more) comma =
      element.source :: Text.ofString "," :: listTokens (next :: more) comma := rfl

/-- A token behind the opening bracket is an element, a comma or the closing bracket. -/
theorem of_mem_listTokens {token : Text} {elements : List ArrayElement} {comma : Bool}
    (member : token ∈ listTokens elements comma) :
    (∃ e ∈ elements, token = e.source) ∨ token = Text.ofString "," ∨
      token = Text.ofString "]" := by
  have closes (inside : token ∈ closing comma) :
      token = Text.ofString "," ∨ token = Text.ofString "]" := by
    cases comma with
    | true => simpa [closing] using inside
    | false => exact .inr (by simpa [closing] using inside)
  induction elements with
  | nil => exact .inr (closes member)
  | cons element others ih =>
      have later : (∃ e ∈ others, token = e.source) → ∃ e ∈ element :: others, token = e.source :=
        fun ⟨e, inOthers, same⟩ => ⟨e, List.mem_cons_of_mem _ inOthers, same⟩
      cases others with
      | nil =>
          rcases List.mem_cons.1 member with same | behind
          · exact .inl ⟨element, by simp, same⟩
          · exact .inr (closes behind)
      | cons next others =>
          rw [listTokens_cons_cons] at member
          rcases List.mem_cons.1 member with same | behind
          · exact .inl ⟨element, by simp, same⟩
          · rcases List.mem_cons.1 behind with comma | further
            · exact .inr (.inl comma)
            · exact (ih further).imp_left later

/-! ## One element -/

/-- What follows does not continue a bare element. -/
def Ends : ArrayElement → Text → Prop
  | .quoted _, _ => True
  | .bare _, rest => Stops isBare rest

theorem not_isBare_of_isGap {c : CodePoint} (gap : c.isGap = true) : isBare c = false := by
  simp [isBare, CodePoint.isSpace_of_isGap gap]

theorem not_isQuote_of_isBare {c : CodePoint} (bare : isBare c = true) : c.isQuote = false := by
  simp only [isBare, Bool.not_eq_true', Bool.or_eq_false_iff] at bare
  exact bare.2

variable {s after written : Text} {element : ArrayElement}

theorem read?_quoted_iff :
    read? s = some (.quoted written, after) ↔
      s = written ++ after ∧ IsLiteral written ∧ CodePoint.newline ∉ written := by
  constructor
  · intro read
    cases s with
    | nil => cases read
    | cons c rest =>
        simp only [read?] at read
        split at read
        case isTrue isQuote =>
          cases found : Text.untilQuote c rest with
          | none =>
              simp only [found] at read
              cases read
          | some parts =>
              obtain ⟨body, behind⟩ := parts
              simp only [found, Option.ite_none_left_eq_some, List.contains_iff_mem] at read
              obtain ⟨onLine, same⟩ := read
              cases same
              obtain ⟨rfl, guarded⟩ := (Text.untilQuote_eq_some_iff isQuote).1 found
              exact ⟨by simp, ⟨c, body, rfl, isQuote, guarded⟩,
                (Text.newline_not_mem_literal_iff isQuote).2 onLine⟩
        case isFalse =>
          split at read <;> cases read
  · rintro ⟨rfl, ⟨quote, body, rfl, isQuote, guarded⟩, onLine⟩
    have found : Text.untilQuote quote (body ++ quote :: after) = some (body, after) :=
      (Text.untilQuote_eq_some_iff isQuote).2 ⟨rfl, guarded⟩
    rw [Text.newline_not_mem_literal_iff isQuote, ← List.contains_iff_mem, Bool.not_eq_true]
      at onLine
    have whole : quote :: (body ++ [quote]) ++ after = quote :: (body ++ quote :: after) := by simp
    rw [whole, read?, if_pos isQuote, found]
    simp only [onLine]
    rfl

theorem read?_bare_iff :
    read? s = some (.bare written, after) ↔
      s = written ++ after ∧ (written ≠ [] ∧ ∀ c ∈ written, isBare c = true) ∧
        Stops isBare after := by
  constructor
  · intro read
    cases s with
    | nil => cases read
    | cons c rest =>
        simp only [read?] at read
        split at read
        case isTrue isQuote =>
          split at read
          · cases read
          · split at read <;> cases read
        case isFalse =>
          split at read
          case isTrue bare =>
            cases read
            refine ⟨by simp, ⟨List.cons_ne_nil _ _, ?_⟩, Text.stops_dropWhile _ _⟩
            exact List.forall_mem_cons.2 ⟨bare, fun d => List.mem_takeWhile_imp⟩
          case isFalse => cases read
  · rintro ⟨rfl, ⟨nonempty, inside⟩, stops⟩
    obtain ⟨c, run, rfl⟩ := List.exists_cons_of_ne_nil nonempty
    rw [List.forall_mem_cons] at inside
    rw [List.cons_append, read?, if_neg (by rw [not_isQuote_of_isBare inside.1]; decide),
      if_pos inside.1, Text.takeWhile_append_stop inside.2 stops,
      Text.dropWhile_append_stop inside.2 stops]

/-- **The longest element is taken off.** -/
theorem read?_eq_some_iff :
    read? s = some (element, after) ↔
      s = element.source ++ after ∧ element.WellWritten ∧ element.Ends after := by
  cases element with
  | quoted written => simp only [read?_quoted_iff, source, WellWritten, Ends, and_true]
  | bare written => exact read?_bare_iff

/-- An element begins in neither a gap nor a closing bracket. -/
theorem WellWritten.exists_first (wellWritten : element.WellWritten) :
    ∃ c rest, element.source = c :: rest ∧ c.isGap = false ∧ c ≠ CodePoint.ofChar ']' := by
  cases element with
  | quoted written =>
      obtain ⟨⟨quote, body, rfl, isQuote, -⟩, -⟩ := wellWritten
      refine ⟨quote, body ++ [quote], rfl, ?_⟩
      rcases CodePoint.isQuote_iff.1 isQuote with rfl | rfl <;> decide
  | bare written =>
      obtain ⟨nonempty, inside⟩ := wellWritten
      obtain ⟨c, run, rfl⟩ := List.exists_cons_of_ne_nil nonempty
      have bare := inside c (by simp)
      refine ⟨c, run, rfl, ?_, ?_⟩
      · rw [Bool.eq_false_iff]
        intro gap
        rw [not_isBare_of_isGap gap] at bare
        cases bare
      · rintro rfl
        exact absurd bare (by decide)

theorem WellWritten.solid (wellWritten : element.WellWritten) :
    element.source.head?.any (!·.isGap) = true := by
  obtain ⟨c, rest, same, noGap, -⟩ := wellWritten.exists_first
  simp [same, noGap]

/-- A comma or a bracket ends an element. -/
theorem ends_of_spaced (element : ArrayElement) {mark rest : Text} {tokens : List Text}
    (solid : mark.head?.any (!·.isGap) = true) (isMark : mark.head?.all (!isBare ·) = true)
    (spaced : Spaced (mark :: tokens) after rest) : element.Ends after := by
  cases element with
  | quoted written => trivial
  | bare written =>
      refine spaced.stops solid (fun _ => not_isBare_of_isGap) fun c first => ?_
      rw [first] at isMark
      simpa using isMark

/-- An element and the mark behind it. -/
theorem read?_of_spaced (wellWritten : element.WellWritten) (mark : CodePoint) {rest : Text}
    (solid : mark.isGap = false) (isMark : isBare mark = false)
    (spaced : Spaced [element.source, [mark]] s rest) :
    ∃ after, read? s.skipGap = some (element, after) ∧ after.skipGap = mark :: rest := by
  obtain ⟨after, first, marked⟩ := spaced.split_first
  obtain ⟨gap, isGap, rfl⟩ := Spaced.singleton_iff.1 first
  have ends : element.Ends after :=
    element.ends_of_spaced (by simpa using solid) (by simpa using isMark) marked
  obtain ⟨gap', isGap', rfl⟩ := Spaced.singleton_iff.1 marked
  refine ⟨_, read?_eq_some_iff.2 ⟨?_, wellWritten, ends⟩, ?_⟩
  · rw [Text.skipGap_append isGap, Text.skipGap_of_stops (Text.stops_of_solid wellWritten.solid _)]
  · rw [Text.skipGap_append isGap']
    exact Text.skipGap_of_stops (Text.stops_cons.2 solid)

theorem spaced_of_read? {mark : CodePoint} {rest : Text}
    (read : read? s.skipGap = some (element, after)) (marked : after.skipGap = mark :: rest) :
    element.WellWritten ∧ Spaced [element.source, [mark]] s rest := by
  obtain ⟨whole, wellWritten, -⟩ := read?_eq_some_iff.1 read
  obtain ⟨gap, start, isGap⟩ := Text.exists_gap s
  obtain ⟨gap', behind, isGap'⟩ := Text.exists_gap after
  rw [whole] at start
  rw [marked] at behind
  refine ⟨wellWritten, Spaced.cons_iff.2 ⟨gap, after, isGap, start, ?_⟩⟩
  exact Spaced.singleton_iff.2 ⟨gap', isGap', behind⟩

/-! ## Lists of elements -/

theorem splitRest?_of_close {rest : Text} (begins : s.skipGap = CodePoint.ofChar ']' :: rest) :
    splitRest? s = if rest.skipGap.isEmpty then some [] else none := by
  rw [splitRest?]
  split
  case h_1 empty =>
    rw [begins] at empty
    cases empty
  case h_2 c more found =>
    rw [begins] at found
    cases found
    rw [if_pos rfl]

/-- What is done behind an element depends on the mark that follows. -/
theorem splitRest?_of_read {mark : CodePoint} {more : Text}
    (read : read? s.skipGap = some (element, after)) (marked : after.skipGap = mark :: more) :
    splitRest? s =
      if mark = CodePoint.ofChar ',' then (splitRest? more).map (element :: ·)
      else if mark = CodePoint.ofChar ']' ∧ more.skipGap.isEmpty then some [element]
      else none := by
  obtain ⟨whole, wellWritten, -⟩ := read?_eq_some_iff.1 read
  obtain ⟨first, run, same, -, noBracket⟩ := wellWritten.exists_first
  rw [splitRest?]
  split
  case h_1 empty =>
    rw [empty] at read
    cases read
  case h_2 c rest found =>
    rw [same, found, List.cons_append] at whole
    have noClose : c ≠ CodePoint.ofChar ']' := by rwa [(List.cons.inj whole).1]
    rw [if_neg noClose]
    split
    case h_1 failed =>
      rw [← found, read] at failed
      cases failed
    case h_2 again =>
      rw [← found, read] at again
      cases again
      split
      case h_1 ended =>
        rw [marked] at ended
        cases ended
      case h_2 next =>
        rw [marked] at next
        cases next
        rfl

theorem splitRest?_closed {tail : Text} (spaced : Spaced [Text.ofString "]"] s tail)
    (isGap : IsGap tail) : splitRest? s = some [] := by
  obtain ⟨gap, before, rfl⟩ := Spaced.singleton_iff.1 spaced
  have begins : (gap ++ (Text.ofString "]" ++ tail)).skipGap = CodePoint.ofChar ']' :: tail := by
    rw [Text.skipGap_append before]
    exact Text.skipGap_of_stops (Text.stops_cons.2 (by decide))
  rw [splitRest?_of_close begins, if_pos (Text.isEmpty_skipGap_iff.2 isGap)]

theorem splitRest?_comma (wellWritten : element.WellWritten) {more : Text}
    (spaced : Spaced [element.source, Text.ofString ","] s more) :
    splitRest? s = (splitRest? more).map (element :: ·) := by
  obtain ⟨after, read, marked⟩ := read?_of_spaced wellWritten ',' (by decide) (by decide) spaced
  rw [splitRest?_of_read read marked, if_pos rfl]

theorem splitRest?_last (wellWritten : element.WellWritten) {tail : Text}
    (spaced : Spaced [element.source, Text.ofString "]"] s tail) (isGap : IsGap tail) :
    splitRest? s = some [element] := by
  obtain ⟨after, read, marked⟩ := read?_of_spaced wellWritten ']' (by decide) (by decide) spaced
  rw [splitRest?_of_read read marked, if_neg (by decide), Text.isEmpty_skipGap_iff.2 isGap]
  rfl

variable {elements : List ArrayElement}

/-- Elements that are written as a list are found again.  The induction is on the elements; the
last one decides by what stands behind it. -/
theorem splitRest?_of_spaced {comma : Bool} {tail : Text}
    (wellWritten : ∀ e ∈ elements, e.WellWritten) (allowed : comma = true → elements ≠ [])
    (spaced : Spaced (listTokens elements comma) s tail) (isGap : IsGap tail) :
    splitRest? s = some elements := by
  induction elements generalizing s with
  | nil =>
      cases comma with
      | true => exact absurd rfl (allowed rfl)
      | false => exact splitRest?_closed spaced isGap
  | cons element others ih =>
      rw [List.forall_mem_cons] at wellWritten
      obtain ⟨first, later⟩ := wellWritten
      cases others with
      | cons next others =>
          obtain ⟨more, start, rest⟩ := Spaced.append_iff.1 (show Spaced
            ([element.source, Text.ofString ","] ++ listTokens (next :: others) comma) s tail
            from spaced)
          rw [splitRest?_comma first start, ih later (fun _ => List.cons_ne_nil _ _) rest]
          rfl
      | nil =>
          cases comma with
          | false => exact splitRest?_last first spaced isGap
          | true =>
              obtain ⟨more, start, rest⟩ := Spaced.append_iff.1 (show Spaced
                ([element.source, Text.ofString ","] ++ [Text.ofString "]"]) s tail from spaced)
              rw [splitRest?_comma first start, splitRest?_closed rest isGap]
              rfl

/-- What has been split was written as a list. -/
theorem exists_of_splitRest? (split : splitRest? s = some elements) :
    ∃ comma tail, (∀ e ∈ elements, e.WellWritten) ∧ (comma = true → elements ≠ []) ∧
      Spaced (listTokens elements comma) s tail ∧ IsGap tail := by
  fun_induction splitRest? s generalizing elements with
  | case1 | case3 | case4 | case5 | case8 => cases split
  | case2 s rest empty begins =>
      cases split
      obtain ⟨gap, whole, isGap⟩ := Text.exists_gap s
      rw [begins] at whole
      exact ⟨false, rest, fun e member => (by cases member), fun never => (by cases never),
        Spaced.singleton_iff.2 ⟨gap, isGap, whole⟩, Text.isEmpty_skipGap_iff.1 empty⟩
  | case6 s c rest begins _ element after read more marked _ ih =>
      obtain ⟨others, later, rfl⟩ := Option.map_eq_some_iff.1 split
      rw [← begins] at read
      obtain ⟨first, start⟩ := spaced_of_read? read marked
      obtain ⟨comma, tail, wellWritten, allowed, spaced, isGap⟩ := ih later
      have all := List.forall_mem_cons.2 ⟨first, wellWritten⟩
      cases others with
      | cons next others =>
          exact ⟨comma, tail, all, fun _ => List.cons_ne_nil _ _, start.append spaced, isGap⟩
      | nil =>
          -- the comma that has been read is the one behind the last element
          cases comma with
          | true => exact absurd rfl (allowed rfl)
          | false =>
              exact ⟨true, tail, all, fun _ => List.cons_ne_nil _ _, start.append spaced, isGap⟩
  | case7 s c rest begins _ element after read d more marked _ _ closes =>
      cases split
      rw [← begins] at read
      rw [closes.1] at marked
      obtain ⟨first, start⟩ := spaced_of_read? read marked
      exact ⟨false, more, List.forall_mem_singleton.2 first, fun never => (by cases never), start,
        Text.isEmpty_skipGap_iff.1 closes.2⟩

/-- **A text is cut into elements exactly when it is an array literal of them**, with a gap behind
it or without. -/
theorem split?_eq_some_iff :
    split? s = some elements ↔
      ∃ comma tail, (∀ e ∈ elements, e.WellWritten) ∧ (comma = true → elements ≠ []) ∧
        Spaced (tokens elements comma) s tail ∧ IsGap tail := by
  constructor
  · intro split
    obtain ⟨gap, start, isGap⟩ := Text.exists_gap s
    cases begins : s.skipGap with
    | nil =>
        simp only [split?, begins] at split
        cases split
    | cons c rest =>
        simp only [split?, begins, Option.ite_none_right_eq_some] at split
        obtain ⟨rfl, split⟩ := split
        obtain ⟨comma, tail, wellWritten, allowed, spaced, atEnd⟩ := exists_of_splitRest? split
        rw [begins] at start
        exact ⟨comma, tail, wellWritten, allowed,
          Spaced.cons_iff.2 ⟨gap, rest, isGap, start, spaced⟩, atEnd⟩
  · rintro ⟨comma, tail, wellWritten, allowed, spaced, atEnd⟩
    obtain ⟨gap, rest, isGap, rfl, list⟩ := Spaced.cons_iff.1 spaced
    have begins : (gap ++ (Text.ofString "[" ++ rest)).skipGap = CodePoint.ofChar '[' :: rest := by
      rw [Text.skipGap_append isGap]
      exact Text.skipGap_of_stops (Text.stops_cons.2 (by decide))
    simp only [split?, begins, if_true]
    exact splitRest?_of_spaced wellWritten allowed list atEnd

/-- A text with bare ends has no gap behind its closing bracket. -/
theorem split?_trim_eq_some_iff {text : Text} :
    split? text.trim = some elements ↔
      ∃ comma, (∀ e ∈ elements, e.WellWritten) ∧ (comma = true → elements ≠ []) ∧
        Spaced (tokens elements comma) text.trim [] := by
  rw [split?_eq_some_iff]
  refine exists_congr fun comma => ?_
  constructor
  · rintro ⟨tail, wellWritten, allowed, spaced, isGap⟩
    obtain ⟨taken, whole, -⟩ := spaced.exists_taken
    have bare := Text.bareEnds_trim text
    rw [whole] at bare
    cases bare.eq_nil_of_isGap isGap
    exact ⟨wellWritten, allowed, spaced⟩
  · rintro ⟨wellWritten, allowed, spaced⟩
    exact ⟨[], wellWritten, allowed, spaced, Text.isGap_nil⟩

end ArrayElement

/-! ## Values -/

namespace Value

variable {type : Primitive}

theorem element_eq_ok_iff {e : ArrayElement} {value : Text} :
    element type e = .ok value ↔
      ((∃ source, e = .quoted source) → type.isString = true) ∧
        primitive type e.source = .ok value := by
  cases e with
  | bare source => exact (and_iff_right fun ⟨_, same⟩ => by cases same).symm
  | quoted source =>
      rw [element]
      by_cases isString : type.isString = true
      · rw [if_pos isString]
        exact (and_iff_right fun _ => isString).symm
      · rw [if_neg isString]
        exact ⟨fun read => (by cases read), fun ⟨only, _⟩ => absurd (only ⟨source, rfl⟩) isString⟩

theorem array_eq_ok_iff {text : Text} {values : List Text} :
    array type text = .ok values ↔
      ∃ elements, ArrayElement.split? text.trim = some elements ∧
        List.Forall₂ (fun e value => element type e = .ok value) elements values := by
  rw [array]
  cases ArrayElement.split? text.trim with
  | none =>
      refine ⟨fun read => (by cases read), ?_⟩
      rintro ⟨elements, same, -⟩
      cases same
  | some found => simp only [Option.some.injEq, exists_eq_left', Outcome.mapM_eq_ok_iff]

/-- **The values of an array are read exactly from an array literal**: each element is a value of
the element type by itself, in the order of the source, and only elements of string types are
quoted. -/
theorem array_grammar (type : Primitive) (text : Text) (values : List Text) :
    array type text = .ok values ↔
      ∃ (elements : List ArrayElement) (comma : Bool),
        (∀ e ∈ elements, e.WellWritten) ∧ (comma = true → elements ≠ []) ∧
        Spaced (ArrayElement.tokens elements comma) text.trim [] ∧
        (∀ source, .quoted source ∈ elements → type.isString = true) ∧
        List.Forall₂ (fun e value => primitive type e.source = .ok value) elements values := by
  simp only [array_eq_ok_iff, ArrayElement.split?_trim_eq_some_iff, element_eq_ok_iff,
    List.forall₂_and_left]
  constructor
  · rintro ⟨elements, ⟨comma, wellWritten, allowed, spaced⟩, quoted, read⟩
    exact ⟨elements, comma, wellWritten, allowed, spaced,
      fun source member => quoted _ member ⟨source, rfl⟩, read⟩
  · rintro ⟨elements, comma, wellWritten, allowed, spaced, quoted, read⟩
    refine ⟨elements, ⟨comma, wellWritten, allowed, spaced⟩, ?_, read⟩
    rintro e member ⟨source, rfl⟩
    exact quoted source member

/-- Commas and brackets of a quoted element are its own, and one comma may stand behind the last
element. -/
example : array (.string ⟨false, none⟩) "[ 'a,]' ,\tb# , ]" = .ok [("a,]" : Text), "b#"] := by
  cbv

end Value

end RosInterface
