/-
# RosInterface.Value.Array -- array literals

An array literal is a list of elements in square brackets, with commas between
them and at most one comma after the last.  Gaps are free between the tokens.  An
element is a quoted literal on one line, or a run of code points that holds no
white space, comma, bracket or quote.  `ArrayElement.split?` cuts a literal into
its elements; `Value.array` reads each of them, and quotes are for strings only.

`Value.forType` reads the value of any type, single or not, and checks that an
array has exactly as many elements as its type says and a bounded sequence no
more.
-/
import RosInterface.Value.Primitive
import RosInterface.Text.Line

set_option autoImplicit false

namespace RosInterface

/-- An element as it is written, quotes included. -/
inductive ArrayElement where
  | quoted (source : Text)
  | bare (source : Text)
  deriving DecidableEq

namespace ArrayElement

def source : ArrayElement → Text
  | .quoted s => s
  | .bare s => s

/-- A code point that an element without quotes may hold. -/
def isBare (c : CodePoint) : Bool :=
  !(c.isSpace || c = ',' || c = '[' || c = ']' || c.isQuote)

/-- The element at the beginning of a text, as long as possible, and the rest. -/
def read? : Text → Option (ArrayElement × Text)
  | [] => none
  | c :: rest =>
      if c.isQuote then
        match Text.untilQuote c rest with
        | none => none
        | some (body, after) =>
            if body.contains CodePoint.newline then none
            else some (.quoted (c :: (body ++ [c])), after)
      else if isBare c then
        some (.bare (c :: rest.takeWhile isBare), rest.dropWhile isBare)
      else none

end ArrayElement

theorem Text.untilQuote_length {quote : CodePoint} {s body after : Text}
    (h : untilQuote quote s = some (body, after)) : after.length < s.length := by
  fun_induction untilQuote quote s generalizing body after <;> try simp_all
  all_goals
    rename_i ih
    obtain ⟨inner, found, -⟩ := h
    have := ih found
    omega

theorem Text.length_skipGap_le (s : Text) : s.skipGap.length ≤ s.length :=
  (List.dropWhile_sublist _).length_le

namespace ArrayElement

theorem length_lt_of_read? {s after : Text} {element : ArrayElement}
    (h : read? s = some (element, after)) : after.length < s.length := by
  cases s with
  | nil => simp [read?] at h
  | cons c rest =>
      simp only [read?] at h
      split at h
      · split at h
        · simp at h
        · rename_i found
          have := Text.untilQuote_length found
          split at h
          · simp at h
          · simp only [Option.some.injEq, Prod.mk.injEq] at h
            simp only [List.length_cons, ← h.2]
            omega
      · split at h
        · simp only [Option.some.injEq, Prod.mk.injEq] at h
          have := (List.dropWhile_sublist (l := rest) isBare).length_le
          simp only [List.length_cons, ← h.2]
          omega
        · simp at h

/-- The elements up to the closing bracket, which ends the text.  The opening
bracket or a comma has been read. -/
def splitRest? (s : Text) : Option (List ArrayElement) :=
  match hs : s.skipGap with
  | [] => none
  | c :: rest =>
      if c = ']' then if (Text.skipGap rest).isEmpty then some [] else none
      else
        match hr : read? (c :: rest) with
        | none => none
        | some (element, after) =>
            match ha : after.skipGap with
            | [] => none
            | d :: more =>
                have shorter : more.length < s.length := by
                  have h₁ := s.length_skipGap_le
                  have h₂ := length_lt_of_read? hr
                  have h₃ := after.length_skipGap_le
                  rw [hs] at h₁
                  rw [ha] at h₃
                  simp only [List.length_cons] at *
                  omega
                if d = ',' then (splitRest? more).map (element :: ·)
                else if d = ']' ∧ (Text.skipGap more).isEmpty then some [element]
                else none
  termination_by s.length

/-- The elements of an array literal. -/
def split? (s : Text) : Option (List ArrayElement) :=
  match s.skipGap with
  | [] => none
  | c :: rest => if c = '[' then splitRest? rest else none

end ArrayElement

namespace Value

/-- The canonical text of an element. -/
def element (type : Primitive) : ArrayElement → Outcome Text
  | .quoted source =>
      if type.isString then primitive type source
      else .refuse source (.single (.primitive type)) none
  | .bare source => primitive type source

/-- The canonical texts of the elements of an array literal. -/
def array (type : Primitive) (text : Text) : Outcome (List Text) :=
  match ArrayElement.split? text.trim with
  | none => .refuse text (.sequence (.primitive type)) (some .notAnArray)
  | some elements => elements.mapM (element type)

/-- Whether a number of elements suits a type. -/
def checkCount (type : FieldType) (text : Text) (count : Nat) : Outcome Unit :=
  match type with
  | .array _ size =>
      if count = size then .ok () else .refuse text type (some (.wrongCount size count))
  | .boundedSequence _ capacity =>
      if count ≤ capacity then .ok () else .refuse text type (some (.tooMany capacity count))
  | _ => .ok ()

/-- The canonical values that a text spells for a type. -/
def forType (type : FieldType) (text : Text) : Outcome (List Text) :=
  match type.element with
  | .primitive element =>
      if type.isSingle then (primitive element text).map ([·])
      else do
        let values ← array element text
        checkCount type text values.length
        return values
  | _ => .fault (.structural (.defaultOfOther type))

end Value

end RosInterface
