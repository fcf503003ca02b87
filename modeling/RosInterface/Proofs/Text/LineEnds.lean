/-
# RosInterface.Proofs.Text.LineEnds -- line ends of texts that are put together

A text is given one kind of line end before it is cut into lines, and the last line is
closed.  What comes out holds no carriage return and ends in a newline
(`Text.exists_normalNewlines`), so the lines of two such texts, one behind the other, are the
lines of both (`Text.lines_append_closed`).  `Text.exists_normalNewlines_append` says what becomes
of a text that is put together from two with a newline between them: the first one is closed
already where it ends in a carriage return, since that and the newline are one line end.
-/
import RosInterface.Proofs.Definition.Lines

set_option autoImplicit false

namespace RosInterface.Text

open CodePoint (newline carriageReturn)

variable {s t : Text} {c : CodePoint}

/-! ## One kind of line end -/

theorem unifyNewlines_of_ne_cons (other : c ≠ carriageReturn) (rest : Text) :
    unifyNewlines (c :: rest) = c :: unifyNewlines rest := by
  rw [unifyNewlines.eq_def]
  simp only [if_neg other]

theorem unifyNewlines_return_newline (rest : Text) :
    unifyNewlines (carriageReturn :: newline :: rest) = newline :: unifyNewlines rest := by
  rw [unifyNewlines.eq_def]
  simp

theorem unifyNewlines_return (other : t.head? ≠ some newline) :
    unifyNewlines (carriageReturn :: t) = newline :: unifyNewlines t := by
  cases t with
  | nil => rfl
  | cons d rest =>
      have different : d ≠ newline := by simpa using other
      rw [unifyNewlines.eq_def]
      simp [different]

theorem not_mem_unifyNewlines (s : Text) : carriageReturn ∉ s.unifyNewlines := by
  have apart : carriageReturn ≠ newline := by decide
  fun_induction unifyNewlines s with
  | case1 => exact List.not_mem_nil
  | case2 => simpa using apart
  | case3 more ih => simpa [apart] using ih
  | case4 d more _ ih => simpa [apart] using ih
  | case5 c rest other ih => simpa [Ne.symm other] using ih

/-- Besides line ends, a text and its lines hold the same code points. -/
theorem mem_unifyNewlines_iff (inside : c ≠ carriageReturn) (other : c ≠ newline) :
    c ∈ s.unifyNewlines ↔ c ∈ s := by
  fun_induction unifyNewlines s with
  | case1 => simp
  | case2 => simp [inside, other]
  | case3 more ih => simpa [inside, other] using ih
  | case4 d more _ ih => simpa [inside, other] using ih
  | case5 d rest _ ih => simp [ih]

/-- A newline begins a line end of its own, unless a carriage return stands before it. -/
theorem unifyNewlines_append_newline (s t : Text) :
    unifyNewlines (s ++ newline :: t) =
      if s.getLast? = some carriageReturn then s.unifyNewlines ++ t.unifyNewlines
      else s.unifyNewlines ++ newline :: t.unifyNewlines := by
  have apart : newline ≠ carriageReturn := by decide
  fun_induction unifyNewlines s with
  | case1 => exact unifyNewlines_of_ne_cons apart t
  | case2 => simpa using unifyNewlines_return_newline t
  | case3 more ih =>
      have last : (carriageReturn :: newline :: more).getLast? = some carriageReturn ↔
          more.getLast? = some carriageReturn := by
        cases more with
        | nil => simp [apart]
        | cons d rest => simp [List.getLast?_cons_cons]
      rw [List.cons_append, List.cons_append, unifyNewlines_return_newline, ih]
      simp only [last]
      split <;> rfl
  | case4 d more different ih =>
      have stands : (d :: more ++ newline :: t).head? ≠ some newline := by simpa using different
      rw [List.cons_append, unifyNewlines_return stands, ih, List.getLast?_cons_cons]
      split <;> rfl
  | case5 c rest other ih =>
      have last : (c :: rest).getLast? = some carriageReturn ↔
          rest.getLast? = some carriageReturn := by
        cases rest with
        | nil => simp [other]
        | cons d more => simp [List.getLast?_cons_cons]
      rw [List.cons_append, unifyNewlines_of_ne_cons other, ih]
      simp only [last]
      split <;> rfl

/-- A carriage return at the end is a line end. -/
theorem unifyNewlines_concat_return (s : Text) :
    unifyNewlines (s ++ [carriageReturn]) = s.unifyNewlines ++ [newline] := by
  fun_induction unifyNewlines s with
  | case1 => rfl
  | case2 => rfl
  | case3 more ih => rw [List.cons_append, List.cons_append, unifyNewlines_return_newline, ih]; rfl
  | case4 d more different ih =>
      have stands : (d :: more ++ [carriageReturn]).head? ≠ some newline := by simpa using different
      rw [List.cons_append, unifyNewlines_return stands, ih, List.cons_append]
  | case5 c rest other ih =>
      rw [List.cons_append, unifyNewlines_of_ne_cons other, ih, List.cons_append]

/-! ## The last line -/

/-- A text of one kind of line end is some text without carriage returns, and a newline. -/
theorem exists_normalNewlines (s : Text) :
    ∃ body, s.normalNewlines = body ++ [newline] ∧ carriageReturn ∉ body := by
  have free := not_mem_unifyNewlines s
  rw [normalNewlines, terminated]
  split
  case isTrue last =>
    obtain ⟨body, whole⟩ := List.getLast?_eq_some_iff.1 last
    rw [whole] at free ⊢
    exact ⟨body, rfl, fun member => free (List.mem_append_left _ member)⟩
  case isFalse => exact ⟨s.unifyNewlines, rfl, free⟩

/-- **What becomes of a text that is put together from two.**  The first one may have closed its
last line already; then the newline is the end of an empty line, or belongs to the line end that
is there.  The second one is closed unless there is nothing in it. -/
theorem exists_normalNewlines_append (s t : Text) :
    ∃ empty, (empty = [] ∨ empty = [newline]) ∧
      (s ++ newline :: t).normalNewlines =
        s.normalNewlines ++ (empty ++ Section.closed t.unifyNewlines) := by
  rw [normalNewlines, unifyNewlines_append_newline]
  split
  case isTrue last =>
    obtain ⟨front, rfl⟩ := List.getLast?_eq_some_iff.1 last
    have closed : (unifyNewlines (front ++ [carriageReturn])).getLast? = some newline := by
      rw [unifyNewlines_concat_return, List.getLast?_concat]
    refine ⟨[], .inl rfl, ?_⟩
    rw [Section.terminated_append _ closed, normalNewlines, terminated, if_pos closed]
    rfl
  case isFalse =>
    have closed : (s.unifyNewlines ++ [newline]).getLast? = some newline := List.getLast?_concat
    have whole := Section.terminated_append _ closed (t := t.unifyNewlines)
    rw [List.append_assoc, List.singleton_append] at whole
    rw [whole, normalNewlines, terminated]
    split
    case isTrue => exact ⟨[newline], .inr rfl, by simp⟩
    case isFalse => exact ⟨[], .inl rfl, rfl⟩

/-! ## Lines -/

theorem lines_boundary (boundary : c.isLineBoundary = true) (other : c ≠ carriageReturn)
    (rest : Text) : lines (c :: rest) = [] :: lines rest := by
  rw [lines.eq_def]
  cases rest <;> simp [boundary, other, lines]

theorem lines_inside (inside : c.isLineBoundary = false) {line : Text} {more : List Text}
    (rest : lines t = line :: more) : lines (c :: t) = (c :: line) :: more := by
  rw [lines.eq_def]
  simp [inside, rest]

theorem exists_lines (some_ : t ≠ []) : ∃ line more, lines t = line :: more := by
  fun_cases lines t with
  | case1 => exact absurd rfl some_
  | _ => exact ⟨_, _, rfl⟩

/-- A closed text has its lines to itself. -/
theorem lines_append_closed {body : Text} (free : carriageReturn ∉ body) (rest : Text) :
    lines (body ++ newline :: rest) = lines (body ++ [newline]) ++ lines rest := by
  induction body with
  | nil => exact lines_newline rest
  | cons c body ih =>
      rw [List.mem_cons, not_or] at free
      have later := ih free.2
      rw [List.cons_append, List.cons_append]
      cases boundary : c.isLineBoundary with
      | true =>
          rw [lines_boundary boundary (Ne.symm free.1), lines_boundary boundary (Ne.symm free.1),
            later]
          rfl
      | false =>
          obtain ⟨line, more, own⟩ := exists_lines (t := body ++ [newline]) (by simp)
          rw [own] at later
          rw [lines_inside boundary later, lines_inside boundary own]
          rfl

end RosInterface.Text
