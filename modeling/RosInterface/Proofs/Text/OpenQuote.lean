/-
# RosInterface.Proofs.Text.OpenQuote -- quotes that are never closed

The search for a comment follows quotes from the beginning of a line.  A text is *closed*
(`Text.Closed`) when it leaves that search where it began, outside quotes: code points that are
no quotes, and whole literals.  Every other text is closed up to one quote that nothing behind
it closes (`Text.closed_or_open`).

What follows a closed text is searched as if it stood alone
(`Text.Closed.uncommented_append`), so a comment behind it is found.  Behind an open quote none
is: `Text.exists_uncommented_open` says that the hash, and the gap before it, are kept.
-/
import RosInterface.Proofs.Text.Quoting
import RosInterface.Value.Array

set_option autoImplicit false

namespace RosInterface.Text

open CodePoint (backslash)

variable {s t : Text} {quote : CodePoint}

/-! ## Closed texts -/

/-- Outside literals no code point is a quote, and every literal has its closing quote. -/
inductive Closed : Text → Prop
  | nil : Closed []
  | bare {c : CodePoint} {rest : Text} (plain : c.isQuote = false) (tail : Closed rest) :
      Closed (c :: rest)
  | literal {quote : CodePoint} {body rest : Text} (isQuote : quote.isQuote = true)
      (guarded : Guarded quote body) (tail : Closed rest) :
      Closed (quote :: (body ++ quote :: rest))

theorem Closed.append (first : Closed s) (second : Closed t) : Closed (s ++ t) := by
  induction first with
  | nil => exact second
  | bare plain _ ih => exact .bare plain ih
  | @literal quote body rest isQuote guarded _ ih =>
      have whole := Closed.literal isQuote guarded ih
      simpa using whole

theorem Closed.of_forall (plain : ∀ c ∈ s, c.isQuote = false) : Closed s := by
  induction s with
  | nil => exact .nil
  | cons c rest ih =>
      rw [List.forall_mem_cons] at plain
      exact .bare plain.1 (ih plain.2)

/-- A literal, quotes included. -/
theorem Closed.single {body : Text} (isQuote : quote.isQuote = true)
    (guarded : Guarded quote body) : Closed (quote :: (body ++ [quote])) :=
  .literal isQuote guarded .nil

/-- A quote in the text is never closed. -/
def Open (s : Text) : Prop :=
  ∃ before quote after, s = before ++ quote :: after ∧ Closed before ∧ quote.isQuote = true ∧
    untilQuote quote after = none

theorem Open.behind (first : Closed s) (second : Open t) : Open (s ++ t) := by
  obtain ⟨before, quote, after, rfl, closed, isQuote, unclosed⟩ := second
  exact ⟨s ++ before, quote, after, by simp, first.append closed, isQuote, unclosed⟩

/-- Induction on the length: behind a literal the text is shorter. -/
theorem closed_or_open (s : Text) : Closed s ∨ Open s := by
  induction length : s.length using Nat.strong_induction_on generalizing s with
  | _ n ih =>
    cases s with
    | nil => exact .inl .nil
    | cons c rest =>
        rw [List.length_cons] at length
        cases isQuote : c.isQuote with
        | false =>
            have alone : Closed [c] := .bare isQuote .nil
            rcases ih rest.length (by omega) rest rfl with closed | open_
            · exact .inl (alone.append closed)
            · exact .inr (open_.behind alone)
        | true =>
            cases read : untilQuote c rest with
            | none => exact .inr ⟨[], c, rest, rfl, .nil, isQuote, read⟩
            | some parts =>
                obtain ⟨body, after⟩ := parts
                have shorter := untilQuote_length read
                obtain ⟨rfl, guarded⟩ := (untilQuote_eq_some_iff isQuote).1 read
                have literal := Closed.single isQuote guarded
                rcases ih after.length (by omega) after rfl with closed | open_
                · exact .inl (.literal isQuote guarded closed)
                · have whole := open_.behind literal
                  exact .inr (by simpa using whole)

/-! ## Comments -/

theorem uncommented_prefix (quote : Option CodePoint) (s : Text) : uncommented quote s <+: s := by
  fun_induction uncommented quote s with
  | case1 => exact List.prefix_rfl
  | case2 => exact List.nil_prefix
  | case3 c rest _ _ ih => exact List.cons_prefix_cons.2 ⟨rfl, ih⟩
  | case4 c rest _ _ ih => exact List.cons_prefix_cons.2 ⟨rfl, ih⟩
  | case5 => exact List.prefix_rfl
  | case6 quote d more ih =>
      exact List.cons_prefix_cons.2 ⟨rfl, List.cons_prefix_cons.2 ⟨rfl, ih⟩⟩
  | case7 quote rest _ ih => exact List.cons_prefix_cons.2 ⟨rfl, ih⟩
  | case8 c rest quote _ _ ih => exact List.cons_prefix_cons.2 ⟨rfl, ih⟩

/-- **Behind a closed text the search goes on as it began**, where no comment begins in it. -/
theorem Closed.uncommented_append (closed : Closed s)
    (kept : (s ++ t).withoutComment = s ++ t) (rest : Text) :
    uncommented none (s ++ rest) = s ++ uncommented none rest := by
  induction closed with
  | nil => rfl
  | @bare c more plain _ ih =>
      have noHash : c ≠ CodePoint.ofChar '#' := by
        rintro rfl
        rw [withoutComment, List.cons_append, uncommented.eq_def] at kept
        simp at kept
      rw [withoutComment, List.cons_append, uncommented_bare plain noHash, List.cons.injEq] at kept
      rw [List.cons_append, uncommented_bare plain noHash, ih kept.2, List.cons_append]
  | @literal quote body more isQuote guarded _ ih =>
      have shape (tail : Text) : quote :: (body ++ quote :: more) ++ tail =
          quote :: (body ++ [quote]) ++ (more ++ tail) := by simp
      rw [withoutComment, shape, uncommented_literal isQuote guarded] at kept
      rw [shape, uncommented_literal isQuote guarded, ih (List.append_cancel_left kept)]
      simp

theorem withoutComment_gap {gap : Text} (isGap : IsGap gap) (comment : Text) :
    (gap ++ CodePoint.ofChar '#' :: comment).withoutComment = gap := by
  have plain : ∀ c ∈ gap, c.isQuote = false ∧ c ≠ CodePoint.ofChar '#' := by
    intro c member
    have isGap := isGap c member
    constructor
    · rw [Bool.eq_false_iff]
      intro isQuote
      rcases CodePoint.isQuote_iff.1 isQuote with rfl | rfl <;> exact absurd isGap (by decide)
    · rintro rfl
      exact absurd isGap (by decide)
  have hash : uncommented none (CodePoint.ofChar '#' :: comment) = [] := by
    rw [uncommented.eq_def]
    rfl
  rw [withoutComment, uncommented_append_bare plain, hash, List.append_nil]

/-- Behind a closed line a comment is found. -/
theorem Closed.withoutComment_append {gap : Text} (closed : Closed s)
    (kept : s.withoutComment = s) (isGap : IsGap gap) (comment : Text) :
    (s ++ (gap ++ CodePoint.ofChar '#' :: comment)).withoutComment = s ++ gap := by
  have found := withoutComment_gap isGap comment
  rw [withoutComment] at found ⊢
  rw [closed.uncommented_append (t := []) (by simpa using kept), found]

/-- Behind an open quote a code point that is neither the quote nor a backslash is kept,
whether a backslash guards it or not. -/
theorem uncommented_open_append (unclosed : untilQuote quote s = none) {c : CodePoint}
    (ne : c ≠ quote) (bare : c ≠ backslash) (rest : Text) :
    uncommented (some quote) (s ++ c :: rest) = s ++ c :: uncommented (some quote) rest := by
  fun_induction untilQuote quote s with
  | case1 => exact uncommented_plain ne bare rest
  | case2 => cases unclosed
  | case3 => exact uncommented_escape quote c rest
  | case4 different d more ih =>
      rw [List.cons_append, List.cons_append, uncommented_escape,
        ih (Option.map_eq_none_iff.1 unclosed)]
      rfl
  | case5 d more different plain ih =>
      rw [List.cons_append, uncommented_plain different plain,
        ih (Option.map_eq_none_iff.1 unclosed)]
      rfl

/-- **Behind an open quote no comment is found.** -/
theorem exists_uncommented_open {gap : Text} (isQuote : quote.isQuote = true)
    (unclosed : untilQuote quote s = none) (isGap : IsGap gap) (comment : Text) :
    ∃ tail, tail <+: comment ∧
      uncommented (some quote) (s ++ (gap ++ CodePoint.ofChar '#' :: comment)) =
        s ++ (gap ++ CodePoint.ofChar '#' :: tail) := by
  induction gap generalizing s with
  | nil =>
      refine ⟨uncommented (some quote) comment, uncommented_prefix _ _, ?_⟩
      refine uncommented_open_append unclosed ?_ (by decide) comment
      rcases CodePoint.isQuote_iff.1 isQuote with rfl | rfl <;> decide
  | cons c gap ih =>
      rw [IsGap, List.forall_mem_cons] at isGap
      have outside : c ≠ quote ∧ c ≠ backslash := by
        constructor
        · rintro rfl
          rcases CodePoint.isQuote_iff.1 isQuote with rfl | rfl <;> exact absurd isGap.1 (by decide)
        · rintro rfl
          exact absurd isGap.1 (by decide)
      obtain ⟨tail, begins, later⟩ := ih (s := []) rfl isGap.2
      refine ⟨tail, begins, ?_⟩
      rw [List.cons_append, uncommented_open_append unclosed outside.1 outside.2]
      exact congrArg (s ++ c :: ·) later

/-- The same for a line with an open quote. -/
theorem Open.exists_withoutComment {line gap : Text} (open_ : Open line)
    (kept : line.withoutComment = line) (isGap : IsGap gap) (comment : Text) :
    ∃ tail, tail <+: comment ∧
      (line ++ (gap ++ CodePoint.ofChar '#' :: comment)).withoutComment =
        line ++ (gap ++ CodePoint.ofChar '#' :: tail) := by
  obtain ⟨before, quote, after, rfl, closed, isQuote, unclosed⟩ := open_
  obtain ⟨tail, begins, later⟩ := exists_uncommented_open isQuote unclosed isGap comment
  refine ⟨tail, begins, ?_⟩
  rw [withoutComment, List.append_assoc, closed.uncommented_append kept, List.cons_append,
    uncommented_open isQuote, later]
  simp

end RosInterface.Text
