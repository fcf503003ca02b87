/-
# RosInterface.Proofs.Text.Literal -- texts between quotes

A text stands between quotes when none of its quotes is bare and each backslash guards the code
point after it (`Text.Guarded`).  Two readers agree on this language: the one that looks for the
closing quote takes exactly a guarded text (`untilQuote_eq_some_iff`), and the one that looks for
a comment passes over it (`uncommented_guarded`).

A *literal* is a quote, such a text and the quote again (`Text.IsLiteral`).  A literal of an array
stays on its line: neither a code point of its body nor one behind a backslash is a newline
(`Text.IsLineLiteral`), so these are the literals that hold no newline at all
(`Text.isLineLiteral_iff`).  Where a literal ends is decided by what has been read of it: a text
begins with at most one (`Text.IsLiteral.eq_of_prefix`).
-/
import RosInterface.Declaration.Comment
import RosInterface.Proofs.Text.Run
import RosInterface.Text.Escape
import RosInterface.Text.Line

set_option autoImplicit false

namespace RosInterface

namespace CodePoint

theorem isQuote_iff {c : CodePoint} : c.isQuote = true ↔ c = singleQuote ∨ c = doubleQuote := by
  simp [isQuote]

theorem ne_backslash_of_isQuote {c : CodePoint} (quote : c.isQuote = true) : c ≠ backslash := by
  rcases isQuote_iff.1 quote with rfl | rfl <;> decide

end CodePoint

namespace Text

open CodePoint (backslash newline)

/-! ## Between quotes -/

/-- A text that stands between quotes: no bare quote, and every backslash guards
the code point after it. -/
inductive Guarded (quote : CodePoint) : Text → Prop where
  | nil : Guarded quote []
  | plain {c : CodePoint} {rest : Text} (ne : c ≠ quote) (bare : c ≠ backslash)
      (tail : Guarded quote rest) : Guarded quote (c :: rest)
  | escape {c : CodePoint} {rest : Text} (tail : Guarded quote rest) :
      Guarded quote (backslash :: c :: rest)

theorem Guarded.append {quote : CodePoint} {s t : Text} (first : Guarded quote s)
    (second : Guarded quote t) : Guarded quote (s ++ t) := by
  induction first with
  | nil => exact second
  | plain ne bare _ ih => exact .plain ne bare ih
  | escape _ ih => exact .escape ih

theorem Guarded.of_forall {quote : CodePoint} {s : Text}
    (plain : ∀ c ∈ s, c ≠ quote ∧ c ≠ backslash) : Guarded quote s := by
  induction s with
  | nil => exact .nil
  | cons c s ih =>
      obtain ⟨ne, bare⟩ := plain c (by simp)
      exact .plain ne bare (ih fun d member => plain d (List.mem_cons_of_mem _ member))

theorem untilQuote_quote (quote : CodePoint) (rest : Text) :
    untilQuote quote (quote :: rest) = some ([], rest) := by
  rw [untilQuote.eq_def]
  simp

theorem untilQuote_plain {quote c : CodePoint} (ne : c ≠ quote) (bare : c ≠ backslash)
    (rest : Text) :
    untilQuote quote (c :: rest) =
      (untilQuote quote rest).map fun (body, after) => (c :: body, after) := by
  rw [untilQuote.eq_def]
  simp [ne, bare]

theorem untilQuote_escape {quote : CodePoint} (ne : quote ≠ backslash) (c : CodePoint)
    (rest : Text) :
    untilQuote quote (backslash :: c :: rest) =
      (untilQuote quote rest).map fun (body, after) => (backslash :: c :: body, after) := by
  rw [untilQuote.eq_def]
  simp [ne.symm]

/-- **A literal ends at its first unguarded quote.** -/
theorem untilQuote_eq_some_iff {quote : CodePoint} (isQuote : quote.isQuote = true)
    {s body after : Text} :
    untilQuote quote s = some (body, after) ↔ s = body ++ quote :: after ∧ Guarded quote body := by
  have ne := CodePoint.ne_backslash_of_isQuote isQuote
  constructor
  · intro read
    fun_induction untilQuote quote s generalizing body after with
    | case1 => cases read
    | case2 rest =>
        cases read
        exact ⟨rfl, .nil⟩
    | case3 => cases read
    | case4 different d more ih =>
        obtain ⟨⟨inner, after'⟩, found, whole⟩ := Option.map_eq_some_iff.1 read
        cases whole
        obtain ⟨rfl, guarded⟩ := ih found
        exact ⟨rfl, .escape guarded⟩
    | case5 c rest different bare ih =>
        obtain ⟨⟨inner, after'⟩, found, whole⟩ := Option.map_eq_some_iff.1 read
        cases whole
        obtain ⟨rfl, guarded⟩ := ih found
        exact ⟨rfl, .plain different bare guarded⟩
  · rintro ⟨rfl, guarded⟩
    induction guarded with
    | nil => exact untilQuote_quote quote after
    | plain different bare _ ih => rw [List.cons_append, untilQuote_plain different bare, ih]; rfl
    | escape _ ih =>
        rw [List.cons_append, List.cons_append, untilQuote_escape ne, ih]
        rfl

/-! ## Comments -/

theorem uncommented_bare {c : CodePoint} (bare : c.isQuote = false)
    (noHash : c ≠ CodePoint.ofChar '#') (rest : Text) :
    uncommented none (c :: rest) = c :: uncommented none rest := by
  rw [uncommented.eq_def]
  simp [bare, noHash]

/-- Outside quotes everything is kept up to a quote or a hash. -/
theorem uncommented_append_bare {s : Text}
    (plain : ∀ c ∈ s, c.isQuote = false ∧ c ≠ CodePoint.ofChar '#') (rest : Text) :
    uncommented none (s ++ rest) = s ++ uncommented none rest := by
  induction s with
  | nil => rfl
  | cons c s ih =>
      rw [List.forall_mem_cons] at plain
      rw [List.cons_append, uncommented_bare plain.1.1 plain.1.2, ih plain.2, List.cons_append]

theorem uncommented_open {quote : CodePoint} (isQuote : quote.isQuote = true) (rest : Text) :
    uncommented none (quote :: rest) = quote :: uncommented (some quote) rest := by
  have noHash : quote ≠ CodePoint.ofChar '#' := by
    rcases CodePoint.isQuote_iff.1 isQuote with rfl | rfl <;> decide
  rw [uncommented.eq_def]
  simp [isQuote, noHash]

theorem uncommented_close {quote : CodePoint} (ne : quote ≠ backslash) (rest : Text) :
    uncommented (some quote) (quote :: rest) = quote :: uncommented none rest := by
  rw [uncommented.eq_def]
  simp [ne]

theorem uncommented_plain {quote c : CodePoint} (ne : c ≠ quote) (bare : c ≠ backslash)
    (rest : Text) :
    uncommented (some quote) (c :: rest) = c :: uncommented (some quote) rest := by
  rw [uncommented.eq_def]
  simp [ne, bare]

theorem uncommented_escape (quote c : CodePoint) (rest : Text) :
    uncommented (some quote) (backslash :: c :: rest) =
      backslash :: c :: uncommented (some quote) rest := by
  rw [uncommented.eq_def]
  simp

theorem uncommented_guarded {quote : CodePoint} (isQuote : quote.isQuote = true) {body : Text}
    (guarded : Guarded quote body) (rest : Text) :
    uncommented (some quote) (body ++ quote :: rest) = body ++ quote :: uncommented none rest := by
  have ne := CodePoint.ne_backslash_of_isQuote isQuote
  induction guarded with
  | nil => exact uncommented_close ne rest
  | plain different bare _ ih =>
      rw [List.cons_append, uncommented_plain different bare, ih, List.cons_append]
  | escape _ ih => rw [List.cons_append, List.cons_append, uncommented_escape, ih]; rfl

/-- A literal, quotes included, is passed over by the search for a comment. -/
theorem uncommented_literal {quote : CodePoint} (isQuote : quote.isQuote = true) {body : Text}
    (guarded : Guarded quote body) (rest : Text) :
    uncommented none (quote :: (body ++ [quote]) ++ rest) =
      quote :: (body ++ [quote]) ++ uncommented none rest := by
  rw [List.cons_append, List.append_assoc, List.singleton_append, uncommented_open isQuote,
    uncommented_guarded isQuote guarded, List.cons_append, List.append_assoc,
    List.singleton_append]

/-! ## Whole literals -/

/-- A quote, a body without that quote but behind a backslash, and the quote. -/
def IsLiteral (s : Text) : Prop :=
  ∃ quote body, s = quote :: (body ++ [quote]) ∧ quote.isQuote = true ∧ Guarded quote body

/-- The text begins with a quote and is no literal. -/
def Unclosed (s : Text) : Prop :=
  (∃ quote rest, s = quote :: rest ∧ quote.isQuote = true) ∧ ¬ IsLiteral s

/-- A body on one line: no bare quote, every backslash guards a code point, and no newline is
taken, by itself or behind a backslash. -/
inductive GuardedOnLine (quote : CodePoint) : Text → Prop where
  | nil : GuardedOnLine quote []
  | plain {c : CodePoint} {rest : Text} (ne : c ≠ quote) (bare : c ≠ backslash)
      (onLine : c ≠ newline) (tail : GuardedOnLine quote rest) : GuardedOnLine quote (c :: rest)
  | escape {c : CodePoint} {rest : Text} (onLine : c ≠ newline)
      (tail : GuardedOnLine quote rest) : GuardedOnLine quote (backslash :: c :: rest)

/-- A quote, a body on one line, and the quote. -/
def IsLineLiteral (s : Text) : Prop :=
  ∃ quote body, s = quote :: (body ++ [quote]) ∧ quote.isQuote = true ∧ GuardedOnLine quote body

variable {quote : CodePoint} {q s : Text}

theorem guardedOnLine_iff : GuardedOnLine quote s ↔ Guarded quote s ∧ newline ∉ s := by
  constructor
  · intro onLine
    induction onLine with
    | nil => exact ⟨.nil, List.not_mem_nil⟩
    | plain ne bare onLine _ ih =>
        exact ⟨.plain ne bare ih.1, by simp [onLine.symm, ih.2]⟩
    | escape onLine _ ih =>
        exact ⟨.escape ih.1, by simp [onLine.symm, ih.2, show newline ≠ backslash by decide]⟩
  · rintro ⟨guarded, absent⟩
    induction guarded with
    | nil => exact .nil
    | plain ne bare _ ih =>
        rw [List.mem_cons, not_or] at absent
        exact .plain ne bare (Ne.symm absent.1) (ih absent.2)
    | escape _ ih =>
        rw [List.mem_cons, List.mem_cons, not_or, not_or] at absent
        exact .escape (Ne.symm absent.2.1) (ih absent.2.2)

theorem newline_not_mem_literal_iff (isQuote : quote.isQuote = true) {body : Text} :
    newline ∉ quote :: (body ++ [quote]) ↔ newline ∉ body := by
  have ne : newline ≠ quote := by
    rcases CodePoint.isQuote_iff.1 isQuote with rfl | rfl <;> decide
  simp [ne]

/-- **The literals of one line are those without a newline.** -/
theorem isLineLiteral_iff : IsLineLiteral s ↔ IsLiteral s ∧ newline ∉ s := by
  constructor
  · rintro ⟨quote, body, rfl, isQuote, onLine⟩
    obtain ⟨guarded, absent⟩ := guardedOnLine_iff.1 onLine
    exact ⟨⟨quote, body, rfl, isQuote, guarded⟩, (newline_not_mem_literal_iff isQuote).2 absent⟩
  · rintro ⟨⟨quote, body, rfl, isQuote, guarded⟩, absent⟩
    exact ⟨quote, body, rfl, isQuote,
      guardedOnLine_iff.2 ⟨guarded, (newline_not_mem_literal_iff isQuote).1 absent⟩⟩

namespace IsLiteral

/-- A literal begins and ends in its quote. -/
theorem bareEnds (literal : IsLiteral q) : BareEnds q := by
  obtain ⟨quote, body, rfl, isQuote, -⟩ := literal
  have noSpace : quote.isSpace = false := by
    rcases CodePoint.isQuote_iff.1 isQuote with rfl | rfl <;> decide
  refine ⟨stops_cons.2 noSpace, fun c last => ?_⟩
  rw [List.getLast?_cons, List.getLast?_append_of_ne_nil _ (List.cons_ne_nil _ _)] at last
  cases last
  exact noSpace

theorem ne_nil (literal : IsLiteral q) : q ≠ [] := by
  obtain ⟨quote, body, rfl, -⟩ := literal
  exact List.cons_ne_nil _ _

/-- The search for a comment passes over a literal. -/
theorem uncommented_append (literal : IsLiteral q) (rest : Text) :
    uncommented none (q ++ rest) = q ++ uncommented none rest := by
  obtain ⟨quote, body, rfl, isQuote, guarded⟩ := literal
  exact uncommented_literal isQuote guarded rest

/-- **A text begins with at most one literal.** -/
theorem eq_of_prefix {t rest : Text} (literal : IsLiteral q) (other : IsLiteral t)
    (begins : t <+: q ++ rest) : t = q := by
  obtain ⟨quote, body, rfl, isQuote, guarded⟩ := literal
  obtain ⟨quote', body', rfl, -, guarded'⟩ := other
  obtain ⟨more, whole⟩ := begins
  simp only [List.cons_append, List.append_assoc, List.nil_append] at whole
  obtain ⟨rfl, same⟩ := List.cons.inj whole
  have read : untilQuote quote' (body ++ quote' :: rest) = some (body, rest) :=
    (untilQuote_eq_some_iff isQuote).2 ⟨rfl, guarded⟩
  have read' : untilQuote quote' (body ++ quote' :: rest) = some (body', more) :=
    (untilQuote_eq_some_iff isQuote).2 ⟨same.symm, guarded'⟩
  rw [read, Option.some.injEq, Prod.mk.injEq] at read'
  rw [read'.1]

end IsLiteral

end Text

end RosInterface
