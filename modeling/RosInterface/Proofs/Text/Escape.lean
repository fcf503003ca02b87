/-
# RosInterface.Proofs.Text.Escape -- escapes that name no code point

Only an escape with eight hexadecimal digits can name a number past the last code
point; three octal digits and two or four hexadecimal ones are too few.  Such an
escape counts where its backslash is not itself guarded by another one
(`Text.NamesNoCodePoint`), and `Text.unescape_eq_error_iff` says that a body fails to
decode exactly when there is one.
-/
import RosInterface.Proofs.Text.Quoting

set_option autoImplicit false

namespace RosInterface.Text

open CodePoint (backslash)

/-- The escape that a backslash begins before `s` names a number past the last code
point. -/
def EscapesTooFar (s : Text) : Prop :=
  ∃ digits rest, s = CodePoint.ofChar 'U' :: (digits ++ rest) ∧ digits.length = 8 ∧
    (∀ c ∈ digits, c.isDigitOf 16 = true) ∧ 0x110000 ≤ value 16 digits

/-- An unguarded backslash of a literal's body begins such an escape. -/
def NamesNoCodePoint (quote : CodePoint) (body : Text) : Prop :=
  ∃ before s, body = before ++ backslash :: s ∧ Guarded quote before ∧ EscapesTooFar s

theorem codePointOf_eq_error_iff {n : Nat} :
    (∃ fault, codePointOf n = .error fault) ↔ 0x110000 ≤ n := by
  rw [codePointOf, CodePoint.ofNat?]
  by_cases small : n < 0x110000
  · rw [dif_pos small]
    simp only [reduceCtorEq, exists_false, false_iff, not_le]
    exact small
  · rw [dif_neg small]
    simp only [Except.error.injEq, exists_eq', true_iff]
    omega

theorem named_eq_error_iff {n : Nat} :
    (∃ fault, (codePointOf n).map ([·]) = .error fault) ↔ 0x110000 ≤ n := by
  rw [← codePointOf_eq_error_iff]
  cases codePointOf n <;> simp [Except.map]

theorem hexEscapeWidth?_U : hexEscapeWidth? (CodePoint.ofChar 'U') = some 8 := by decide

/-- Two or four hexadecimal digits are too few. -/
theorem eq_U_of_large {c : CodePoint} {width : Nat} {digits : Text}
    (isNumber : hexEscapeWidth? c = some width) (length : digits.length = width)
    (large : 0x110000 ≤ value 16 digits) : c = CodePoint.ofChar 'U' := by
  have bound := value_lt_pow (show 0 < 16 by decide) digits
  rw [length] at bound
  simp only [hexEscapeWidth?] at isNumber
  split_ifs at isNumber with x u U
  · cases isNumber
    omega
  · cases isNumber
    omega
  · exact U

/-- A letter other than `U` begins no such escape. -/
theorem not_escapesTooFar {c : CodePoint} (ne : c ≠ CodePoint.ofChar 'U') (rest : Text) :
    ¬ EscapesTooFar (c :: rest) := by
  rintro ⟨digits, more, same, -⟩
  exact ne (List.cons.inj same).1

/-- Behind its first code point an escape takes word code points only. -/
def TakesWords (rest : Text) (taken : Nat) : Prop :=
  ∃ digits more, rest = digits ++ more ∧ taken = digits.length + 1 ∧
    ∀ d ∈ digits, d.isWord = true

theorem takesWords_one (rest : Text) : TakesWords rest 1 :=
  ⟨[], rest, rfl, rfl, fun d member => by cases member⟩

section

variable {c : CodePoint} {rest : Text} {result : Except EscapeFault Text} {taken : Nat}

/-- An escape of octal digits takes them and nothing else, and names a code point. -/
theorem escape?_octal (octal : octalRun (c :: rest) ≠ [])
    (read : escape? (c :: rest) = some (result, taken)) :
    TakesWords rest taken ∧ ∃ piece, result = .ok piece := by
  simp only [escape?, if_pos octal, Option.some.injEq, Prod.mk.injEq] at read
  obtain ⟨rfl, rfl⟩ := read
  have whole : octalRun (c :: rest) <+: c :: rest :=
    (List.takeWhile_prefix _).trans (List.take_prefix _ _)
  have inside : ∀ d ∈ octalRun (c :: rest), d.isDigitOf 8 = true :=
    fun d member => List.mem_takeWhile_imp member
  have short : (octalRun (c :: rest)).length ≤ 3 :=
    (List.takeWhile_prefix _).length_le.trans (List.length_take_le _ _)
  constructor
  · obtain ⟨d, digits, shape⟩ := List.exists_cons_of_ne_nil octal
    rw [shape] at whole inside ⊢
    obtain ⟨more, split⟩ := whole
    obtain ⟨rfl, rfl⟩ := List.cons.inj split
    exact ⟨digits, more, rfl, rfl, fun e member =>
      isWord_of_isDigitOf (by decide) (inside e (List.mem_cons_of_mem _ member))⟩
  · have small : ¬ ∃ fault, codePointOf (value 8 (octalRun (c :: rest))) = .error fault := by
      rw [codePointOf_eq_error_iff]
      have bound := value_lt_pow (show 0 < 8 by decide) (octalRun (c :: rest))
      have power := Nat.pow_le_pow_right (show 0 < 8 by decide) short
      omega
    cases named : codePointOf (value 8 (octalRun (c :: rest))) with
    | ok d => exact ⟨[d], rfl⟩
    | error fault => exact absurd ⟨fault, named⟩ small

/-- An escape letter with all its digits takes them, and they name its code point. -/
theorem escape?_digits {width : Nat} (octal : octalRun (c :: rest) = [])
    (isNumber : hexEscapeWidth? c = some width) (length : (rest.take width).length = width)
    (digits : ∀ d ∈ rest.take width, d.isDigitOf 16 = true)
    (read : escape? (c :: rest) = some (result, taken)) :
    TakesWords rest taken ∧ ((∃ fault, result = .error fault) ↔ EscapesTooFar (c :: rest)) := by
  have all := And.intro length (List.all_eq_true.2 digits)
  simp only [escape?, octal, isNumber, if_pos all, ne_eq, not_true_eq_false, if_false,
    Option.some.injEq, Prod.mk.injEq] at read
  obtain ⟨rfl, rfl⟩ := read
  refine ⟨⟨rest.take width, rest.drop width, (List.take_append_drop _ _).symm, by rw [length],
    fun d member => isWord_of_isDigitOf le_rfl (digits d member)⟩, ?_⟩
  rw [named_eq_error_iff]
  constructor
  · intro large
    cases eq_U_of_large isNumber length large
    rw [hexEscapeWidth?_U] at isNumber
    cases isNumber
    exact ⟨rest.take 8, rest.drop 8, by rw [List.take_append_drop], length, digits, large⟩
  · rintro ⟨far, more, same, eight, -, large⟩
    obtain ⟨rfl, rfl⟩ := List.cons.inj same
    rw [hexEscapeWidth?_U] at isNumber
    cases isNumber
    rwa [List.take_left' eight]

/-- An escape letter that lacks digits stands for itself. -/
theorem escape?_undigited {width : Nat} (octal : octalRun (c :: rest) = [])
    (isNumber : hexEscapeWidth? c = some width)
    (short : ¬ ((rest.take width).length = width ∧
      (rest.take width).all (·.isDigitOf 16) = true))
    (read : escape? (c :: rest) = some (result, taken)) :
    taken = 1 ∧ (∃ piece, result = .ok piece) ∧ ¬ EscapesTooFar (c :: rest) := by
  simp only [escape?, octal, isNumber, if_neg short, ne_eq, not_true_eq_false, if_false,
    Option.some.injEq, Prod.mk.injEq] at read
  obtain ⟨rfl, rfl⟩ := read
  refine ⟨rfl, ⟨_, rfl⟩, ?_⟩
  rintro ⟨far, more, same, length, digits, -⟩
  obtain ⟨rfl, rfl⟩ := List.cons.inj same
  rw [hexEscapeWidth?_U] at isNumber
  cases isNumber
  rw [List.take_left' length] at short
  exact short ⟨length, List.all_eq_true.2 digits⟩

/-- Any other code point is taken alone. -/
theorem escape?_alone (octal : octalRun (c :: rest) = []) (noNumber : hexEscapeWidth? c = none)
    (read : escape? (c :: rest) = some (result, taken)) :
    taken = 1 ∧ ∃ piece, result = .ok piece := by
  cases found : letterEscapes.lookup c <;>
  · simp only [escape?, octal, noNumber, found, ne_eq, not_true_eq_false, if_false,
      Option.some.injEq, Prod.mk.injEq] at read
    exact ⟨read.2.symm, _, read.1.symm⟩

/-- **What an escape takes are word code points behind its first, and it fails exactly
when it names a number past the last code point.** -/
theorem escape?_shape (read : escape? (c :: rest) = some (result, taken)) :
    TakesWords rest taken ∧ ((∃ fault, result = .error fault) ↔ EscapesTooFar (c :: rest)) := by
  have decoded (near : ¬ EscapesTooFar (c :: rest)) (found : ∃ piece, result = .ok piece) :
      (∃ fault, result = .error fault) ↔ EscapesTooFar (c :: rest) := by
    obtain ⟨piece, rfl⟩ := found
    exact iff_of_false (fun ⟨fault, same⟩ => by cases same) near
  by_cases octal : octalRun (c :: rest) = []
  · cases isNumber : hexEscapeWidth? c with
    | some width =>
        by_cases all : (rest.take width).length = width ∧
            (rest.take width).all (·.isDigitOf 16) = true
        · exact escape?_digits octal isNumber all.1 (List.all_eq_true.1 all.2) read
        · obtain ⟨rfl, found, near⟩ := escape?_undigited octal isNumber all read
          exact ⟨takesWords_one rest, decoded near found⟩
    | none =>
        obtain ⟨rfl, found⟩ := escape?_alone octal isNumber read
        refine ⟨takesWords_one rest, decoded (not_escapesTooFar ?_ rest) found⟩
        rintro rfl
        rw [hexEscapeWidth?_U] at isNumber
        cases isNumber
  · obtain ⟨takes, found⟩ := escape?_octal octal read
    refine ⟨takes, decoded (not_escapesTooFar ?_ rest) found⟩
    rintro rfl
    exact octal (octalRun_of_not_octal (by decide) _)

end

theorem escape?_isSome (c : CodePoint) (rest : Text) : (escape? (c :: rest)).isSome = true := by
  simp only [escape?]
  split_ifs
  · rfl
  · cases hexEscapeWidth? c with
    | some width =>
        simp only
        split_ifs <;> rfl
    | none => cases letterEscapes.lookup c <;> rfl

/-- Word code points that an escape has taken are passed over, and otherwise they
stand for themselves; a fault behind them is found all the same. -/
theorem unescapeFrom_words {digits : Text} (words : ∀ d ∈ digits, d.isWord = true) (more : Text) :
    (∃ fault, unescapeFrom 0 (digits ++ more) = .error fault) ↔
      ∃ fault, unescapeFrom digits.length (digits ++ more) = .error fault := by
  rw [unescapeFrom_length_append]
  induction digits with
  | nil => rfl
  | cons d digits ih =>
      have bare : d ≠ backslash := by
        intro same
        have word := words d (by simp)
        rw [same] at word
        exact absurd word (by decide)
      rw [List.cons_append, unescapeFrom_bare bare,
        ← ih fun e member => words e (List.mem_cons_of_mem _ member)]
      cases unescapeFrom 0 (digits ++ more) <;> simp [Except.map]

/-! ## Bodies -/

section

variable {quote c : CodePoint} {rest : Text}

theorem unescapeFrom_bare_fails_iff (bare : c ≠ backslash) :
    (∃ fault, unescapeFrom 0 (c :: rest) = .error fault) ↔
      ∃ fault, unescapeFrom 0 rest = .error fault := by
  rw [unescapeFrom_bare bare]
  cases unescapeFrom 0 rest <;> simp [Except.map]

/-- An escape fails, or what is behind it does. -/
theorem unescapeFrom_escape_fails_iff :
    (∃ fault, unescapeFrom 0 (backslash :: c :: rest) = .error fault) ↔
      EscapesTooFar (c :: rest) ∨ ∃ fault, unescapeFrom 0 rest = .error fault := by
  obtain ⟨⟨result, taken⟩, read⟩ := Option.isSome_iff_exists.1 (escape?_isSome c rest)
  obtain ⟨⟨digits, more, split, reach, words⟩, fails⟩ := escape?_shape read
  rw [← fails]
  cases result with
  | error fault =>
      have failed : unescapeFrom 0 (backslash :: c :: rest) = .error fault := by
        rw [unescapeFrom, if_pos rfl, read]
      exact ⟨fun _ => .inl ⟨fault, rfl⟩, fun _ => ⟨fault, failed⟩⟩
  | ok piece =>
      rw [unescapeFrom_escape read, reach, split, unescapeFrom_words words more, or_iff_right]
      · show (∃ fault, (unescapeFrom digits.length (digits ++ more)).map _ = _) ↔ _
        cases unescapeFrom digits.length (digits ++ more) <;> simp [Except.map]
      · rintro ⟨fault, same⟩
        cases same

theorem namesNoCodePoint_bare_iff (ne : c ≠ quote) (bare : c ≠ backslash) :
    NamesNoCodePoint quote (c :: rest) ↔ NamesNoCodePoint quote rest := by
  constructor
  · rintro ⟨before, s, whole, inside, far⟩
    cases inside with
    | nil => exact absurd (List.cons.inj whole).1 bare
    | plain _ _ inside => exact ⟨_, s, (List.cons.inj whole).2, inside, far⟩
    | escape _ => exact absurd (List.cons.inj whole).1 bare
  · rintro ⟨before, s, rfl, inside, far⟩
    exact ⟨c :: before, s, rfl, .plain ne bare inside, far⟩

theorem namesNoCodePoint_escape_iff :
    NamesNoCodePoint quote (backslash :: c :: rest) ↔
      EscapesTooFar (c :: rest) ∨ NamesNoCodePoint quote rest := by
  constructor
  · rintro ⟨before, s, whole, inside, far⟩
    cases inside with
    | nil =>
        obtain ⟨-, rfl⟩ := List.cons.inj whole
        exact .inl far
    | plain _ bare _ => exact absurd (List.cons.inj whole).1.symm bare
    | escape inside =>
        obtain ⟨-, later⟩ := List.cons.inj whole
        obtain ⟨rfl, same⟩ := List.cons.inj later
        exact .inr ⟨_, s, same, inside, far⟩
  · rintro (far | ⟨before, s, rfl, inside, far⟩)
    · exact ⟨[], c :: rest, rfl, .nil, far⟩
    · exact ⟨backslash :: c :: before, s, rfl, .escape inside, far⟩

end

/-- **A body fails to decode exactly when an unguarded backslash begins an escape that
names a number past the last code point.** -/
theorem unescape_eq_error_iff {quote : CodePoint} {body : Text} (guarded : Guarded quote body) :
    (∃ fault, unescape body = .error fault) ↔ NamesNoCodePoint quote body := by
  rw [unescape]
  induction guarded with
  | nil =>
      constructor
      · rintro ⟨fault, failed⟩
        cases failed
      · rintro ⟨before, s, whole, -⟩
        simp at whole
  | plain ne bare _ ih =>
      rw [unescapeFrom_bare_fails_iff bare, namesNoCodePoint_bare_iff ne bare, ih]
  | escape _ ih => rw [unescapeFrom_escape_fails_iff, namesNoCodePoint_escape_iff, ih]

end RosInterface.Text
