/-
# RosInterface.Proofs.Text.Pieces -- the pieces of a literal

The body of a literal is a sequence of pieces (`Text.LiteralBody`).  A piece is a code point by
itself; or an escape that names one code point, by a letter, by octal or by hexadecimal digits; or
a backslash and a code point that begins no escape, and then both of them are kept.  How many
digits belong to an escape depends on what follows, so a piece is judged with the text behind it
(`Text.LiteralPiece`).

What letters and marks name is stated here without the tables of the decoder (`Text.names`,
`Text.hexLetters`).

* `LiteralBody.guarded`: pieces stand between their quotes, so the literal ends behind the last;
* `LiteralBody.unescape`: decoding gives what each piece stands for, from the first to the last.
-/
import RosInterface.Proofs.Text.Literal
import RosInterface.Proofs.Text.Numeral

set_option autoImplicit false

namespace RosInterface.Text

open CodePoint (backslash singleQuote doubleQuote)

/-! ## Names -/

/-- What stands for a code point behind a backslash, and its number: the quotes and the backslash
for themselves, and letters for the control characters from bell to carriage return. -/
def names : List (CodePoint × Nat) :=
  ([singleQuote, doubleQuote, backslash].map fun c => (c, c.val)) ++
    (ofString "abtnvfr").zip (List.range' 0x7 7)

/-- The letters that stand before hexadecimal digits, and the number of digits. -/
def hexLetters : List (CodePoint × Nat) := [('x', 2), ('u', 4), ('U', 8)]

variable {quote c l : CodePoint} {rest : Text}

/-- The decoder's table holds the names and nothing else. -/
theorem lookup_letterEscapes_iff : letterEscapes.lookup l = some c ↔ (l, c.val) ∈ names := by
  constructor
  · intro found
    have table : ∀ entry ∈ letterEscapes, (entry.1, entry.2.val) ∈ names := by decide
    obtain ⟨before, after, whole, -⟩ := List.lookup_eq_some_iff.1 found
    exact table (l, c) (by rw [whole]; simp)
  · intro named
    have table : ∀ entry ∈ names,
        letterEscapes.lookup entry.1 = CodePoint.ofNat? entry.2 := by decide
    rw [table _ named, CodePoint.ofNat?, dif_pos c.isLt]

theorem hexEscapeWidth?_iff {width : Nat} :
    hexEscapeWidth? l = some width ↔ (l, width) ∈ hexLetters := by
  simp only [hexEscapeWidth?, hexLetters, List.mem_cons, List.not_mem_nil, Prod.mk.injEq,
    or_false]
  split_ifs with x u U
  · simp [x, eq_comm]
  · simp [u, eq_comm]
  · simp [U, eq_comm]
  · simp [x, u, U]

/-! ## Pieces and bodies -/

/-- A piece of a literal before the text `next`, and the code points that it stands for. -/
inductive LiteralPiece (quote : CodePoint) (next : Text) : Text → Text → Prop where
  /-- A code point by itself. -/
  | itself {c : CodePoint} (ne : c ≠ quote) (bare : c ≠ backslash) : LiteralPiece quote next [c] [c]
  | letter {l c : CodePoint} (named : (l, c.val) ∈ names) :
      LiteralPiece quote next [backslash, l] [c]
  /-- At most three octal digits, and fewer only where no other follows. -/
  | octal {digits : Text} {c : CodePoint} (nonempty : digits ≠ []) (short : digits.length ≤ 3)
      (isOctal : ∀ d ∈ digits, d.isDigitOf 8 = true)
      (ends : digits.length = 3 ∨ Stops (·.isDigitOf 8) next) (spells : value 8 digits = c.val) :
      LiteralPiece quote next (backslash :: digits) [c]
  /-- All hexadecimal digits that the letter asks for. -/
  | hexadecimal {l c : CodePoint} {width : Nat} {digits : Text} (letter : (l, width) ∈ hexLetters)
      (length : digits.length = width) (isHex : ∀ d ∈ digits, d.isDigitOf 16 = true)
      (spells : value 16 digits = c.val) : LiteralPiece quote next (backslash :: l :: digits) [c]
  /-- A code point that begins no escape. -/
  | unknown {c : CodePoint} (notOctal : c.isDigitOf 8 = false)
      (noNumber : ∀ entry ∈ hexLetters, entry.1 ≠ c) (unnamed : ∀ entry ∈ names, entry.1 ≠ c) :
      LiteralPiece quote next [backslash, c] [backslash, c]
  /-- A letter without all the hexadecimal digits that it asks for. -/
  | undigited {l : CodePoint} {width : Nat} (letter : (l, width) ∈ hexLetters)
      (lacks : (next.take width).length < width ∨ ∃ d ∈ next.take width, d.isDigitOf 16 = false) :
      LiteralPiece quote next [backslash, l] [backslash, l]

/-- The body of a literal, piece by piece up to the closing quote, and its content. -/
inductive LiteralBody (quote : CodePoint) : Text → Text → Prop where
  | nil : LiteralBody quote [] []
  | cons {spelling content body contents : Text}
      (piece : LiteralPiece quote (body ++ [quote]) spelling content)
      (tail : LiteralBody quote body contents) :
      LiteralBody quote (spelling ++ body) (content ++ contents)

/-! ## Digits are words -/

theorem isWord_of_isDigitOf {radix : Nat} (small : radix ≤ 16)
    (digit : c.isDigitOf radix = true) : c.isWord = true := by
  obtain ⟨n, read⟩ := Option.isSome_iff_exists.1 digit
  simp only [CodePoint.digit?, Option.ite_none_right_eq_some] at read
  rw [CodePoint.isWord_iff, CodePoint.isLetter_iff, CodePoint.isLower_iff, CodePoint.isUpper_iff]
  by_cases decimal : c.isDigit = true
  · exact .inr (.inl decimal)
  · rw [if_neg decimal] at read
    have := read.1
    split_ifs at this with lower upper <;>
      simp only [Bool.and_eq_true, decide_eq_true_eq] at * <;> omega

/-- Neither a quote nor a backslash is a word code point. -/
theorem plain_of_isWord (isQuote : quote.isQuote = true) (word : c.isWord = true) :
    c ≠ quote ∧ c ≠ backslash := by
  constructor
  · rintro rfl
    rcases CodePoint.isQuote_iff.1 isQuote with rfl | rfl <;> exact absurd word (by decide)
  · rintro rfl
    exact absurd word (by decide)

theorem guarded_of_isDigitOf {radix : Nat} (small : radix ≤ 16) (isQuote : quote.isQuote = true)
    {digits : Text} (inside : ∀ d ∈ digits, d.isDigitOf radix = true) : Guarded quote digits :=
  .of_forall fun d member => plain_of_isWord isQuote (isWord_of_isDigitOf small (inside d member))

/-! ## Reading one escape -/

theorem codePointOf_val (c : CodePoint) : codePointOf c.val = .ok c := by
  rw [codePointOf, CodePoint.ofNat?, dif_pos c.isLt]

theorem octalRun_of_not_octal (notOctal : c.isDigitOf 8 = false) (rest : Text) :
    octalRun (c :: rest) = [] := by
  rw [octalRun, List.take_succ_cons, List.takeWhile_cons, notOctal]
  rfl

theorem octalRun_append {digits : Text} (short : digits.length ≤ 3)
    (isOctal : ∀ d ∈ digits, d.isDigitOf 8 = true)
    (ends : digits.length = 3 ∨ Stops (·.isDigitOf 8) rest) :
    octalRun (digits ++ rest) = digits := by
  rw [octalRun, List.take_append, List.take_of_length_le short]
  -- what is left of the window behind the digits: nothing, or it begins with no octal digit
  refine takeWhile_append_stop isOctal fun c first => ?_
  rcases ends with full | stops
  · simp [full] at first
  · rw [List.head?_take] at first
    split_ifs at first
    exact stops c first

theorem escape?_octalRun {digits : Text} (nonempty : digits ≠ [])
    (run : octalRun (digits ++ rest) = digits) (spells : value 8 digits = c.val) :
    escape? (digits ++ rest) = some (.ok [c], digits.length) := by
  obtain ⟨d, more, rfl⟩ := List.exists_cons_of_ne_nil nonempty
  rw [List.cons_append] at run ⊢
  simp only [escape?, run, spells, codePointOf_val]
  rw [if_pos nonempty]
  rfl

theorem escape?_hexadecimal {width : Nat} {digits : Text} (letter : (l, width) ∈ hexLetters)
    (length : digits.length = width) (isHex : ∀ d ∈ digits, d.isDigitOf 16 = true)
    (spells : value 16 digits = c.val) :
    escape? (l :: (digits ++ rest)) = some (.ok [c], width + 1) := by
  have notOctal : ∀ entry ∈ hexLetters, entry.1.isDigitOf 8 = false := by decide
  have all : digits.length = width ∧ digits.all (·.isDigitOf 16) = true :=
    ⟨length, List.all_eq_true.2 isHex⟩
  simp only [escape?, octalRun_of_not_octal (notOctal _ letter), hexEscapeWidth?_iff.2 letter,
    List.take_left' length, if_pos all, spells, codePointOf_val]
  rfl

theorem escape?_named (named : (l, c.val) ∈ names) (rest : Text) :
    escape? (l :: rest) = some (.ok [c], 1) := by
  have table : ∀ entry ∈ names,
      entry.1.isDigitOf 8 = false ∧ hexEscapeWidth? entry.1 = none := by decide
  obtain ⟨notOctal, noNumber⟩ := table _ named
  simp only [escape?, octalRun_of_not_octal notOctal, noNumber, lookup_letterEscapes_iff.2 named]
  rfl

/-- What begins no escape is kept. -/
theorem escape?_unknown (notOctal : c.isDigitOf 8 = false)
    (noNumber : ∀ entry ∈ hexLetters, entry.1 ≠ c) (unnamed : ∀ entry ∈ names, entry.1 ≠ c)
    (rest : Text) : escape? (c :: rest) = some (.ok [backslash, c], 1) := by
  have single : hexEscapeWidth? c = none :=
    Option.eq_none_iff_forall_ne_some.2 fun _ found => noNumber _ (hexEscapeWidth?_iff.1 found) rfl
  have missing : letterEscapes.lookup c = none :=
    Option.eq_none_iff_forall_ne_some.2 fun _ found =>
      unnamed _ (lookup_letterEscapes_iff.1 found) rfl
  simp only [escape?, octalRun_of_not_octal notOctal, single, missing]
  rfl

theorem escape?_lacking {width : Nat} (letter : (l, width) ∈ hexLetters)
    (lacks : (rest.take width).length < width ∨ ∃ d ∈ rest.take width, d.isDigitOf 16 = false) :
    escape? (l :: rest) = some (.ok [backslash, l], 1) := by
  have notOctal : ∀ entry ∈ hexLetters, entry.1.isDigitOf 8 = false := by decide
  have short : ¬ ((rest.take width).length = width ∧
      (rest.take width).all (·.isDigitOf 16) = true) := by
    rintro ⟨length, all⟩
    rcases lacks with fewer | ⟨d, member, outside⟩
    · omega
    · rw [List.all_eq_true.1 all d member] at outside
      cases outside
  simp only [escape?, octalRun_of_not_octal (notOctal _ letter), hexEscapeWidth?_iff.2 letter,
    if_neg short]
  rfl

/-! ## Decoding -/

theorem unescapeFrom_length_append (taken rest : Text) :
    unescapeFrom taken.length (taken ++ rest) = unescapeFrom 0 rest := by
  induction taken with
  | nil => rfl
  | cons c taken ih => exact ih

theorem unescapeFrom_bare (bare : c ≠ backslash) (rest : Text) :
    unescapeFrom 0 (c :: rest) = (unescapeFrom 0 rest).map (c :: ·) := by
  rw [unescapeFrom, if_neg bare]

theorem unescapeFrom_escape {piece : Text} {taken : Nat}
    (read : escape? rest = some (.ok piece, taken)) :
    unescapeFrom 0 (backslash :: rest) = (unescapeFrom taken rest).map (piece ++ ·) := by
  rw [unescapeFrom, if_pos rfl, read]

/-- Decoding goes on behind what an escape has taken. -/
theorem unescapeFrom_taken {taken content : Text}
    (read : escape? (taken ++ rest) = some (.ok content, taken.length)) :
    unescapeFrom 0 (backslash :: (taken ++ rest)) = (unescapeFrom 0 rest).map (content ++ ·) := by
  rw [unescapeFrom_escape read, unescapeFrom_length_append]

namespace LiteralPiece

variable {next spelling content body : Text}

theorem guarded (isQuote : quote.isQuote = true)
    (piece : LiteralPiece quote next spelling content) : Guarded quote spelling := by
  cases piece with
  | itself ne bare => exact .plain ne bare .nil
  | letter | unknown | undigited => exact .escape .nil
  | octal nonempty _ isOctal =>
      obtain ⟨d, digits, rfl⟩ := List.exists_cons_of_ne_nil nonempty
      rw [List.forall_mem_cons] at isOctal
      exact .escape (guarded_of_isDigitOf (by decide) isQuote isOctal.2)
  | hexadecimal _ _ isHex => exact .escape (guarded_of_isDigitOf le_rfl isQuote isHex)

/-- **A piece is decoded by itself.**  The closing quote is behind the body that the decoder
sees; it is no digit, so it tells the decoder nothing that the end of the body does not. -/
theorem unescapeFrom (piece : LiteralPiece quote (body ++ [quote]) spelling content) :
    Text.unescapeFrom 0 (spelling ++ body) = (Text.unescapeFrom 0 body).map (content ++ ·) := by
  cases piece with
  | itself _ bare => exact unescapeFrom_bare bare body
  | @letter l _ named =>
      exact unescapeFrom_taken (show escape? ([l] ++ body) = _ from escape?_named named body)
  | octal nonempty short isOctal ends spells =>
      have stops : Stops (·.isDigitOf 8) (body ++ [quote]) → Stops (·.isDigitOf 8) body :=
        fun stops c first => stops c (by rw [List.head?_append, first]; rfl)
      have run := octalRun_append short isOctal (ends.imp_right stops)
      exact unescapeFrom_taken (escape?_octalRun nonempty run spells)
  | @hexadecimal l c width digits letter length isHex spells =>
      have read : escape? ((l :: digits) ++ body) = some (.ok [c], (l :: digits).length) := by
        rw [List.length_cons, length]
        exact escape?_hexadecimal letter length isHex spells
      exact unescapeFrom_taken read
  | @unknown c notOctal noNumber unnamed =>
      exact unescapeFrom_taken (show escape? ([c] ++ body) = _ from
        escape?_unknown notOctal noNumber unnamed body)
  | @undigited l width letter lacks =>
      refine unescapeFrom_taken (show escape? ([l] ++ body) = _ from escape?_lacking letter ?_)
      rcases le_or_gt width body.length with enough | fewer
      · rwa [List.take_append_of_le_length enough] at lacks
      · exact .inl ((List.length_take_le' _ _).trans_lt fewer)

end LiteralPiece

namespace LiteralBody

variable {body content : Text}

theorem guarded (isQuote : quote.isQuote = true) (written : LiteralBody quote body content) :
    Guarded quote body := by
  induction written with
  | nil => exact .nil
  | cons piece _ ih => exact (piece.guarded isQuote).append ih

/-- **A body is decoded to what its pieces stand for.** -/
theorem unescape (written : LiteralBody quote body content) : Text.unescape body = .ok content := by
  rw [Text.unescape]
  induction written with
  | nil => rfl
  | cons piece _ ih =>
      rw [piece.unescapeFrom, ih]
      rfl

end LiteralBody

end RosInterface.Text
