/-
# RosInterface.Proofs.Text.Run -- maximal runs, gaps and ends

A token is read as a run: the longest beginning whose code points all belong to
one class.  `takeWhile_append_stop` and `dropWhile_append_stop` say that a run
ends where it was written to end, provided what follows cannot continue it
(`Text.Stops`); `exists_run` is the way back, from a reading to what was written.

A gap is a run of spaces and tabs (`Text.IsGap`).  A text is *bare-ended* when it
neither begins nor ends in white space (`Text.BareEnds`); `trim` makes every text
so, and leaves such a text alone.  The last section takes joined texts apart.
-/
import RosInterface.Text.Blank
import Mathlib.Data.List.DropRight
import Mathlib.Data.List.TakeWhile

set_option autoImplicit false

namespace RosInterface

namespace CodePoint

/-! ## Classes of code points -/

theorem eq_ofChar {c : CodePoint} {x : Char} : c = ofChar x ↔ c.val = x.toNat := by
  rw [CodePoint.ext_iff, val_ofChar]

@[simp] theorem ofChar_inj {x y : Char} : ofChar x = ofChar y ↔ x = y := by
  rw [eq_ofChar, val_ofChar]
  exact ⟨fun same => Char.ext (UInt32.toNat_inj.1 same), fun same => same ▸ rfl⟩

theorem isLower_iff {c : CodePoint} : c.isLower = true ↔ 0x61 ≤ c.val ∧ c.val ≤ 0x7A := by
  simp [isLower]

theorem isUpper_iff {c : CodePoint} : c.isUpper = true ↔ 0x41 ≤ c.val ∧ c.val ≤ 0x5A := by
  simp [isUpper]

theorem isDigit_iff {c : CodePoint} : c.isDigit = true ↔ 0x30 ≤ c.val ∧ c.val ≤ 0x39 := by
  simp [isDigit]

theorem isGap_iff {c : CodePoint} : c.isGap = true ↔ c.val = 0x20 ∨ c.val = 0x9 := by
  simp [isGap]

theorem isLetter_iff {c : CodePoint} :
    c.isLetter = true ↔ c.isLower = true ∨ c.isUpper = true := by
  simp [isLetter]

theorem isWord_iff {c : CodePoint} :
    c.isWord = true ↔ c.isLetter = true ∨ c.isDigit = true ∨ c.val = 0x5F := by
  simp [isWord, eq_ofChar, or_assoc]

theorem isSpace_iff {c : CodePoint} :
    c.isSpace = true ↔ (0x9 ≤ c.val ∧ c.val ≤ 0xD) ∨ (0x1C ≤ c.val ∧ c.val ≤ 0x20) ∨
      c.val = 0x85 ∨ c.val = 0xA0 ∨ c.val = 0x1680 ∨ (0x2000 ≤ c.val ∧ c.val ≤ 0x200A) ∨
      (0x2028 ≤ c.val ∧ c.val ≤ 0x2029) ∨ c.val = 0x202F ∨ c.val = 0x205F ∨ c.val = 0x3000 := by
  simp only [isSpace, inRanges, spaceRanges, List.any_cons, List.any_nil, Bool.or_false,
    Bool.or_eq_true, Bool.and_eq_true, decide_eq_true_eq]
  omega

theorem isSpace_of_isGap {c : CodePoint} (gap : c.isGap = true) : c.isSpace = true := by
  rw [isGap_iff] at gap
  rw [isSpace_iff]
  omega

theorem isWord_of_isLetter {c : CodePoint} (letter : c.isLetter = true) : c.isWord = true :=
  isWord_iff.2 (.inl letter)

theorem isWord_of_isDigit {c : CodePoint} (digit : c.isDigit = true) : c.isWord = true :=
  isWord_iff.2 (.inr (.inl digit))

/-- The words of the language are ASCII. -/
theorem ascii_of_isWord {c : CodePoint} (word : c.isWord = true) :
    0x30 ≤ c.val ∧ c.val ≤ 0x7A := by
  rw [isWord_iff, isLetter_iff, isLower_iff, isUpper_iff, isDigit_iff] at word
  omega

theorem not_isSpace_of_isWord {c : CodePoint} (word : c.isWord = true) : c.isSpace = false := by
  have bounds := ascii_of_isWord word
  rw [Bool.eq_false_iff, Ne, isSpace_iff]
  omega

theorem not_isGap_of_isWord {c : CodePoint} (word : c.isWord = true) : c.isGap = false := by
  have bounds := ascii_of_isWord word
  rw [Bool.eq_false_iff, Ne, isGap_iff]
  omega

theorem not_isWord_of_isGap {c : CodePoint} (gap : c.isGap = true) : c.isWord = false := by
  rw [Bool.eq_false_iff]
  intro word
  rw [not_isGap_of_isWord word] at gap
  cases gap

theorem not_isDigit_of_isGap {c : CodePoint} (gap : c.isGap = true) : c.isDigit = false := by
  rw [Bool.eq_false_iff]
  intro digit
  have word := isWord_of_isDigit digit
  rw [not_isWord_of_isGap gap] at word
  cases word

theorem not_isDigit_of_isLetter {c : CodePoint} (letter : c.isLetter = true) :
    c.isDigit = false := by
  rw [isLetter_iff, isLower_iff, isUpper_iff] at letter
  rw [Bool.eq_false_iff, Ne, isDigit_iff]
  omega

end CodePoint

namespace Text

/-! ## Runs -/

/-- What follows a run cannot continue it. -/
def Stops (p : CodePoint → Bool) (rest : Text) : Prop := ∀ c, rest.head? = some c → p c = false

theorem stops_nil (p : CodePoint → Bool) : Stops p [] := fun _ first => by cases first

theorem stops_cons {p : CodePoint → Bool} {c : CodePoint} {rest : Text} :
    Stops p (c :: rest) ↔ p c = false :=
  ⟨fun stops => stops c rfl, fun outside d first => by cases first; exact outside⟩

theorem stops_dropWhile (p : CodePoint → Bool) (s : Text) : Stops p (s.dropWhile p) := by
  intro c first
  have outside := List.head?_dropWhile_not p s
  rw [first] at outside
  exact outside

theorem takeWhile_of_stops {p : CodePoint → Bool} {rest : Text} (stops : Stops p rest) :
    rest.takeWhile p = [] := by
  cases rest with
  | nil => rfl
  | cons c rest => rw [List.takeWhile_cons, stops_cons.1 stops]; rfl

theorem dropWhile_of_stops {p : CodePoint → Bool} {rest : Text} (stops : Stops p rest) :
    rest.dropWhile p = rest := by
  cases rest with
  | nil => rfl
  | cons c rest => rw [List.dropWhile_cons, stops_cons.1 stops]; rfl

theorem takeWhile_append_stop {p : CodePoint → Bool} {run rest : Text}
    (inside : ∀ c ∈ run, p c = true) (stops : Stops p rest) :
    (run ++ rest).takeWhile p = run := by
  rw [List.takeWhile_append_of_pos inside, takeWhile_of_stops stops, List.append_nil]

theorem dropWhile_append_stop {p : CodePoint → Bool} {run rest : Text}
    (inside : ∀ c ∈ run, p c = true) (stops : Stops p rest) :
    (run ++ rest).dropWhile p = rest := by
  rw [List.dropWhile_append_of_pos inside, dropWhile_of_stops stops]

/-- Every text is a run and what cannot continue it. -/
theorem exists_run (p : CodePoint → Bool) (s : Text) :
    ∃ run, s = run ++ s.dropWhile p ∧ ∀ c ∈ run, p c = true :=
  ⟨s.takeWhile p, List.takeWhile_append_dropWhile.symm, fun _ => List.mem_takeWhile_imp⟩

/-! ## Gaps -/

/-- Nothing but spaces and tabs. -/
def IsGap (s : Text) : Prop := ∀ c ∈ s, c.isGap = true

instance (s : Text) : Decidable (IsGap s) := inferInstanceAs (Decidable (∀ c ∈ s, _))

theorem isGap_nil : IsGap [] := fun _ member => by cases member

theorem isGap_space : IsGap " " := by decide

theorem skipGap_of_stops {s : Text} (stops : Stops CodePoint.isGap s) : s.skipGap = s :=
  dropWhile_of_stops stops

theorem skipGap_append {g : Text} (gap : IsGap g) (s : Text) : (g ++ s).skipGap = s.skipGap :=
  List.dropWhile_append_of_pos gap

theorem exists_gap (s : Text) : ∃ g, s = g ++ s.skipGap ∧ IsGap g := exists_run _ s

theorem isEmpty_skipGap_iff {s : Text} : s.skipGap.isEmpty = true ↔ IsGap s := by
  rw [List.isEmpty_iff, skipGap, List.dropWhile_eq_nil_iff]
  rfl

theorem IsGap.stops {g rest : Text} {p : CodePoint → Bool} (gap : IsGap g)
    (outside : ∀ c : CodePoint, c.isGap = true → p c = false) (stops : Stops p rest) :
    Stops p (g ++ rest) := by
  cases g with
  | nil => exact stops
  | cons c g => exact stops_cons.2 (outside c (gap c (by simp)))

/-! ## Ends -/

/-- The text neither begins nor ends in white space. -/
def BareEnds (s : Text) : Prop :=
  Stops CodePoint.isSpace s ∧ ∀ c, s.getLast? = some c → c.isSpace = false

theorem bareEnds_trim (s : Text) : BareEnds s.trim := by
  constructor
  · intro c first
    have found : s.trimStart.head? = some c := by
      obtain ⟨dropped, whole⟩ := List.rdropWhile_prefix CodePoint.isSpace (l := s.trimStart)
      rw [← whole, List.head?_append, show s.trimStart.rdropWhile _ = s.trim from rfl, first]
      rfl
    exact stops_dropWhile _ _ c found
  · intro c last
    have nonempty : s.trimStart.rdropWhile CodePoint.isSpace ≠ [] := by
      intro empty
      rw [show s.trim = s.trimStart.rdropWhile CodePoint.isSpace from rfl, empty] at last
      cases last
    have bare := List.rdropWhile_last_not CodePoint.isSpace s.trimStart nonempty
    rw [show s.trim = s.trimStart.rdropWhile CodePoint.isSpace from rfl,
      List.getLast?_eq_some_getLast nonempty] at last
    cases last
    simpa using bare

/-- A text with bare ends does not end in a gap. -/
theorem BareEnds.eq_nil_of_isGap {s gap : Text} (bare : BareEnds (s ++ gap)) (isGap : IsGap gap) :
    gap = [] := by
  by_contra nonempty
  have last := List.getLast?_eq_some_getLast nonempty
  have inside := CodePoint.isSpace_of_isGap (isGap _ (List.getLast_mem nonempty))
  rw [bare.2 _ (by rw [List.getLast?_append_of_ne_nil _ nonempty, last])] at inside
  cases inside

theorem trim_of_bareEnds {s : Text} (bare : BareEnds s) : s.trim = s := by
  have start : s.trimStart = s := dropWhile_of_stops bare.1
  show s.trimStart.rdropWhile CodePoint.isSpace = s
  rw [start, List.rdropWhile_eq_self_iff]
  intro nonempty inside
  have outside := bare.2 _ (List.getLast?_eq_some_getLast nonempty)
  rw [outside] at inside
  cases inside

theorem trim_trim (s : Text) : s.trim.trim = s.trim := trim_of_bareEnds (bareEnds_trim s)

/-- Every text is what trimming leaves of it, with white space on both sides. -/
theorem exists_trim (s : Text) :
    ∃ lead trail, s = lead ++ (s.trim ++ trail) ∧ (∀ c ∈ lead, c.isSpace = true) ∧
      ∀ c ∈ trail, c.isSpace = true := by
  obtain ⟨lead, whole, inLead⟩ := exists_run CodePoint.isSpace s
  obtain ⟨trail, reversed, inTrail⟩ := exists_run CodePoint.isSpace s.trimStart.reverse
  have start : s.trimStart = s.trim ++ trail.reverse := by
    have turned := congrArg List.reverse reversed
    rw [List.reverse_append, List.reverse_reverse] at turned
    exact turned
  refine ⟨lead, trail.reverse, ?_, inLead, fun c member => inTrail c (List.mem_reverse.1 member)⟩
  rw [← start]
  exact whole

/-- White space on both sides is trimmed, and nothing else. -/
theorem trim_around {lead s trail : Text} (inLead : ∀ c ∈ lead, c.isSpace = true)
    (inTrail : ∀ c ∈ trail, c.isSpace = true) (some_ : s ≠ []) (bare : BareEnds s) :
    (lead ++ (s ++ trail)).trim = s := by
  have start : (lead ++ (s ++ trail)).trimStart = s ++ trail := by
    refine dropWhile_append_stop inLead fun c first => bare.1 c ?_
    rwa [List.head?_append_of_ne_nil _ some_] at first
  have stops : Stops CodePoint.isSpace s.reverse := by
    intro c first
    rw [List.head?_reverse] at first
    exact bare.2 c first
  have inside : ∀ c ∈ trail.reverse, c.isSpace = true := fun c member =>
    inTrail c (List.mem_reverse.1 member)
  rw [trim, start, trimEnd, List.reverse_append, dropWhile_append_stop inside stops,
    List.reverse_reverse]

theorem trim_append_space {s t : Text} (some_ : s.trim ≠ []) (space : ∀ c ∈ t, c.isSpace = true) :
    (s ++ t).trim = s.trim := by
  obtain ⟨lead, trail, whole, inLead, inTrail⟩ := exists_trim s
  have shape : s ++ t = lead ++ (s.trim ++ (trail ++ t)) := by
    conv_lhs => rw [whole]
    simp
  rw [shape]
  exact trim_around inLead (List.forall_mem_append.2 ⟨inTrail, space⟩) some_ (bareEnds_trim s)

theorem trim_ne_nil {s : Text} {c : CodePoint} (member : c ∈ s) (visible : c.isSpace = false) :
    s.trim ≠ [] := by
  intro empty
  obtain ⟨lead, trail, whole, inLead, inTrail⟩ := exists_trim s
  rw [whole, empty, List.nil_append, List.mem_append] at member
  rcases member with inside | inside
  · rw [inLead c inside] at visible
    cases visible
  · rw [inTrail c inside] at visible
    cases visible

/-- The ends of a text decide, whatever stands between them. -/
theorem BareEnds.around {s t : Text} (first : s ≠ []) (last : t ≠ []) (bareFirst : BareEnds s)
    (bareLast : BareEnds t) (between : Text) : BareEnds (s ++ (between ++ t)) := by
  constructor
  · intro c head
    rw [List.head?_append_of_ne_nil _ first] at head
    exact bareFirst.1 c head
  · intro c end_
    rw [← List.append_assoc, List.getLast?_append_of_ne_nil _ last] at end_
    exact bareLast.2 c end_

/-- Trimming stops at the first and at the last code point that is no white space. -/
theorem exists_trim_append {s t : Text} (first : s.trim ≠ []) (last : t.trim ≠ []) :
    ∃ between, (s ++ t).trim = s.trim ++ (between ++ t.trim) := by
  obtain ⟨lead, trail, whole, inLead, -⟩ := exists_trim s
  obtain ⟨lead', trail', whole', -, inTrail⟩ := exists_trim t
  have shape : s ++ t = lead ++ (s.trim ++ (trail ++ lead' ++ t.trim) ++ trail') := by
    conv_lhs => rw [whole, whole']
    simp
  refine ⟨trail ++ lead', ?_⟩
  rw [shape]
  exact trim_around inLead inTrail (List.append_ne_nil_of_left_ne_nil first _)
    ((bareEnds_trim s).around first last (bareEnds_trim t) _)

/-- A text without white space. -/
theorem bareEnds_of_forall {s : Text} (bare : ∀ c ∈ s, c.isSpace = false) : BareEnds s :=
  ⟨fun c first => bare c (List.mem_of_head? first),
    fun c last => bare c (List.mem_of_getLast? last)⟩

/-! ## Joined texts -/

theorem joined_singleton (separator piece : Text) : joined separator [piece] = piece :=
  List.intercalate_singleton

theorem joined_cons_cons (separator piece next : Text) (more : List Text) :
    joined separator (piece :: next :: more) =
      piece ++ (separator ++ joined separator (next :: more)) := by
  rw [joined, List.intercalate_cons_cons, List.append_assoc]
  rfl

theorem joined_ne_nil {separator piece : Text} (nonempty : piece ≠ []) (more : List Text) :
    joined separator (piece :: more) ≠ [] := by
  cases more with
  | nil => rwa [joined_singleton]
  | cons next more =>
      rw [joined_cons_cons]
      exact List.append_ne_nil_of_left_ne_nil nonempty _

theorem map_joined (f : CodePoint → CodePoint) (separator : Text) (pieces : List Text) :
    (joined separator pieces).map f = joined (separator.map f) (pieces.map (List.map f)) := by
  induction pieces with
  | nil => rfl
  | cons piece pieces ih =>
      cases pieces with
      | nil => simp only [List.map_cons, List.map_nil, joined_singleton]
      | cons next pieces =>
          simp only [List.map_cons, joined_cons_cons, List.map_append] at ih ⊢
          rw [ih]

end Text

end RosInterface
