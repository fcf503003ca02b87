/-
# RosInterface.Proofs.Definition.FileLines -- the lines of a definition and those of its file

Before a definition is cut into lines its line ends are made newlines, and the lines of its
file are what stands between two of them (`Text.fileLines`).  It is then cut at every line
boundary, and a boundary that is no line end of the file ends a line as well: a vertical tab,
a form feed, one of the separators.  `Section.forKind_fileLines_iff` says when that makes no
difference.  The sections are always the lines of the definition, in their order and numbered
from one, with the separator lines between them (`Section.Parts`); they are those of the file
if and only if the text has no boundary besides line feeds and carriage returns.

Where there is another one, a comment or a quoted string that holds it is cut in two, what
comes behind the cut is read as a declaration, and later lines carry too high a number
(`Section.comment_cut_at_verticalTab`).
-/
import RosInterface.Proofs.Definition.Lines
import RosInterface.Proofs.Text.LineEnds

set_option autoImplicit false

namespace RosInterface

open CodePoint (newline carriageReturn)

/-! ## Splitting at fewer places -/

section Splitting

variable {α : Type} {p q : α → Bool} {items : List α}

theorem length_splitOnP (p : α → Bool) (items : List α) :
    (items.splitOnP p).length = items.countP p + 1 := by
  induction items with
  | nil => rfl
  | cons item rest ih =>
      rw [List.splitOnP_cons_eq_if_modifyHead]
      split
      case isTrue splits => rw [List.length_cons, ih, List.countP_cons_of_pos splits]
      case isFalse stays => rw [List.length_modifyHead, ih, List.countP_cons_of_neg stays]

theorem splitOnP_congr (agree : ∀ item ∈ items, p item = q item) :
    items.splitOnP p = items.splitOnP q := by
  induction items with
  | nil => rfl
  | cons item rest ih =>
      rw [List.forall_mem_cons] at agree
      rw [List.splitOnP_cons_eq_if_modifyHead, List.splitOnP_cons_eq_if_modifyHead, agree.1,
        ih agree.2]

/-- Splitting at fewer places gives as many parts only where it is the same. -/
theorem agree_of_length_splitOnP (fewer : ∀ item, q item = true → p item = true)
    (same : (items.splitOnP q).length = (items.splitOnP p).length) :
    ∀ item ∈ items, p item = true → q item = true := by
  rw [length_splitOnP, length_splitOnP, Nat.add_right_cancel_iff] at same
  intro item member splits
  have filters : items.filter q = (items.filter p).filter q := by
    rw [List.filter_filter]
    refine List.filter_congr fun other _ => ?_
    cases at_ : q other with
    | false => rfl
    | true => rw [fewer other at_]; rfl
  have all := (List.length_filter_eq_length_iff (l := items.filter p) (p := q)).1 (by
    rw [← filters, ← List.countP_eq_length_filter, ← List.countP_eq_length_filter, same])
  exact all item (List.mem_filter.2 ⟨member, splits⟩)

end Splitting

/-! ## Lines of a file -/

namespace Text

/-- The lines of the file: what stands between two newlines of a text whose line ends are
newlines.  Nothing comes behind the last one. -/
def fileLines (text : Text) : List Text := (text.normalNewlines.splitOn newline).dropLast

theorem fileLines_of_eq {text body : Text} (whole : text.normalNewlines = body ++ [newline]) :
    text.fileLines = body.splitOn newline := by
  rw [fileLines, whole, List.splitOn_append_cons_self, List.splitOn_nil, List.dropLast_concat]

/-- A text with a line end of its own is cut at its boundaries. -/
theorem lines_terminated {body : Text} (free : carriageReturn ∉ body) :
    lines (body ++ [newline]) = body.splitOnP CodePoint.isLineBoundary := by
  induction body with
  | nil => rfl
  | cons c rest ih =>
      rw [List.mem_cons, not_or] at free
      rw [List.splitOnP_cons_eq_if_modifyHead, List.cons_append]
      split
      case isTrue boundary => rw [lines_boundary boundary (Ne.symm free.1), ih free.2]
      case isFalse inside =>
        obtain ⟨line, more, own⟩ := exists_lines (t := rest ++ [newline]) (by simp)
        rw [lines_inside (Bool.eq_false_iff.2 inside) own, ← ih free.2, own,
          List.modifyHead_cons]

theorem mem_normalNewlines_iff {text : Text} {c : CodePoint} (inside : c ≠ carriageReturn)
    (other : c ≠ newline) : c ∈ text.normalNewlines ↔ c ∈ text := by
  rw [normalNewlines, terminated]
  split
  case isTrue => exact mem_unifyNewlines_iff inside other
  case isFalse => simp [mem_unifyNewlines_iff inside other, other]

/-- Only line ends of the file are boundaries of the text. -/
def EndsLinesOnly (text : Text) : Prop :=
  ∀ c ∈ text, c.isLineBoundary = true → c = newline ∨ c = carriageReturn

instance (text : Text) : Decidable text.EndsLinesOnly :=
  inferInstanceAs (Decidable (∀ c ∈ text, _))

theorem endsLinesOnly_iff {text body : Text} (whole : text.normalNewlines = body ++ [newline])
    (free : carriageReturn ∉ body) :
    text.EndsLinesOnly ↔ ∀ c ∈ body, c.isLineBoundary = true → (c == newline) = true := by
  have here {c : CodePoint} (inside : c ≠ carriageReturn) (other : c ≠ newline) :
      c ∈ text ↔ c ∈ body := by
    rw [← mem_normalNewlines_iff inside other, whole, List.mem_append, List.mem_singleton]
    exact or_iff_left other
  constructor
  · intro only c member boundary
    have inside : c ≠ carriageReturn := fun same => free (same ▸ member)
    by_contra other
    have differs : c ≠ newline := by simpa using other
    rcases only c ((here inside differs).2 member) boundary with same | same
    · exact differs same
    · exact inside same
  · intro only c member boundary
    by_contra other
    rw [not_or] at other
    have same := only c ((here other.2 other.1).1 member) boundary
    exact other.1 (eq_of_beq same)

theorem isLineBoundary_of_beq_newline (c : CodePoint) (same : (c == newline) = true) :
    c.isLineBoundary = true := by
  rw [eq_of_beq same]
  decide

theorem fileLines_eq {text : Text} (only : text.EndsLinesOnly) :
    text.fileLines = text.normalNewlines.lines := by
  obtain ⟨body, whole, free⟩ := exists_normalNewlines text
  rw [endsLinesOnly_iff whole free] at only
  rw [fileLines_of_eq whole, whole, lines_terminated free, List.splitOn_eq_splitOnP]
  exact splitOnP_congr fun c member =>
    Bool.eq_iff_iff.2 ⟨isLineBoundary_of_beq_newline c, only c member⟩

/-- There are as many lines in the file as the text is cut into only where it has no other
boundary. -/
theorem endsLinesOnly_of_length {text : Text}
    (same : text.fileLines.length = text.normalNewlines.lines.length) : text.EndsLinesOnly := by
  obtain ⟨body, whole, free⟩ := exists_normalNewlines text
  rw [fileLines_of_eq whole, whole, lines_terminated free, List.splitOn_eq_splitOnP] at same
  rw [endsLinesOnly_iff whole free]
  exact agree_of_length_splitOnP isLineBoundary_of_beq_newline same

end Text

/-! ## Sections -/

namespace Section

/-- The sections are the lines, with one separator line between each and the next. -/
inductive Parts : List (Nat × Text) → List Section → Prop
  | last {lines : List (Nat × Text)} (inside : ∀ line ∈ lines, isSeparator line.2 = false) :
      Parts lines [lines]
  | next {before : List (Nat × Text)} {mark : Nat × Text} {after : List (Nat × Text)}
      {sections : List Section} (inside : ∀ line ∈ before, isSeparator line.2 = false)
      (separates : isSeparator mark.2 = true) (rest : Parts after sections) :
      Parts (before ++ mark :: after) (before :: sections)

theorem Parts.cons {lines : List (Nat × Text)} {first : Section} {others : List Section}
    {line : Nat × Text} (inside : isSeparator line.2 = false)
    (parts : Parts lines (first :: others)) :
    Parts (line :: lines) ((line :: first) :: others) := by
  cases parts with
  | last all => exact .last (List.forall_mem_cons.2 ⟨inside, all⟩)
  | next all separates rest =>
      exact .next (List.forall_mem_cons.2 ⟨inside, all⟩) separates rest

theorem parts_cut (lines : List (Nat × Text)) : Parts lines (cut lines) := by
  fun_induction cut lines with
  | case1 => exact .last fun line member => absurd member List.not_mem_nil
  | case2 number line rest separates ih =>
      exact .next (fun other member => absurd member List.not_mem_nil) separates ih
  | case3 number line rest stays empty ih =>
      rw [empty] at ih
      nomatch ih
  | case4 number line rest stays first others parts ih =>
      rw [parts] at ih
      exact ih.cons (Bool.eq_false_iff.2 stays)

/-- Lines have their sections in one way. -/
theorem parts_iff {lines : List (Nat × Text)} {sections : List Section} :
    Parts lines sections ↔ sections = cut lines := by
  constructor
  · intro parts
    induction parts with
    | last inside => exact (cut_of_inside inside).symm
    | next inside separates _ ih => rw [cut_append inside separates, ih]
  · rintro rfl
    exact parts_cut lines

/-- The sections tell how many lines there are. -/
theorem Parts.length_eq {lines : List (Nat × Text)} {sections : List Section}
    (parts : Parts lines sections) :
    lines.length + 1 = sections.flatten.length + sections.length := by
  induction parts with
  | last => simp only [List.flatten_singleton, List.length_singleton]
  | next _ _ _ ih =>
      simp only [List.length_append, List.length_cons, List.flatten_cons]
      omega

theorem length_numbered {α : Type} (items : List α) :
    (Text.numbered items).length = items.length := by
  rw [Text.numbered, List.length_map, List.length_zipIdx]

/-- **The sections of a definition are its lines, and those of its file exactly where no
boundary but a line end of the file stands in the text.** -/
theorem forKind_fileLines_iff {kind : Kind} {text : Text} {sections : List Section}
    (returned : forKind kind text = .ok sections) :
    Parts (Text.numbered text.normalNewlines.lines) sections ∧
      (Parts (Text.numbered text.fileLines) sections ↔ text.EndsLinesOnly) := by
  have whole : sections = all text := by
    rw [forKind] at returned
    split at returned
    · cases returned
      rfl
    · cases returned
  have own : Parts (Text.numbered text.normalNewlines.lines) sections := parts_iff.2 whole
  refine ⟨own, ?_, ?_⟩
  · intro parts
    have lengths := parts.length_eq.trans own.length_eq.symm
    rw [length_numbered, length_numbered, Nat.add_right_cancel_iff] at lengths
    exact Text.endsLinesOnly_of_length lengths
  · intro only
    rw [Text.fileLines_eq only]
    exact own

/-- A service with three kinds of line end, whose lines are those of its file. -/
theorem forKind_fileLines_service :
    ∃ sections, forKind .service "int32 a\r\n---\rbool b # on\n" = .ok sections ∧
      Parts (Text.numbered (Text.fileLines "int32 a\r\n---\rbool b # on\n")) sections := by
  have returned : forKind .service "int32 a\r\n---\rbool b # on\n" =
      .ok [[(1, "int32 a")], [(3, "bool b # on")]] := by decide +kernel
  exact ⟨_, returned, (forKind_fileLines_iff returned).2.2 (by decide +kernel)⟩

/-- A vertical tab ends a comment: what comes behind it is a line, and a member. -/
theorem comment_cut_at_verticalTab :
    forKind .message "int32 a # x\x0bint32 b" =
        .ok [[(1, "int32 a # x"), (2, "int32 b")]] ∧
      Text.fileLines "int32 a # x\x0bint32 b" = ["int32 a # x\x0bint32 b"] ∧
      ¬ Parts (Text.numbered (Text.fileLines "int32 a # x\x0bint32 b"))
        [[(1, "int32 a # x"), (2, "int32 b")]] := by
  refine ⟨by decide +kernel, by decide +kernel, ?_⟩
  rw [parts_iff]
  decide +kernel

end Section

end RosInterface
