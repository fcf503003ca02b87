/-
# RosInterface.Proofs.Definition.Lines -- lines and sections of a written text

Lines that hold no line end come back from the text in which they are joined
(`Text.lines_joined`).  The last of them is the exception: a text that ends in a
newline gets no further one, so an empty last line is lost.  Nothing else is, and
an empty line declares nothing; `Section.active_cut` is therefore said about the
lines of a section that declare something.

`Section.written` puts sections together with separator lines between them, and
`Section.active_all` takes them apart again.
-/
import RosInterface.Declaration.Comment
import RosInterface.Definition.Section
import RosInterface.Proofs.Text.Run

set_option autoImplicit false

namespace RosInterface

open CodePoint (newline carriageReturn)

namespace Text

/-! ## Lines -/

/-- No code point of the text ends a line. -/
def IsLine (s : Text) : Prop := ∀ c ∈ s, c.isLineBoundary = false

theorem IsLine.ne_carriageReturn {s : Text} (line : IsLine s) : ∀ c ∈ s, c ≠ carriageReturn := by
  rintro c member rfl
  exact absurd (line _ member) (by decide)

theorem unifyNewlines_of_ne {s : Text} (noReturn : ∀ c ∈ s, c ≠ carriageReturn) :
    s.unifyNewlines = s := by
  induction s with
  | nil => rfl
  | cons c s ih =>
      rw [unifyNewlines.eq_def]
      simp only [if_neg (noReturn c (by simp))]
      rw [ih fun d member => noReturn d (List.mem_cons_of_mem _ member)]

theorem lines_newline (rest : Text) : lines (newline :: rest) = [] :: lines rest := by
  cases rest with
  | nil => rfl
  | cons d more =>
      rw [lines.eq_def]
      have isBoundary : newline.isLineBoundary = true := by decide
      have noReturn : newline ≠ carriageReturn := by decide
      simp [isBoundary, noReturn]

theorem lines_append {line : Text} (isLine : IsLine line) (rest : Text) :
    lines (line ++ newline :: rest) = line :: lines rest := by
  induction line with
  | nil => exact lines_newline rest
  | cons c line ih =>
      have inside := isLine c (by simp)
      have others := ih fun d member => isLine d (List.mem_cons_of_mem _ member)
      rw [List.cons_append, lines.eq_def]
      simp [inside, others]

/-- Lines with a newline behind each of them. -/
theorem lines_flatMap {pieces : List Text} (areLines : ∀ piece ∈ pieces, IsLine piece)
    (rest : Text) :
    lines (pieces.flatMap (· ++ [newline]) ++ rest) = pieces ++ lines rest := by
  induction pieces with
  | nil => rfl
  | cons piece pieces ih =>
      rw [List.flatMap_cons, List.append_assoc, List.append_assoc, List.singleton_append,
        lines_append (areLines piece (by simp)),
        ih fun p member => areLines p (List.mem_cons_of_mem _ member)]
      rfl

theorem joined_newline {pieces : List Text} (nonempty : pieces ≠ []) :
    joined "\n" pieces ++ [newline] = pieces.flatMap (· ++ [newline]) := by
  induction pieces with
  | nil => exact absurd rfl nonempty
  | cons piece pieces ih =>
      cases pieces with
      | nil => simp [joined_singleton]
      | cons next pieces =>
          rw [List.flatMap_cons, ← ih (List.cons_ne_nil next pieces), joined_cons_cons]
          simp only [List.append_assoc]
          rfl

theorem mem_joined {pieces : List Text} {c : CodePoint} (member : c ∈ joined "\n" pieces) :
    c = newline ∨ ∃ piece ∈ pieces, c ∈ piece := by
  induction pieces with
  | nil => cases member
  | cons piece pieces ih =>
      cases pieces with
      | nil =>
          rw [joined_singleton] at member
          exact .inr ⟨piece, by simp, member⟩
      | cons next pieces =>
          rw [joined_cons_cons, List.mem_append, List.mem_append] at member
          rcases member with inPiece | inMark | inRest
          · exact .inr ⟨piece, by simp, inPiece⟩
          · exact .inl (List.mem_singleton.1 inMark)
          · rcases ih inRest with isNewline | ⟨found, inPieces, inside⟩
            · exact .inl isNewline
            · exact .inr ⟨found, List.mem_cons_of_mem _ inPieces, inside⟩

/-- The end of a joined text is the end of its last piece. -/
theorem getLast?_joined {pieces : List Text} (nonempty : ∀ piece ∈ pieces, piece ≠ [])
    (isLines : ∀ piece ∈ pieces, IsLine piece) : (joined "\n" pieces).getLast? ≠ some newline := by
  induction pieces with
  | nil => exact fun last => by cases last
  | cons piece pieces ih =>
      have first := nonempty piece (by simp)
      cases pieces with
      | nil =>
          intro last
          rw [joined_singleton] at last
          exact absurd (isLines piece (by simp) _ (List.mem_of_getLast? last)) (by decide)
      | cons next pieces =>
          have later : joined "\n" (next :: pieces) ≠ [] :=
            joined_ne_nil (nonempty next (by simp)) pieces
          rw [joined_cons_cons,
            List.getLast?_append_of_ne_nil _ (List.append_ne_nil_of_right_ne_nil _ later),
            List.getLast?_append_of_ne_nil _ later]
          exact ih (fun p member => nonempty p (List.mem_cons_of_mem _ member))
            fun p member => isLines p (List.mem_cons_of_mem _ member)

end Text

/-! ## Sections -/

namespace Section

open Text (IsLine joined)

/-- The separator line. -/
def separator : Text := "---"

/-- Sections, line by line, with separator lines between them. -/
def written : List (List Text) → Text
  | [] => []
  | [block] => joined "\n" block
  | block :: next :: more =>
      joined "\n" block ++ newline :: (separator ++ newline :: written (next :: more))

/-- The lines of a section that declare something. -/
def active (lines : Section) : List Text := (lines.map (·.2)).filter fun line => !line.isSilent

/-- A line that may stand in a section: it stays on its line, declares something and
separates nothing. -/
structure Stands (line : Text) : Prop where
  isLine : IsLine line
  loud : line.isSilent = false
  inside : isSeparator line = false

theorem Stands.ne_nil {line : Text} (stands : Stands line) : line ≠ [] := by
  rintro rfl
  exact absurd stands.loud (by decide)

/-- The lines of a written section; one with nothing in it has an empty line. -/
def padded (block : List Text) : List Text := if block = [] then [[]] else block

theorem joined_padded (block : List Text) : joined "\n" (padded block) = joined "\n" block := by
  rw [padded]
  split
  · rename_i empty
    rw [empty]
    rfl
  · rfl

theorem padded_ne_nil (block : List Text) : padded block ≠ [] := by
  rw [padded]
  split
  · exact List.cons_ne_nil _ _
  · assumption

/-- Every line of a padded section is empty or one of the section. -/
theorem mem_padded {block : List Text} {line : Text} (member : line ∈ padded block) :
    line = [] ∨ line ∈ block := by
  rw [padded] at member
  split at member
  · exact .inl (List.mem_singleton.1 member)
  · exact .inr member

variable {block : List Text} {blocks : List (List Text)}

theorem isLine_padded (stands : ∀ line ∈ block, Stands line) :
    ∀ line ∈ padded block, IsLine line := by
  intro line member
  rcases mem_padded member with rfl | inBlock
  · exact fun c inside => by cases inside
  · exact (stands line inBlock).isLine

theorem not_isSeparator_padded (stands : ∀ line ∈ block, Stands line) :
    ∀ line ∈ padded block, isSeparator line = false := by
  intro line member
  rcases mem_padded member with rfl | inBlock
  · decide
  · exact (stands line inBlock).inside

theorem filter_padded (stands : ∀ line ∈ block, Stands line) :
    (padded block).filter (fun line => !line.isSilent) = block := by
  rw [padded]
  split
  · rename_i empty
    rw [empty]
    decide
  · exact List.filter_eq_self.2 fun line member => by rw [(stands line member).loud]; rfl

/-! ## Cutting -/

theorem cut_append {before : List (Nat × Text)} {mark : Nat × Text} {after : List (Nat × Text)}
    (inside : ∀ line ∈ before, isSeparator line.2 = false) (isMark : isSeparator mark.2 = true) :
    cut (before ++ mark :: after) = before :: cut after := by
  induction before with
  | nil => rw [List.nil_append, cut, if_pos isMark]
  | cons line before ih =>
      have first := inside line (by simp)
      rw [List.cons_append, cut, if_neg (by rw [first]; decide),
        ih fun l member => inside l (List.mem_cons_of_mem _ member)]

theorem cut_of_inside {lines : List (Nat × Text)}
    (inside : ∀ line ∈ lines, isSeparator line.2 = false) : cut lines = [lines] := by
  induction lines with
  | nil => rfl
  | cons line rest ih =>
      have first := inside line (by simp)
      rw [cut, if_neg (by rw [first]; decide),
        ih fun l member => inside l (List.mem_cons_of_mem _ member)]

/-- The text with a newline at its end, unless there is nothing in it. -/
def closed (s : Text) : Text := if s = [] then [] else s.terminated

theorem terminated_append (s : Text) {t : Text} (ends : s.getLast? = some newline) :
    (s ++ t).terminated = s ++ closed t := by
  rw [closed]
  split
  · rename_i empty
    rw [empty, List.append_nil, Text.terminated, if_pos ends]
  · rename_i nonempty
    simp only [Text.terminated, List.getLast?_append_of_ne_nil _ nonempty]
    split
    · rfl
    · rw [List.append_assoc]

theorem terminated_written_cons (block next : List Text) (more : List (List Text)) :
    (written (block :: next :: more)).terminated =
      (padded block ++ [separator]).flatMap (· ++ [newline]) ++
        closed (written (next :: more)) := by
  have front : (padded block ++ [separator]).flatMap (· ++ [newline]) =
      joined "\n" block ++ newline :: (separator ++ [newline]) := by
    rw [List.flatMap_append, ← Text.joined_newline (padded_ne_nil block), joined_padded]
    simp
  rw [front, ← terminated_append]
  · rw [written]
    simp
  · rw [List.getLast?_append_of_ne_nil _ (List.cons_ne_nil _ _)]
    rfl

theorem lines_closed_cons (stands : ∀ line ∈ block, Stands line) (next : List Text)
    (more : List (List Text)) :
    (written (block :: next :: more)).terminated.lines =
      padded block ++ separator :: (closed (written (next :: more))).lines := by
  rw [terminated_written_cons, Text.lines_flatMap, List.append_assoc, List.singleton_append]
  intro line member
  rcases List.mem_append.1 member with inBlock | isMark
  · exact isLine_padded stands line inBlock
  · rw [List.mem_singleton.1 isMark]
    exact fun c => (show ∀ c ∈ separator, c.isLineBoundary = false by decide) c

theorem lines_closed_single (stands : ∀ line ∈ block, Stands line) :
    (closed (written [block])).lines = block := by
  rw [closed, written]
  cases block with
  | nil => rfl
  | cons line rest =>
      have areLines : ∀ l ∈ line :: rest, IsLine l := fun l member => (stands l member).isLine
      have last := Text.getLast?_joined (fun l member => (stands l member).ne_nil) areLines
      have nonempty : joined "\n" (line :: rest) ≠ [] :=
        Text.joined_ne_nil (stands line (by simp)).ne_nil rest
      have whole := Text.lines_flatMap areLines []
      rw [List.append_nil] at whole
      rw [if_neg nonempty, Text.terminated, if_neg last, Text.joined_newline (List.cons_ne_nil _ _),
        whole]
      exact List.append_nil _

/-- **Cutting the lines of written sections gives the sections back**, as far as
they declare something. -/
theorem active_cut {numbered : List (Nat × Text)} (nonempty : blocks ≠ [])
    (stands : ∀ block ∈ blocks, ∀ line ∈ block, Stands line)
    (lines : numbered.map (·.2) = (closed (written blocks)).lines) :
    (cut numbered).map active = blocks := by
  induction blocks generalizing numbered with
  | nil => exact absurd rfl nonempty
  | cons block more ih =>
      have standsBlock := stands block (by simp)
      cases more with
      | nil =>
          rw [lines_closed_single standsBlock] at lines
          have inside : ∀ line ∈ numbered, isSeparator line.2 = false := by
            intro line member
            exact (standsBlock line.2 (by rw [← lines]; exact List.mem_map_of_mem member)).inside
          have loud : block.filter (fun line => !line.isSilent) = block :=
            List.filter_eq_self.2 fun line member => by rw [(standsBlock line member).loud]; rfl
          rw [cut_of_inside inside, List.map_singleton, active, lines, loud]
      | cons next more =>
          have nonempty : written (block :: next :: more) ≠ [] := by simp [written]
          rw [closed, if_neg nonempty, lines_closed_cons standsBlock] at lines
          obtain ⟨before, later, rfl, mapped, split⟩ := List.map_eq_append_iff.1 lines
          obtain ⟨mark, after, rfl, isMark, mappedAfter⟩ := List.map_eq_cons_iff.1 split
          have inside : ∀ line ∈ before, isSeparator line.2 = false := by
            intro line member
            refine not_isSeparator_padded standsBlock line.2 ?_
            rw [← mapped]
            exact List.mem_map_of_mem member
          have separates : isSeparator mark.2 = true := by
            rw [isMark]
            decide
          rw [cut_append inside separates, List.map_cons,
            ih (List.cons_ne_nil _ _) (fun b member => stands b (List.mem_cons_of_mem _ member))
              mappedAfter, active, mapped, filter_padded standsBlock]

theorem snd_numbered {α : Type} (items : List α) : (Text.numbered items).map (·.2) = items := by
  rw [Text.numbered, List.map_map]
  exact List.zipIdx_map_fst 0 items

theorem noReturn_written (stands : ∀ block ∈ blocks, ∀ line ∈ block, Stands line) :
    ∀ c ∈ written blocks, c ≠ carriageReturn := by
  have inBlock {block : List Text} (standsBlock : ∀ line ∈ block, Stands line) :
      ∀ c ∈ joined "\n" block, c ≠ carriageReturn := by
    intro c member
    rcases Text.mem_joined member with rfl | ⟨line, inLines, inside⟩
    · decide
    · exact (standsBlock line inLines).isLine.ne_carriageReturn c inside
  induction blocks with
  | nil => exact fun c member => by cases member
  | cons block more ih =>
      have standsBlock := stands block (by simp)
      cases more with
      | nil => exact inBlock standsBlock
      | cons next more =>
          have later := ih fun b member => stands b (List.mem_cons_of_mem _ member)
          intro c member
          simp only [written, List.mem_append, List.mem_cons] at member
          rcases member with inFirst | rfl | inMark | rfl | inRest
          · exact inBlock standsBlock c inFirst
          · decide
          · exact (show ∀ c ∈ separator, c ≠ carriageReturn by decide) c inMark
          · decide
          · exact later c inRest

/-- Only a single empty section is written as the empty text. -/
theorem eq_of_written_eq_nil (nonempty : blocks ≠ [])
    (stands : ∀ block ∈ blocks, ∀ line ∈ block, Stands line) (empty : written blocks = []) :
    blocks = [[]] := by
  match blocks, nonempty with
  | [[]], _ => rfl
  | [line :: rest], _ =>
      exact absurd empty
        (Text.joined_ne_nil (stands (line :: rest) (by simp) line (by simp)).ne_nil rest)
  | block :: next :: more, _ => simp [written] at empty

/-- **Written sections are read as they were written.** -/
theorem active_all (nonempty : blocks ≠ [])
    (stands : ∀ block ∈ blocks, ∀ line ∈ block, Stands line) :
    (all (written blocks)).map active = blocks := by
  by_cases empty : written blocks = []
  · cases eq_of_written_eq_nil nonempty stands empty
    decide
  · rw [all, Text.normalNewlines, Text.unifyNewlines_of_ne (noReturn_written stands)]
    refine active_cut nonempty stands ?_
    rw [snd_numbered, closed, if_neg empty]

end Section

end RosInterface
