/-
# RosInterface.Proofs.Output.WriterRun -- what every run of a writer keeps

The steps of generated code are tame (`Proofs/Output/Writer`): each text is one line, and empty
lines are asked for behind a line only.  This is about any steps, with texts of several lines,
blank lines among them, and empty lines asked for anywhere and again.  They need only match: no
level is left that was not entered (`WriterStep.Matched`).

A step shows some lines, whatever was written before it (`WriterStep.shows`), and adds them at
the depth that the steps before it have opened (`Writer.written_step`).  Only `blank` adds empty
lines, and it looks back: it fills up those at the end.  So the first line is never empty, and a
line that is not empty is never blank (`Writer.Clean`), which is all that the text needs: empty
lines at the end are not in it (`Writer.text_of_clean`).
-/
import RosInterface.Proofs.Output.Writer
import Mathlib.Data.List.DropRight
import Mathlib.Data.List.Infix

set_option autoImplicit false

namespace RosInterface

open CodePoint (newline)

namespace Text

/-- The lines of a text that are not blank. -/
def filledLines (s : Text) : List Text := s.lines.filter fun line => !line.isBlank

/-- No line of a text goes on behind a boundary. -/
theorem isLine_of_mem_lines (s : Text) : ∀ line ∈ s.lines, line.IsLine := by
  have nothing : IsLine [] := fun c inside => by cases inside
  fun_induction lines s with
  | case1 => exact fun line member => by cases member
  | case2 => exact List.forall_mem_singleton.2 nothing
  | case3 c _ d more _ ih => exact List.forall_mem_cons.2 ⟨nothing, ih⟩
  | case4 c _ d more _ ih => exact List.forall_mem_cons.2 ⟨nothing, ih⟩
  | case5 c rest inside _ _ =>
      exact List.forall_mem_singleton.2 (List.forall_mem_singleton.2 (by simpa using inside))
  | case6 c rest inside line others whole ih =>
      rw [whole] at ih
      obtain ⟨first, later⟩ := List.forall_mem_cons.1 ih
      exact List.forall_mem_cons.2 ⟨List.forall_mem_cons.2 ⟨by simpa using inside, first⟩, later⟩

theorem oneLine_of_mem_filledLines {s line : Text} (member : line ∈ s.filledLines) :
    line.OneLine := by
  obtain ⟨inLines, shows⟩ := List.mem_filter.1 member
  exact ⟨isLine_of_mem_lines s line inLines, by simpa using shows⟩

end Text

namespace WriterStep

/-! ## Steps -/

/-- The step goes one level deeper. -/
def enters : WriterStep → Bool
  | .indent _ => true
  | _ => false

/-- The step goes back one level. -/
def leaves : WriterStep → Bool
  | .dedent => true
  | _ => false

/-- The levels that some steps enter and do not leave. -/
def depth (steps : List WriterStep) : Nat := steps.countP enters - steps.countP leaves

/-- No level is left that was not entered before. -/
def Matched (steps : List WriterStep) : Prop :=
  ∀ before, before <+: steps → before.countP leaves ≤ before.countP enters

/-- The lines that a step shows: those of its texts that are not blank, or its docstring. -/
def shows (comments : Bool) : WriterStep → List Text
  | .append text => text.elim [] Text.filledLines
  | .extend texts => texts.flatMap Text.filledLines
  | .indent text => text.elim [] Text.filledLines
  | .docstring text =>
      if comments then (text.map fun t => Writer.docQuotes ++ t ++ Writer.docQuotes).toList else []
  | .blank _ => []
  | .dedent => []

/-- The docstring of the step, if it is one, is a line. -/
def OnOneLine : WriterStep → Prop
  | .docstring (some text) => text.IsLine
  | _ => True

variable {steps : List WriterStep} {step : WriterStep} {comments : Bool}

instance (steps : List WriterStep) : Decidable (Matched steps) :=
  decidable_of_iff (∀ before ∈ steps.inits, before.countP leaves ≤ before.countP enters)
    (forall_congr' fun before => by rw [List.mem_inits])

instance : DecidablePred OnOneLine
  | .docstring (some text) => inferInstanceAs (Decidable text.IsLine)
  | .docstring none | .append _ | .extend _ | .blank _ | .indent _ | .dedent =>
      inferInstanceAs (Decidable True)

theorem Matched.of_append {more : List WriterStep} (matched : Matched (steps ++ more)) :
    Matched steps :=
  fun before first => matched before (first.trans (List.prefix_append steps more))

theorem Matched.countP_le (matched : Matched steps) :
    steps.countP leaves ≤ steps.countP enters := matched steps List.prefix_rfl

/-- What is shown is a line that is not blank. -/
theorem OnOneLine.oneLine (onOneLine : step.OnOneLine) :
    ∀ line ∈ step.shows comments, line.OneLine := by
  intro line member
  cases step with
  | append text | indent text =>
      cases text with
      | none => cases member
      | some text => exact Text.oneLine_of_mem_filledLines member
  | extend texts =>
      obtain ⟨text, -, inside⟩ := List.mem_flatMap.1 member
      exact Text.oneLine_of_mem_filledLines inside
  | docstring text =>
      have quotes : Writer.docQuotes.OneLine := by decide
      cases comments with
      | false => cases member
      | true =>
          cases text with
          | none => cases member
          | some text =>
              rw [List.mem_singleton.1 member]
              exact (quotes.append onOneLine).append quotes.isLine
  | blank count => cases member
  | dedent => cases member

end WriterStep

namespace Writer

open WriterStep (enters leaves depth Matched)

variable {w : Writer} {step : WriterStep} {steps : List WriterStep} {comments : Bool}

/-! ## One step -/

/-- The writer after it wrote some lines at its depth. -/
def addLines (w : Writer) (lines : List Text) : Writer :=
  { w with written := (lines.map (indentation w.level ++ ·)).reverse ++ w.written }

theorem addLines_addLines (w : Writer) (first second : List Text) :
    (w.addLines first).addLines second = w.addLines (first ++ second) := by
  simp [addLines]

theorem append_eq (w : Writer) (text : Text) : w.append text = w.addLines text.filledLines := by
  have each (lines : List Text) (w : Writer) : lines.foldl line w = w.addLines lines := by
    induction lines generalizing w with
    | nil => rfl
    | cons first lines ih =>
        rw [List.foldl_cons, ih, ← List.singleton_append, ← addLines_addLines]
        rfl
  exact each text.filledLines w

theorem foldl_append_eq (w : Writer) (texts : List Text) :
    texts.foldl append w = w.addLines (texts.flatMap Text.filledLines) := by
  induction texts generalizing w with
  | nil => rfl
  | cons text texts ih =>
      rw [List.foldl_cons, ih, append_eq, addLines_addLines, List.flatMap_cons]

/-- The depth behind a step. -/
def levelAfter (level : Nat) (step : WriterStep) : Nat :=
  if step.enters then level + 1 else if step.leaves then level - 1 else level

/-- The lines of a writer, in order. -/
def buffer (w : Writer) : List Text := w.written.reverse

/-- The empty lines at the end of some lines. -/
def gapLength (lines : List Text) : Nat := (lines.rtakeWhile (·.isEmpty)).length

/-- The lines that a step adds.  Empty lines are filled up, and only behind something; anything
else is what the step shows, at the depth of the writer. -/
def added (w : Writer) : WriterStep → List Text
  | .blank count =>
      if w.buffer = [] then [] else List.replicate (count - gapLength w.buffer) []
  | step => (step.shows w.comments).map (indentation w.level ++ ·)

theorem gapLength_buffer (w : Writer) :
    gapLength w.buffer = (w.written.takeWhile (·.isEmpty)).length := by
  rw [gapLength, buffer, List.rtakeWhile_reverse, List.length_reverse]

theorem buffer_blank (w : Writer) (count : Nat) :
    (w.blank count).buffer = w.buffer ++ w.added (.blank count) := by
  by_cases empty : w.written = []
  · simp [blank, added, buffer, empty]
  · simp [blank, added, buffer, empty, ← gapLength_buffer]

/-- What a step does to a writer. -/
structure StepsTo (w : Writer) (step : WriterStep) (next : Writer) : Prop where
  comments_eq : next.comments = w.comments
  level_eq : next.level = levelAfter w.level step
  buffer_eq : next.buffer = w.buffer ++ w.added step

theorem buffer_addLines (w : Writer) (lines : List Text) :
    (w.addLines lines).buffer = w.buffer ++ lines.map (indentation w.level ++ ·) := by
  simp [addLines, buffer]

/-- **A step adds its lines and changes the depth, and nothing else.** -/
theorem stepsTo_step (w : Writer) (step : WriterStep) : StepsTo w step (w.step step) := by
  cases step with
  | append text =>
      cases text with
      | none => exact ⟨rfl, rfl, (List.append_nil _).symm⟩
      | some text =>
          have same : w.step (.append (some text)) = w.addLines text.filledLines := append_eq w text
          rw [same]
          exact ⟨rfl, rfl, buffer_addLines w _⟩
  | extend texts =>
      have same : w.step (.extend texts) = w.addLines (texts.flatMap Text.filledLines) :=
        foldl_append_eq w texts
      rw [same]
      exact ⟨rfl, rfl, buffer_addLines w _⟩
  | blank count =>
      refine ⟨?_, ?_, buffer_blank w count⟩
      · rw [Writer.step, blank]
        split <;> rfl
      · rw [Writer.step, blank]
        split <;> rfl
  | docstring text =>
      obtain ⟨comments, level, written⟩ := w
      cases comments with
      | false => cases text <;> exact ⟨rfl, rfl, (List.append_nil _).symm⟩
      | true =>
          cases text with
          | none => exact ⟨rfl, rfl, (List.append_nil _).symm⟩
          | some text => exact ⟨rfl, rfl, buffer_addLines ⟨true, level, written⟩ [_]⟩
  | indent text =>
      cases text with
      | none => exact ⟨rfl, rfl, (List.append_nil _).symm⟩
      | some text =>
          have same : w.step (.indent (some text)) =
              { w.addLines text.filledLines with level := w.level + 1 } := by
            rw [Writer.step, Option.map_some, Option.getD_some, append_eq]
            rfl
          rw [same]
          exact ⟨rfl, rfl, buffer_addLines w _⟩
  | dedent => exact ⟨rfl, rfl, (List.append_nil _).symm⟩

/-! ## Runs -/

theorem run_concat (w : Writer) (steps : List WriterStep) (step : WriterStep) :
    w.run (steps ++ [step]) = (w.run steps).step step := run_append w steps [step]

theorem comments_run (comments : Bool) (steps : List WriterStep) :
    ((new comments).run steps).comments = comments := by
  induction steps using List.reverseRecOn with
  | nil => rfl
  | append_singleton steps step ih => rw [run_concat, (stepsTo_step _ step).comments_eq, ih]

/-- **The depth is the number of levels that are open**, if no other is left. -/
theorem level_run (comments : Bool) (matched : Matched steps) :
    ((new comments).run steps).level = depth steps := by
  induction steps using List.reverseRecOn with
  | nil => rfl
  | append_singleton steps step ih =>
      have earlier := matched.of_append.countP_le
      have all := matched.countP_le
      rw [run_concat, (stepsTo_step _ step).level_eq, ih matched.of_append]
      simp only [depth, levelAfter, List.countP_append, List.countP_singleton] at all ⊢
      cases step <;> simp [enters, leaves] at all ⊢ <;> omega

/-! ## Clean lines -/

/-- The first of the lines is not empty, and only empty ones are blank. -/
structure Clean (lines : List Text) : Prop where
  first : lines.head? ≠ some []
  filled : ∀ line ∈ lines, line = [] ∨ line.OneLine

theorem Clean.of_prefix {lines earlier : List Text} (clean : Clean lines)
    (begins : earlier <+: lines) : Clean earlier := by
  obtain ⟨later, rfl⟩ := begins
  refine ⟨fun same => clean.first ?_, fun line member => clean.filled line (by simp [member])⟩
  rw [List.head?_append, same]
  rfl

theorem Clean.append {lines more : List Text} (clean : Clean lines)
    (first : lines = [] → more.head? ≠ some [])
    (filled : ∀ line ∈ more, line = [] ∨ line.OneLine) : Clean (lines ++ more) := by
  refine ⟨?_, fun line member => (List.mem_append.1 member).elim (clean.filled line) (filled line)⟩
  cases lines with
  | nil => exact first rfl
  | cons line lines => exact clean.first

/-- What a step shows at some depth is a line that shows something. -/
theorem oneLine_of_shows (onOneLine : step.OnOneLine) (comments : Bool) (level : Nat) :
    ∀ line ∈ (step.shows comments).map (indentation level ++ ·), line.OneLine := by
  rw [List.forall_mem_map]
  intro line member
  exact (onOneLine.oneLine line member).behind (Entry.isLine_indentation level)

theorem added_of_ne_blank (w : Writer) (notBlank : ∀ count, step ≠ .blank count) :
    w.added step = (step.shows w.comments).map (indentation w.level ++ ·) := by
  cases step with
  | blank count => exact absurd rfl (notBlank count)
  | _ => rfl

theorem eq_nil_of_mem_added_blank (w : Writer) (count : Nat) :
    ∀ line ∈ w.added (.blank count), line = [] := by
  intro line member
  rw [added] at member
  split at member
  case isTrue => cases member
  case isFalse => exact List.eq_of_mem_replicate member

/-- **Lines stay clean**, whichever step is next. -/
theorem Clean.buffer_step (clean : Clean w.buffer) (onOneLine : step.OnOneLine) :
    Clean (w.step step).buffer := by
  rw [(stepsTo_step w step).buffer_eq]
  by_cases isBlank : ∃ count, step = .blank count
  · obtain ⟨count, rfl⟩ := isBlank
    have empty := eq_nil_of_mem_added_blank w count
    refine clean.append (fun nothing first => ?_) fun line member => .inl (empty line member)
    rw [added, if_pos nothing] at first
    cases first
  · rw [added_of_ne_blank w fun count same => isBlank ⟨count, same⟩]
    have oneLine := oneLine_of_shows onOneLine w.comments w.level
    refine clean.append (fun _ first => ?_) fun line member => .inr (oneLine line member)
    exact (oneLine [] (List.mem_of_head? first)).ne_nil rfl

theorem clean_run (comments : Bool) (onOneLine : ∀ step ∈ steps, step.OnOneLine) :
    Clean ((new comments).run steps).buffer := by
  induction steps using List.reverseRecOn with
  | nil => exact ⟨fun first => (by cases first), fun line member => by cases member⟩
  | append_singleton steps step ih =>
      rw [run_concat]
      exact (ih fun s member => onOneLine s (by simp [member])).buffer_step
        (onOneLine step (by simp))

/-! ## The lines that are shown -/

/-- The lines that some steps show, in order, each at the depth that the steps before its own
have opened. -/
def layOut (comments : Bool) (steps : List WriterStep) : List Text :=
  steps.zipIdx.flatMap fun placed =>
    (placed.1.shows comments).map (indentation (depth (steps.take placed.2)) ++ ·)

theorem layOut_concat (comments : Bool) (steps : List WriterStep) (step : WriterStep) :
    layOut comments (steps ++ [step]) =
      layOut comments steps ++ (step.shows comments).map (indentation (depth steps) ++ ·) := by
  have earlier : steps.zipIdx.flatMap (fun placed => (placed.1.shows comments).map
      (indentation (depth ((steps ++ [step]).take placed.2)) ++ ·)) = layOut comments steps := by
    refine List.flatMap_congr fun placed member => ?_
    rw [List.take_append_of_le_length (List.snd_lt_of_mem_zipIdx member).le]
  have last : (steps ++ [step]).take (0 + steps.length) = steps := by simp
  rw [layOut, List.zipIdx_append, List.flatMap_append, earlier, List.zipIdx_singleton,
    List.flatMap_singleton, last]

/-- **But for empty lines, a run writes what its steps show.** -/
theorem filter_buffer_run (matched : Matched steps)
    (onOneLine : ∀ step ∈ steps, step.OnOneLine) :
    ((new comments).run steps).buffer.filter (fun line => !line.isEmpty) =
      layOut comments steps := by
  induction steps using List.reverseRecOn with
  | nil => rfl
  | append_singleton steps step ih =>
      have before := ih matched.of_append fun s member => onOneLine s (by simp [member])
      rw [run_concat, (stepsTo_step _ step).buffer_eq, List.filter_append, before, layOut_concat]
      congr 1
      by_cases isBlank : ∃ count, step = .blank count
      · obtain ⟨count, rfl⟩ := isBlank
        have empty := eq_nil_of_mem_added_blank ((new comments).run steps) count
        exact List.filter_eq_nil_iff.2 fun line member => by simp [empty line member]
      · have oneLine := oneLine_of_shows (onOneLine step (by simp)) comments (depth steps)
        rw [added_of_ne_blank _ fun count same => isBlank ⟨count, same⟩, comments_run,
          level_run comments matched.of_append]
        exact List.filter_eq_self.2 fun line member => by simpa using (oneLine line member).ne_nil

/-! ## Empty lines at the end -/

theorem gapLength_concat_nil (lines : List Text) :
    gapLength (lines ++ [[]]) = gapLength lines + 1 := by
  rw [gapLength, List.rtakeWhile_concat_pos _ _ _ rfl, List.length_append]
  rfl

theorem gapLength_append_replicate (lines : List Text) (count : Nat) :
    gapLength (lines ++ List.replicate count []) = gapLength lines + count := by
  induction count with
  | zero => rw [List.replicate_zero, List.append_nil, Nat.add_zero]
  | succ count ih =>
      rw [List.replicate_succ', ← List.append_assoc, gapLength_concat_nil, ih, Nat.add_assoc]

/-- Empty lines are filled up to as many as asked for. -/
theorem gapLength_blank (count : Nat) (some_ : w.buffer ≠ []) :
    ∃ more, (w.step (.blank count)).buffer = w.buffer ++ List.replicate more [] ∧
      gapLength (w.step (.blank count)).buffer = max (gapLength w.buffer) count := by
  rw [(stepsTo_step w (.blank count)).buffer_eq, added, if_neg some_]
  refine ⟨_, rfl, ?_⟩
  rw [gapLength_append_replicate]
  omega

/-! ## The text -/

/-- The newlines at the end of clean lines are the empty ones there. -/
theorem rdropWhile_joined {lines : List Text} (clean : Clean lines) :
    (Text.joined "\n" lines).rdropWhile (· = newline) =
      Text.joined "\n" (lines.rdropWhile (·.isEmpty)) := by
  induction lines using List.reverseRecOn with
  | nil => rfl
  | append_singleton lines last ih =>
      rcases clean.filled last (by simp) with rfl | oneLine
      · -- the first line is not empty, so something stands before the newline
        have some_ : lines ≠ [] := by
          rintro rfl
          exact clean.first rfl
        rw [Text.joined_concat, List.append_nil, ← Text.joined_newline some_,
          List.rdropWhile_concat_pos _ _ _ (by simp), List.rdropWhile_concat_pos _ _ _ rfl,
          ih (clean.of_prefix (List.prefix_append lines [[]]))]
      · rw [List.rdropWhile_concat_neg _ _ _ (by simpa using oneLine.ne_nil),
          List.rdropWhile_eq_self_iff]
        intro nonempty ends
        refine getLast?_joined_concat lines oneLine.ne_nil oneLine.isLine ?_
        rw [List.getLast?_eq_some_getLast nonempty, of_decide_eq_true ends]

/-- Clean lines without the empty ones at the end are nothing, or end in a line. -/
theorem Clean.cases {lines : List Text} (clean : Clean lines) :
    lines.rdropWhile (·.isEmpty) = [] ∧ lines = [] ∨
      ∃ earlier last, lines.rdropWhile (·.isEmpty) = earlier ++ [last] ∧ last.OneLine := by
  rcases List.eq_nil_or_concat' (lines.rdropWhile (·.isEmpty)) with nothing | ⟨earlier, last, kept⟩
  · have allEmpty := List.rdropWhile_eq_nil_iff.1 nothing
    cases lines with
    | nil => exact .inl ⟨nothing, rfl⟩
    | cons first lines =>
        have empty := List.isEmpty_iff.1 (allEmpty first List.mem_cons_self)
        exact absurd (congrArg some empty) clean.first
  · have nonempty : last ≠ [] := by
      simpa [kept] using List.rdropWhile_last_not (·.isEmpty) lines (by simp [kept])
    have member : last ∈ lines :=
      (List.rdropWhile_prefix (·.isEmpty) lines).subset (by simp [kept])
    exact .inr ⟨earlier, last, kept, (clean.filled last member).resolve_left nonempty⟩

theorem Clean.not_isBlank_last {lines : List Text} (clean : Clean lines) :
    ∀ last ∈ (lines.rdropWhile (·.isEmpty)).getLast?, last.isBlank = false := by
  intro other isLast
  rcases clean.cases with ⟨nothing, -⟩ | ⟨earlier, last, kept, oneLine⟩
  · rw [nothing] at isLast
    cases isLast
  · rw [kept, List.getLast?_concat] at isLast
    cases isLast
    exact oneLine.shows

/-- **The text of clean lines** is closed by one newline, and what stands before it are the lines
without the empty ones at the end. -/
theorem text_of_clean (clean : Clean w.buffer) :
    ∃ body, w.text = body ++ [newline] ∧ body.getLast? ≠ some newline ∧
      body.lines = w.buffer.rdropWhile (·.isEmpty) := by
  have text_eq : w.text = Text.joined "\n" (w.buffer.rdropWhile (·.isEmpty)) ++ [newline] := by
    rw [← rdropWhile_joined clean]
    rfl
  refine ⟨_, text_eq, ?_⟩
  have areLines : ∀ line ∈ w.buffer, line.IsLine := by
    intro line member
    rcases clean.filled line member with rfl | oneLine
    · exact fun c inside => by cases inside
    · exact oneLine.isLine
  rcases clean.cases with ⟨nothing, -⟩ | ⟨earlier, last, kept, oneLine⟩
  · rw [nothing]
    exact ⟨by decide, rfl⟩
  · rw [kept]
    refine ⟨getLast?_joined_concat earlier oneLine.ne_nil oneLine.isLine, ?_⟩
    have inBuffer : ∀ line ∈ earlier, line ∈ w.buffer := fun line member =>
      (List.rdropWhile_prefix (·.isEmpty) w.buffer).subset
        (kept ▸ List.mem_append_left [last] member)
    rw [Text.joined_concat, Text.lines_flatMap fun line member =>
      areLines line (inBuffer line member), Text.lines_of_oneLine oneLine]

/-- The text begins with a newline where nothing was written, and only there. -/
theorem head?_text_of_clean (clean : Clean w.buffer) :
    w.text.head? = some newline ↔ w.buffer = [] := by
  constructor
  · intro begins
    obtain ⟨body, whole, -, lines⟩ := text_of_clean clean
    rcases clean.cases with ⟨-, nothing⟩ | ⟨earlier, last, kept, -⟩
    · exact nothing
    · have first := (clean.of_prefix (List.rdropWhile_prefix (·.isEmpty) w.buffer)).first
      rw [← lines] at first kept
      cases body with
      | nil => simp [Text.lines] at kept
      | cons c body =>
          rw [whole, List.cons_append, List.head?_cons, Option.some.injEq] at begins
          rw [begins, Text.lines_newline] at first
          exact absurd rfl first
  · intro nothing
    have empty : w.written = [] := List.reverse_eq_nil_iff.1 nothing
    rw [Writer.text, empty]
    rfl

/-! ## All of it -/

/-- What a writer keeps that was made to perform some steps. -/
structure KeepsLayout (comments : Bool) (steps : List WriterStep) (w : Writer) : Prop where
  /-- But for empty lines, the lines are those that the steps show, each at its depth. -/
  shown : w.buffer.filter (fun line => !line.isEmpty) = layOut comments steps
  /-- Empty lines come from `blank` only: any other step adds what it shows, and that is none. -/
  added : ∀ step : WriterStep, step.OnOneLine → (∀ count, step ≠ .blank count) →
    (w.step step).buffer =
      w.buffer ++ (step.shows comments).map (indentation (depth steps) ++ ·) ∧
    [] ∉ (step.shows comments).map (indentation (depth steps) ++ ·)
  /-- The first line is not empty. -/
  first : w.buffer.head? ≠ some []
  /-- Behind a line, `blank` fills up the empty ones at the end. -/
  blank : ∀ count, w.buffer ≠ [] →
    ∃ more, (w.step (.blank count)).buffer = w.buffer ++ List.replicate more [] ∧
      gapLength (w.step (.blank count)).buffer = max (gapLength w.buffer) count
  /-- Where there is no line, `blank` writes none. -/
  blank_nothing : ∀ count, w.buffer = [] → (w.step (.blank count)).buffer = []
  /-- The text is closed by one newline; before it there are the lines up to the last that is
  not empty, and that one is not blank. -/
  text : ∃ body, w.text = body ++ [newline] ∧ body.getLast? ≠ some newline ∧
    body.lines = w.buffer.rdropWhile (·.isEmpty) ∧
    ∀ last ∈ body.lines.getLast?, last.isBlank = false
  /-- The text begins with a newline only where nothing was written. -/
  begins : w.text.head? = some newline ↔ w.buffer = []

/-- **A writer keeps its layout over every run.** -/
theorem run_keepsLayout (matched : Matched steps) (onOneLine : ∀ step ∈ steps, step.OnOneLine) :
    KeepsLayout comments steps ((new comments).run steps) where
  shown := filter_buffer_run matched onOneLine
  added := by
    intro step single notBlank
    have oneLine := oneLine_of_shows single comments (depth steps)
    refine ⟨?_, fun member => (oneLine [] member).ne_nil rfl⟩
    rw [(stepsTo_step _ step).buffer_eq, added_of_ne_blank _ notBlank, comments_run,
      level_run comments matched]
  first := (clean_run comments onOneLine).first
  blank := fun count some_ => gapLength_blank count some_
  blank_nothing := by
    intro count nothing
    rw [(stepsTo_step _ _).buffer_eq, Writer.added, if_pos nothing, nothing]
    rfl
  text := by
    obtain ⟨body, whole, ends, lines⟩ := text_of_clean (clean_run comments onOneLine)
    refine ⟨body, whole, ends, lines, fun last isLast => ?_⟩
    rw [lines] at isLast
    exact (clean_run comments onOneLine).not_isBlank_last last isLast
  begins := head?_text_of_clean (clean_run comments onOneLine)

/-- Empty lines that are asked for before anything and twice, a text with blank lines in it, a
docstring, and a level that is left again. -/
def nestedSteps : List WriterStep :=
  [.blank 2, .indent (some "class A:"), .docstring (some "Note."), .append (some "x\n \n\ny"),
   .blank 1, .blank 2, .dedent, .extend ["", "z"], .blank 3]

theorem run_keepsLayout_nested :
    Matched nestedSteps ∧ (∀ step ∈ nestedSteps, step.OnOneLine) ∧
      KeepsLayout true nestedSteps ((new true).run nestedSteps) ∧
      layOut true nestedSteps = ["class A:", "    \"\"\"Note.\"\"\"", "    x", "    y", "z"] := by
  have matched : Matched nestedSteps := by decide
  have onOneLine : ∀ step ∈ nestedSteps, step.OnOneLine := by decide
  exact ⟨matched, onOneLine, run_keepsLayout matched onOneLine, by decide +kernel⟩

end Writer

end RosInterface
