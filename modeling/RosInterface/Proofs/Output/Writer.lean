/-
# RosInterface.Proofs.Output.Writer -- what writer steps come to

A writer looks back when it writes empty lines, so what a step does depends on the lines that
are already there.  For the code that is generated it hardly does: every text that is passed to
the writer is one line that shows something, and empty lines are asked for only behind such a
line.  Then a list of steps always writes the same `Writer.Entry`s, one for each line, each
docstring and each gap, with the depth at which it stands.  `Writer.Opens` says that it does so
at any place and `Writer.Continues` that it does so behind a line that shows something; both are
closed under what the generator does with steps: putting lists behind each other, going one
level deeper, leaving a gap.

`Writer.Opens.lines_text` is what they are for: the lines of the generated text are those of the
entries, with docstrings or without them.
-/
import RosInterface.Output.Writer
import RosInterface.Proofs.Definition.Lines

set_option autoImplicit false

namespace RosInterface

open CodePoint (newline)
open WriterStep (write)

namespace Text

/-! ## Single lines -/

/-- The text is a line that shows something. -/
structure OneLine (s : Text) : Prop where
  isLine : s.IsLine
  shows : s.isBlank = false

instance (s : Text) : Decidable s.IsLine := inferInstanceAs (Decidable (∀ c ∈ s, _))

instance (s : Text) : Decidable s.OneLine :=
  decidable_of_iff (s.IsLine ∧ s.isBlank = false) ⟨fun h => ⟨h.1, h.2⟩, fun h => ⟨h.1, h.2⟩⟩

theorem OneLine.ne_nil {s : Text} (oneLine : s.OneLine) : s ≠ [] := by
  rintro rfl
  exact absurd oneLine.shows (by decide)

theorem IsLine.append {s t : Text} (first : s.IsLine) (second : t.IsLine) : (s ++ t).IsLine := by
  intro c member
  exact (List.mem_append.1 member).elim (first c) (second c)

theorem IsLine.between {s opening closing : Text} (inside : s.IsLine) (first : opening.IsLine)
    (last : closing.IsLine) : (opening ++ s ++ closing).IsLine :=
  (first.append inside).append last

/-- What begins with something that is shown is shown. -/
theorem OneLine.append {s t : Text} (first : s.OneLine) (second : t.IsLine) :
    (s ++ t).OneLine := by
  refine ⟨first.isLine.append second, ?_⟩
  rw [isBlank, List.all_append, ← isBlank, first.shows, Bool.false_and]

/-- What something shown stands behind is shown with it. -/
theorem OneLine.behind {s t : Text} (second : t.OneLine) (first : s.IsLine) :
    (s ++ t).OneLine := by
  refine ⟨first.append second.isLine, ?_⟩
  rw [isBlank, List.all_append, ← isBlank, ← isBlank, second.shows, Bool.and_false]

theorem lines_of_oneLine {s : Text} (oneLine : s.OneLine) : lines s = [s] := by
  have single {c : CodePoint} {rest : Text} (isLine : IsLine (c :: rest)) :
      lines (c :: rest) = [c :: rest] := by
    induction rest generalizing c with
    | nil =>
        rw [lines.eq_def]
        simp [isLine c List.mem_cons_self, lines]
    | cons d rest ih =>
        have behind := ih (c := d) fun e member => isLine e (List.mem_cons_of_mem _ member)
        rw [lines.eq_def]
        simp [isLine c List.mem_cons_self, behind]
  obtain ⟨c, rest, rfl⟩ := List.exists_cons_of_ne_nil oneLine.ne_nil
  exact single oneLine.isLine

/-- A text that is put together ends with its last line. -/
theorem joined_concat (earlier : List Text) (last : Text) :
    joined "\n" (earlier ++ [last]) = earlier.flatMap (· ++ [newline]) ++ last := by
  have whole := joined_newline (show earlier ++ [last] ≠ [] by simp)
  rw [List.flatMap_append, List.flatMap_singleton, ← List.append_assoc] at whole
  exact List.append_cancel_right whole

/-- Each line of the text is closed by a newline, and there is nothing else in it. -/
def ClosesLines (s : Text) : Prop := s = s.lines.flatMap (· ++ [newline])

end Text

namespace Writer

/-! ## Entries -/

/-- What a step writes. -/
inductive Entry where
  | line (level : Nat) (text : Text)
  | docstring (level : Nat) (text : Text)
  | gap (count : Nat)

namespace Entry

/-- The lines of an entry; a writer without comments leaves docstrings out. -/
def lines (comments : Bool) : Entry → List Text
  | .line level text => [indentation level ++ text]
  | .docstring level text =>
      if comments then [indentation level ++ (docQuotes ++ text ++ docQuotes)] else []
  | .gap count => List.replicate count []

/-- The text of an entry is a line. -/
def OnOneLine : Entry → Prop
  | .line _ text => text.OneLine
  | .docstring _ text => text.IsLine
  | .gap _ => True

theorem isLine_indentation (level : Nat) : (indentation level).IsLine := by
  intro c member
  rw [List.eq_of_mem_replicate member]
  decide

theorem OnOneLine.isLine {entry : Entry} (onOneLine : entry.OnOneLine) {comments : Bool} :
    ∀ line ∈ entry.lines comments, line.IsLine := by
  intro line member
  cases entry with
  | line level text =>
      rw [lines, List.mem_singleton] at member
      rw [member]
      exact (isLine_indentation level).append (Text.OneLine.isLine onOneLine)
  | docstring level text =>
      have quotes : docQuotes.IsLine := by decide
      rw [lines] at member
      split at member
      · rw [List.mem_singleton] at member
        rw [member]
        exact (isLine_indentation level).append ((quotes.append onOneLine).append quotes)
      · cases member
  | gap count =>
      rw [lines] at member
      rw [List.eq_of_mem_replicate member]
      exact fun c inside => by cases inside

end Entry

/-- The writer after it wrote some entries. -/
def add (w : Writer) (entries : List Entry) : Writer :=
  { w with written := (entries.flatMap (Entry.lines w.comments)).reverse ++ w.written }

theorem add_add (w : Writer) (first second : List Entry) :
    (w.add first).add second = w.add (first ++ second) := by
  simp [add, List.flatMap_append]

theorem run_append (w : Writer) (steps more : List WriterStep) :
    w.run (steps ++ more) = (w.run steps).run more := List.foldl_append

/-- The last line shows something. -/
def Filled (w : Writer) : Prop := ∃ last earlier, w.written = last :: earlier ∧ last ≠ []

theorem filled_add_line (w : Writer) (level : Nat) {text : Text} (oneLine : text.OneLine) :
    (w.add [.line level text]).Filled :=
  ⟨_, _, rfl, List.append_ne_nil_of_right_ne_nil _ oneLine.ne_nil⟩

theorem append_of_oneLine (w : Writer) {text : Text} (oneLine : text.OneLine) :
    w.append text = w.add [.line w.level text] := by
  have kept : text.lines.filter (fun line => !line.isBlank) = [text] := by
    rw [Text.lines_of_oneLine oneLine]
    simp [oneLine.shows]
  rw [append, kept]
  rfl

/-- Behind a line that shows something, empty lines are written as many as asked for. -/
theorem Filled.blank_eq {w : Writer} (filled : w.Filled) (count : Nat) :
    w.blank count = w.add [.gap count] := by
  obtain ⟨last, earlier, written, nonempty⟩ := filled
  have none_ : (w.written.takeWhile (·.isEmpty)).length = 0 := by
    rw [written, List.takeWhile_cons_of_neg (by simpa using nonempty), List.length_nil]
  rw [blank, if_neg (by simp [written]), none_]
  simp [add, Entry.lines]

theorem docstring_eq (w : Writer) (text : Text) :
    w.docstring text = w.add [.docstring w.level text] := by
  obtain ⟨comments, level, written⟩ := w
  cases comments <;> rfl

theorem Filled.add_docstring {w : Writer} (filled : w.Filled) (level : Nat) (text : Text) :
    (w.add [.docstring level text]).Filled := by
  obtain ⟨comments, depth, written⟩ := w
  cases comments with
  | false => exact filled
  | true =>
      have quoted : docQuotes ++ text ++ docQuotes ≠ [] :=
        List.append_ne_nil_of_right_ne_nil _ (by decide)
      exact ⟨_, _, rfl, List.append_ne_nil_of_right_ne_nil _ quoted⟩

/-! ## Steps that always write the same -/

/-- Wherever they stand at a depth, the steps write the entries, and the last line then shows
something. -/
structure Opens (level : Nat) (steps : List WriterStep) (entries : List Entry) : Prop where
  onOneLine : ∀ entry ∈ entries, entry.OnOneLine
  run_eq : ∀ w : Writer, w.level = level → w.run steps = w.add entries
  filled : ∀ w : Writer, (w.add entries).Filled

/-- Behind a line that shows something, the steps write the entries, and leave such a line at
the end. -/
structure Continues (level : Nat) (steps : List WriterStep) (entries : List Entry) : Prop where
  onOneLine : ∀ entry ∈ entries, entry.OnOneLine
  run_eq : ∀ w : Writer, w.level = level → w.Filled → w.run steps = w.add entries
  filled : ∀ w : Writer, w.Filled → (w.add entries).Filled

section Closure

variable {level : Nat} {steps more : List WriterStep} {entries others : List Entry}

theorem Opens.continues (opens : Opens level steps entries) : Continues level steps entries :=
  ⟨opens.onOneLine, fun w deep _ => opens.run_eq w deep, fun w _ => opens.filled w⟩

theorem continues_nil (level : Nat) : Continues level [] [] :=
  ⟨fun entry member => by simp at member, fun _ _ _ => rfl, fun _ filled => filled⟩

theorem Continues.append (first : Continues level steps entries)
    (second : Continues level more others) :
    Continues level (steps ++ more) (entries ++ others) := by
  refine ⟨List.forall_mem_append.2 ⟨first.onOneLine, second.onOneLine⟩, fun w deep filled => ?_,
    fun w filled => ?_⟩
  · rw [run_append, first.run_eq w deep filled,
      second.run_eq (w.add entries) deep (first.filled w filled), add_add]
  · rw [← add_add]
    exact second.filled _ (first.filled w filled)

theorem Opens.append (first : Opens level steps entries) (second : Continues level more others) :
    Opens level (steps ++ more) (entries ++ others) := by
  refine ⟨List.forall_mem_append.2 ⟨first.onOneLine, second.onOneLine⟩, fun w deep => ?_,
    fun w => ?_⟩
  · rw [run_append, first.run_eq w deep, second.run_eq (w.add entries) deep (first.filled w),
      add_add]
  · rw [← add_add]
    exact second.filled _ (first.filled w)

theorem opens_write (level : Nat) {text : Text} (oneLine : text.OneLine) :
    Opens level [write text] [.line level text] := by
  refine ⟨List.forall_mem_singleton.2 oneLine, ?_, fun w => filled_add_line w level oneLine⟩
  rintro w rfl
  exact append_of_oneLine w oneLine

theorem continues_writes (level : Nat) {texts : List Text}
    (oneLine : ∀ text ∈ texts, text.OneLine) :
    Continues level (texts.map write) (texts.map (.line level)) := by
  induction texts with
  | nil => exact continues_nil level
  | cons text texts ih =>
      obtain ⟨first, others⟩ := List.forall_mem_cons.1 oneLine
      exact ((opens_write level first).append (ih others)).continues

theorem opens_writes (level : Nat) {first : Text} {others : List Text}
    (oneLine : ∀ text ∈ first :: others, text.OneLine) :
    Opens level ((first :: others).map write) ((first :: others).map (.line level)) :=
  (opens_write level (oneLine first List.mem_cons_self)).append
    (continues_writes level fun text member => oneLine text (List.mem_cons_of_mem _ member))

/-- Lines that are written in one step are written as in several. -/
theorem opens_extend (level : Nat) {first : Text} {others : List Text}
    (oneLine : ∀ text ∈ first :: others, text.OneLine) :
    Opens level [.extend (first :: others)] ((first :: others).map (.line level)) := by
  have written := opens_writes level oneLine
  refine ⟨written.onOneLine, fun w deep => ?_, written.filled⟩
  calc w.run [.extend (first :: others)]
    _ = w.run ((first :: others).map write) := (List.foldl_map (f := write) (g := step)).symm
    _ = w.add ((first :: others).map (.line level)) := written.run_eq w deep

/-- Lists that each stand behind another one. -/
theorem continues_flatten {lists : List (List WriterStep)} {blocks : List (List Entry)}
    (each : List.Forall₂ (Continues level) lists blocks) :
    Continues level lists.flatten blocks.flatten := by
  induction each with
  | nil => exact continues_nil level
  | cons first _ ih => exact first.append ih

/-- A gap is what it is asked to be where something is written next. -/
theorem Opens.behind_gap (opens : Opens level steps entries) (count : Nat) :
    Continues level (.blank count :: steps) (.gap count :: entries) := by
  refine ⟨List.forall_mem_cons.2 ⟨trivial, opens.onOneLine⟩, fun w deep filled => ?_,
    fun w _ => ?_⟩
  · calc w.run (.blank count :: steps)
      _ = (w.blank count).run steps := rfl
      _ = (w.add [.gap count]).run steps := by rw [filled.blank_eq]
      _ = (w.add [.gap count]).add entries := opens.run_eq (w.add [.gap count]) deep
      _ = w.add (.gap count :: entries) := add_add w _ _
  · rw [← List.singleton_append, ← add_add]
    exact opens.filled _

/-- Lists with a gap between neighbours. -/
theorem opens_intercalate {first : List WriterStep} {others : List (List WriterStep)}
    {blocks : List (List Entry)} (each : List.Forall₂ (Opens level) (first :: others) blocks)
    (count : Nat) :
    Opens level ([.blank count].intercalate (first :: others))
      ([.gap count].intercalate blocks) := by
  induction others generalizing first blocks with
  | nil =>
      obtain _ | ⟨opens, rest⟩ := each
      cases rest
      simpa [List.intercalate] using opens
  | cons second others ih =>
      obtain _ | ⟨opens, rest⟩ := each
      have behind := opens.append ((ih rest).behind_gap count)
      cases rest
      simpa [List.intercalate] using behind

/-- A docstring leaves a line that shows something there also where it is not written. -/
theorem continues_docstring (level : Nat) {text : Text} (isLine : text.IsLine) :
    Continues level [.docstring (some text)] [.docstring level text] := by
  refine ⟨List.forall_mem_singleton.2 isLine, ?_, fun w filled => filled.add_docstring level text⟩
  rintro w rfl -
  exact docstring_eq w text

/-- A header line opens what is one level deeper than it. -/
theorem Continues.below (body : Continues (level + 1) steps entries) {header : Text}
    (oneLine : header.OneLine) :
    Opens level (.indent (some header) :: (steps ++ [.dedent]))
      (.line level header :: entries) := by
  refine ⟨List.forall_mem_cons.2 ⟨oneLine, body.onOneLine⟩, ?_, fun w => ?_⟩
  · rintro w rfl
    let deeper : Writer := { w.add [.line w.level header] with level := w.level + 1 }
    have filled : deeper.Filled := filled_add_line w w.level oneLine
    have opened : w.step (.indent (some header)) = deeper := by
      simp only [step, Option.map_some, Option.getD_some, append_of_oneLine w oneLine]
      rfl
    calc w.run (.indent (some header) :: (steps ++ [.dedent]))
      _ = (w.step (.indent (some header))).run (steps ++ [.dedent]) := rfl
      _ = (deeper.run steps).run [.dedent] := by rw [opened, run_append]
      _ = (deeper.add entries).run [.dedent] := by rw [body.run_eq deeper rfl filled]
      _ = (w.add [.line w.level header]).add entries := rfl
      _ = w.add (.line w.level header :: entries) := add_add w _ _
  · rw [← List.singleton_append, ← add_add]
    exact body.filled _ (filled_add_line w level oneLine)

/-- A class: its header, its docstring, and its body one level deeper. -/
theorem opens_block (level : Nat) {header doc : Text} (oneLine : header.OneLine)
    (isLine : doc.IsLine) (body : Continues (level + 1) steps entries) :
    Opens level (WriterStep.block header doc steps)
      (.line level header :: .docstring (level + 1) doc :: entries) :=
  ((continues_docstring (level + 1) isLine).append body).below oneLine

end Closure

/-! ## The text -/

/-- Joined lines end in a newline only if the last one is empty. -/
theorem getLast?_joined_concat (lines : List Text) {last : Text} (nonempty : last ≠ [])
    (isLine : last.IsLine) : (Text.joined "\n" (lines ++ [last])).getLast? ≠ some newline := by
  rw [Text.joined_concat, List.getLast?_append_of_ne_nil _ nonempty]
  intro same
  exact absurd (isLine newline (List.mem_of_getLast? same)) (by decide)

/-- Each line of a text is closed by a newline. -/
theorem Filled.text_eq {w : Writer} (filled : w.Filled)
    (areLines : ∀ line ∈ w.written, line.IsLine) :
    w.text = w.written.reverse.flatMap (· ++ [newline]) := by
  obtain ⟨last, earlier, written, nonempty⟩ := filled
  have pieces : w.written.reverse = earlier.reverse ++ [last] := by
    rw [written, List.reverse_cons]
  have joined : Text.joined [newline] w.written.reverse =
      earlier.reverse.flatMap (· ++ [newline]) ++ last := by
    rw [pieces]
    exact Text.joined_concat _ last
  -- the last line shows something, so no newline is taken off
  have kept : (Text.joined [newline] w.written.reverse).reverse.dropWhile (· = newline) =
      (Text.joined [newline] w.written.reverse).reverse := by
    refine Text.dropWhile_of_stops fun c first => ?_
    rw [List.head?_reverse, pieces] at first
    rw [decide_eq_false_iff_not]
    rintro rfl
    exact getLast?_joined_concat _ nonempty (areLines last (by simp [written])) first
  rw [text, kept, List.reverse_reverse, joined, pieces, List.flatMap_append,
    List.flatMap_singleton, List.append_assoc]

/-- A text is cut into the lines that it was made of. -/
theorem Filled.lines_text {w : Writer} (filled : w.Filled)
    (areLines : ∀ line ∈ w.written, line.IsLine) : w.text.lines = w.written.reverse := by
  rw [filled.text_eq areLines, ← List.append_nil (w.written.reverse.flatMap _),
    Text.lines_flatMap fun line member => areLines line (List.mem_reverse.1 member)]
  exact List.append_nil _

/-- What a writer was made to write, and that it is lines of which the last one shows something. -/
theorem Opens.written {steps : List WriterStep} {entries : List Entry}
    (opens : Opens 0 steps entries) (comments : Bool) :
    ((new comments).run steps).Filled ∧
      ((new comments).run steps).written.reverse = entries.flatMap (Entry.lines comments) ∧
      ∀ line ∈ ((new comments).run steps).written, line.IsLine := by
  have written : ((new comments).add entries).written.reverse =
      entries.flatMap (Entry.lines comments) := by
    simp [add, new]
  rw [opens.run_eq (new comments) rfl]
  refine ⟨opens.filled (new comments), written, fun line member => ?_⟩
  rw [← List.mem_reverse, written] at member
  obtain ⟨entry, inEntries, inside⟩ := List.mem_flatMap.1 member
  exact (opens.onOneLine entry inEntries).isLine line inside

/-- **A generated text is the lines of its entries, each closed by a newline.** -/
theorem Opens.text_eq {steps : List WriterStep} {entries : List Entry}
    (opens : Opens 0 steps entries) (comments : Bool) :
    ((new comments).run steps).text =
      (entries.flatMap (Entry.lines comments)).flatMap (· ++ [newline]) := by
  obtain ⟨filled, written, areLines⟩ := opens.written comments
  rw [filled.text_eq areLines, written]

/-- **The lines of a generated text are those of its entries.** -/
theorem Opens.lines_text {steps : List WriterStep} {entries : List Entry}
    (opens : Opens 0 steps entries) (comments : Bool) :
    ((new comments).run steps).text.lines = entries.flatMap (Entry.lines comments) := by
  obtain ⟨filled, written, areLines⟩ := opens.written comments
  rw [filled.lines_text areLines, written]

/-- The text has the lines of some entries, each closed by a newline. -/
structure Renders (comments : Bool) (entries : List Entry) (s : Text) : Prop where
  lines_eq : s.lines = entries.flatMap (Entry.lines comments)
  closed : s.ClosesLines

theorem Opens.renders {steps : List WriterStep} {entries : List Entry}
    (opens : Opens 0 steps entries) (comments : Bool) :
    Renders comments entries ((new comments).run steps).text := by
  have lines := opens.lines_text comments
  refine ⟨lines, ?_⟩
  rw [Text.ClosesLines, lines]
  exact opens.text_eq comments

end Writer

end RosInterface
