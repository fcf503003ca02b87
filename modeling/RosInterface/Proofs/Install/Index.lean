/-
# RosInterface.Proofs.Install.Index -- what the lines of an index name

A line is *listed* when it is about an interface file; the others stand for nothing.  A
listed line that is read names a kind and a name (`IndexEntry.Names`), and these are still
what the path of the definition shows after its suffix has been changed
(`IndexEntry.ofLine_eq_some_iff`, `IndexEntry.Placed`).  An index file gives one entry for
each of its listed lines, in order (`IndexEntry.forall₂_filter_listed`).
-/
import RosInterface.Install.Index
import RosInterface.Proofs.Definition.Lines
import RosInterface.Proofs.Files.Path
import RosInterface.Proofs.Outcome

set_option autoImplicit false

namespace RosInterface

namespace Path

variable {p : Path} {suffix : Text}

theorem name_withSuffix : (p.withSuffix suffix).name = p.stem ++ suffix := by
  rw [name, withSuffix, List.getLastD_concat]

/-- A text that spells any component spells a last one, and not an empty one. -/
theorem name_ofText_ne_nil {s : Text} (some_ : (ofText s).components ≠ []) :
    (ofText s).name ≠ [] := by
  have last : (ofText s).name ∈ componentsOf s := by
    rw [name, List.getLastD_eq_getLast?, List.getLast?_eq_some_getLast some_]
    exact List.getLast_mem some_
  have kept := (List.mem_filter.1 last).2
  simp only [decide_eq_true_eq] at kept
  exact kept.1

end Path

theorem Kind.dot_not_mem_text (kind : Kind) : CodePoint.dot ∉ kind.text := by
  cases kind <;> decide

theorem Kind.text_ne_nil (kind : Kind) : kind.text ≠ [] := by cases kind <;> decide

theorem Kind.ofText?_eq_some_iff {s : Text} {kind : Kind} :
    ofText? s = some kind ↔ s = kind.text := by
  constructor
  · intro found
    have holds := List.find?_some found
    rw [decide_eq_true_eq] at holds
    exact holds.symm
  · rintro rfl
    cases kind <;> decide

namespace IndexEntry

/-! ## One line -/

/-- The line is about an interface file. -/
def Listed (line : Text) : Prop := listedSuffix <:+ line.trim

instance : DecidablePred Listed := fun line => inferInstanceAs (Decidable (_ <:+ line.trim))

/-- What a line says behind its first slash. -/
def fileText (line : Text) : Text := (line.trim.dropWhile (· ≠ CodePoint.slash)).drop 1

variable {line : Text} {entry : IndexEntry}

theorem ofLine_of_not_listed (other : ¬ Listed line) : ofLine line = .ok none := by
  have ends : ¬ listedSuffix.isSuffixOf line.trim = true := by
    rw [List.isSuffixOf_iff_suffix]
    exact other
  exact if_neg ends

/-- A listed line stands for an entry exactly when it begins with a kind and something
follows its first slash. -/
theorem ofLine_eq_ok_iff (listed : Listed line) {found : Option IndexEntry} :
    ofLine line = .ok found ↔
      ∃ kind : Kind, line.trim.takeWhile (· ≠ CodePoint.slash) = kind.text ∧ fileText line ≠ [] ∧
        found = some ⟨kind, (Path.ofText (fileText line)).withSuffix kind.suffix⟩ := by
  have ends : listedSuffix.isSuffixOf line.trim = true := List.isSuffixOf_iff_suffix.2 listed
  rw [ofLine]
  simp only [if_pos ends]
  cases kindFound : Kind.ofText? (line.trim.takeWhile (· ≠ CodePoint.slash)) with
  | none =>
      constructor
      · intro read
        cases read
      · rintro ⟨kind, begins, -⟩
        rw [Kind.ofText?_eq_some_iff.2 begins] at kindFound
        cases kindFound
  | some kind =>
      have begins := Kind.ofText?_eq_some_iff.1 kindFound
      change (if (fileText line).isEmpty then _ else _) = _ ↔ _
      by_cases empty : fileText line = []
      · rw [if_pos (List.isEmpty_iff.2 empty)]
        constructor
        · intro read
          cases read
        · rintro ⟨-, -, some_, -⟩
          exact absurd empty some_
      · rw [if_neg fun isEmpty => empty (List.isEmpty_iff.1 isEmpty)]
        constructor
        · intro read
          cases read
          exact ⟨kind, begins, empty, rfl⟩
        · rintro ⟨other, same, -, rfl⟩
          rw [Kind.ofText?_eq_some_iff.2 same] at kindFound
          cases kindFound
          rfl

/-- What follows the first slash of a listed line has a last component. -/
theorem components_ne_nil (listed : Listed line) (some_ : fileText line ≠ []) :
    (Path.ofText (fileText line)).components ≠ [] := by
  -- the line goes on with a slash, and the suffix holds none, so it lies behind that
  obtain ⟨c, rest, behind⟩ : ∃ c rest, line.trim.dropWhile (· ≠ CodePoint.slash) = c :: rest := by
    apply List.exists_cons_of_ne_nil
    intro empty
    rw [fileText, empty] at some_
    exact some_ rfl
  have isSlash : c = CodePoint.slash := by
    have stops := Text.stops_dropWhile (· ≠ CodePoint.slash) line.trim
    rw [behind, Text.stops_cons] at stops
    simpa using stops
  have same : fileText line = rest := by rw [fileText, behind]; rfl
  have whole : c :: rest <:+ line.trim := behind ▸ List.dropWhile_suffix _
  have ends : listedSuffix <:+ rest := by
    rcases List.suffix_or_suffix_of_suffix listed whole with inside | outside
    · rcases List.suffix_cons_iff.1 inside with all | inside
      · subst isSlash
        cases all
      · exact inside
    · have member : CodePoint.slash ∈ listedSuffix :=
        isSlash ▸ outside.subset List.mem_cons_self
      exact absurd member (by decide)
  obtain ⟨before, ended⟩ := ends
  obtain ⟨others, last, components⟩ := Path.exists_componentsOf_append before
    (show CodePoint.slash ∉ listedSuffix by decide) (by decide)
  rw [same, ← ended, Path.ofText, components]
  simp

/-! ## What a line names -/

/-- A listed line names a definition: by the kind that it begins with, and by the name of
the file behind the first slash, without its suffix. -/
structure Names (line : Text) (declared : Kind × Text) : Prop where
  listed : Listed line
  kind : line.trim.takeWhile (· ≠ CodePoint.slash) = declared.1.text
  name : (Path.ofText (fileText line)).stem = declared.2
  entry : ∃ entry, ofLine line = .ok (some entry) ∧ entry.name = declared.2

/-- The file of the entry shows its kind and its name. -/
structure Placed (entry : IndexEntry) : Prop where
  components : entry.file.components ≠ []
  suffix : entry.file.suffix = entry.kind.suffix

/-- **An entry has the kind and the name of its line, and so does its file.** -/
theorem names_of_ofLine (read : ofLine line = .ok (some entry)) :
    Names line (entry.kind, entry.name) ∧ entry.Placed := by
  have listed : Listed line := by
    by_contra other
    rw [ofLine_of_not_listed other] at read
    cases read
  obtain ⟨kind, begins, some_, same⟩ := (ofLine_eq_ok_iff listed).1 read
  cases same
  have components := components_ne_nil listed some_
  have named : (Path.ofText (fileText line)).stem ≠ [] :=
    Path.splitName_ne_nil (Path.name_ofText_ne_nil components)
  have parts := Path.splitName_append named kind.text_ne_nil kind.dot_not_mem_text
  have whole : ((Path.ofText (fileText line)).withSuffix kind.suffix).name =
      (Path.ofText (fileText line)).stem ++ CodePoint.dot :: kind.text := Path.name_withSuffix
  have stem : ((Path.ofText (fileText line)).withSuffix kind.suffix).stem =
      (Path.ofText (fileText line)).stem := by
    rw [Path.stem, whole, parts]
  have suffix : ((Path.ofText (fileText line)).withSuffix kind.suffix).suffix = kind.suffix := by
    rw [Path.suffix, whole, parts]
    rfl
  refine ⟨⟨listed, begins, stem.symm, _, read, rfl⟩, ?_, suffix⟩
  simp [Path.withSuffix]

/-! ## A whole index file -/

/-- Of the lines that are read, those that stand for an entry are the listed ones. -/
theorem forall₂_filter_listed {lines : List Text} {found : List (Option IndexEntry)}
    (each : List.Forall₂ (fun line found => ofLine line = .ok found) lines found) :
    List.Forall₂ (fun line entry => ofLine line = .ok (some entry))
      (lines.filter fun line => Listed line) (found.filterMap id) := by
  induction each with
  | nil => exact .nil
  | @cons line found _ _ first _ ih =>
      by_cases listed : Listed line
      · obtain ⟨kind, -, -, rfl⟩ := (ofLine_eq_ok_iff listed).1 first
        rw [List.filter_cons_of_pos (by simpa using listed)]
        exact .cons first ih
      · rw [ofLine_of_not_listed listed] at first
        cases first
        rw [List.filter_cons_of_neg (by simpa using listed)]
        exact ih

/-- **An index file is read when each of its lines is**, whatever their numbers. -/
theorem ofText_eq_ok_iff {path : Path} {text : Text} {entries : List IndexEntry} :
    ofText path text = .ok entries ↔
      ∃ found, text.lines.mapM ofLine = .ok found ∧ entries = found.filterMap id := by
  have unnumbered {found : List (Option IndexEntry)} :
      (Text.numbered text.lines).mapM (fun both => (ofLine both.2).mapDiagnostic fun d =>
        (d.withPath path).withLine both.1) = .ok found ↔ text.lines.mapM ofLine = .ok found := by
    simp only [Outcome.mapM_eq_ok_iff, Outcome.mapDiagnostic_eq_ok_iff]
    conv_rhs => rw [← Section.snd_numbered text.lines]
    rw [List.forall₂_map_left_iff]
  rw [ofText, Outcome.bind_eq_ok_iff]
  constructor
  · intro ⟨found, each, whole⟩
    cases whole
    exact ⟨found, unnumbered.1 each, rfl⟩
  · intro ⟨found, each, same⟩
    rw [same]
    exact ⟨found, unnumbered.2 each, rfl⟩

end IndexEntry

end RosInterface
