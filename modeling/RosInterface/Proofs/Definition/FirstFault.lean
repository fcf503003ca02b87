/-
# RosInterface.Proofs.Definition.FirstFault -- which fault of a definition is reported

A definition can be faulty in many places and one diagnostic is reported.  The number of
separators comes first.  Then the sections are gone through in order, and the first one that
is not read decides: if a line of it declares nothing acceptable, the first such line is
reported with its place in the whole text, and otherwise the names that the section repeats.
`Interface.Reports` says this without the reader, by what stands before the fault, and
`Interface.ofText_eq_diagnostic_iff` says that the reader ends with these diagnostics and no
others.
-/
import RosInterface.Proofs.Definition.FileLines
import RosInterface.Proofs.Definition.Limits
import RosInterface.Proofs.Text.Order

set_option autoImplicit false

namespace RosInterface

/-! ## What is reported -/

/-- The diagnostics of a section that is not read, in a text of the given lines. -/
inductive Section.Reports (whole : List Text) (owner : Text) (lines : Section) : Diagnostic → Prop
  /-- The first line that declares nothing acceptable, with its place in the text. -/
  | line {earlier later : Section} {position : Nat} {text : Text} {d : Diagnostic}
      (parts : lines = earlier ++ (position + 1, text) :: later)
      (sound : ∀ other ∈ earlier, other.2.isSilent = true ∨ ∃ item, Item.ofLine other.2 = .ok item)
      (placed : whole[position]? = some text) (counts : text.isSilent = false)
      (refused : Item.ofLine text = .error (.diagnostic d)) :
      Reports whole owner lines (d.withLine (position + 1))
  /-- Every line that counts is read, and these are the names declared more than once. -/
  | names {items : List Item} {names : List Text}
      (read : List.Forall₂ (fun line item => Item.ofLine line = .ok item) lines.active items)
      (sorted : names.Pairwise fun s t => Text.le s t = true) (distinct : names.Nodup)
      (repeated : ∀ name, name ∈ names ↔ 1 < (items.map (·.name)).count name)
      (nonempty : names ≠ []) :
      Reports whole owner lines (.ofFault (.structural (.repeatedNames owner names)))

/-- The diagnostics of a text that is no definition. -/
inductive Interface.Reports (kind : Kind) (name text : Text) : Diagnostic → Prop
  /-- The text has another number of separator lines than its kind. -/
  | separators {found : Nat}
      (count : text.normalNewlines.lines.countP Section.isSeparator = found)
      (wrong : found ≠ kind.separatorCount) :
      Reports kind name text (.ofFault (.structural (.separatorCount kind found)))
  /-- The first section that is not read. -/
  | unread {before after : List Section} {lines : Section} {suffix : Text} {d : Diagnostic}
      (count : text.normalNewlines.lines.countP Section.isSeparator = kind.separatorCount)
      (parts : Section.Parts (Text.numbered text.normalNewlines.lines) (before ++ lines :: after))
      (earlier : ∀ section_ ∈ before, section_.Reads)
      (named : kind.sectionSuffixes[before.length]? = some suffix)
      (reported : lines.Reports text.normalNewlines.lines (name ++ suffix) d) :
      Reports kind name text d

/-! ## Sections -/

theorem Text.mem_numbered {α : Type} {items : List α} {line : Nat × α}
    (member : line ∈ Text.numbered items) :
    ∃ position, line.1 = position + 1 ∧ items[position]? = some line.2 := by
  obtain ⟨⟨item, position⟩, inItems, rfl⟩ := List.mem_map.1 member
  exact ⟨position, rfl, List.mk_mem_zipIdx_iff_getElem?.1 inItems⟩

/-- The first item that is kept is the first one in the whole list that could have been. -/
theorem exists_filter_eq_iff {α : Type} (keep : α → Bool) (p : α → Prop) {items : List α} {x : α} :
    (∃ before after, items.filter keep = before ++ x :: after ∧ ∀ y ∈ before, p y) ↔
      ∃ earlier later, items = earlier ++ x :: later ∧ keep x = true ∧
        ∀ y ∈ earlier, keep y = false ∨ p y := by
  constructor
  · rintro ⟨before, after, kept, each⟩
    obtain ⟨first, rest, rfl, rfl, behind⟩ := List.filter_eq_append_iff.1 kept
    obtain ⟨skipped, later, rfl, none_, keeps, -⟩ := List.filter_eq_cons_iff.1 behind
    refine ⟨first ++ skipped, later, (List.append_assoc _ _ _).symm, keeps, fun y member => ?_⟩
    rcases List.mem_append.1 member with inFirst | inSkipped
    · cases kept : keep y with
      | false => exact .inl rfl
      | true => exact .inr (each y (List.mem_filter.2 ⟨inFirst, kept⟩))
    · exact .inl (Bool.eq_false_iff.2 (none_ y inSkipped))
  · rintro ⟨earlier, later, rfl, keeps, each⟩
    refine ⟨earlier.filter keep, later.filter keep, ?_, fun y member => ?_⟩
    · rw [List.filter_append, List.filter_cons_of_pos keeps]
    · obtain ⟨inEarlier, kept⟩ := List.mem_filter.1 member
      exact (each y inEarlier).resolve_left (by rw [kept]; exact Bool.noConfusion)

theorem nodup_eraseDups {α : Type} [BEq α] [LawfulBEq α] (items : List α) :
    items.eraseDups.Nodup := by
  cases items with
  | nil => exact List.nodup_nil
  | cons item rest =>
      rw [List.eraseDups_cons, List.nodup_cons, List.mem_eraseDups, List.mem_filter]
      refine ⟨?_, nodup_eraseDups _⟩
      rintro ⟨-, other⟩
      simp at other
termination_by items.length
decreasing_by exact Nat.lt_succ_of_le (List.length_filter_le _ _)

namespace Message

/-- The repeated names are in order, and each is there once. -/
theorem eq_repeatedNames_iff {message : Message} {names : List Text} :
    names = message.repeatedNames ↔
      names.Pairwise (fun s t => Text.le s t = true) ∧ names.Nodup ∧
        ∀ name, name ∈ names ↔ 1 < message.declaredNames.count name := by
  have sorted : message.repeatedNames.Pairwise fun s t => Text.le s t = true :=
    (Text.pairwise_sort _).filter _
  have distinct : message.repeatedNames.Nodup := by
    rw [repeatedNames]
    exact ((Text.perm_sort _).nodup_iff.2 (nodup_eraseDups _)).filter _
  have each (name : Text) :
      name ∈ message.repeatedNames ↔ 1 < message.declaredNames.count name := by
    rw [repeatedNames, List.mem_filter, decide_eq_true_iff, and_iff_right_iff_imp]
    intro repeated
    have declared : name ∈ message.declaredNames := List.count_pos_iff.1 (by omega)
    exact (Text.perm_sort _).mem_iff.2 (List.mem_eraseDups.2 declared)
  constructor
  · rintro rfl
    exact ⟨sorted, distinct, each⟩
  · rintro ⟨sortedToo, distinctToo, eachToo⟩
    have same : names.Perm message.repeatedNames :=
      (List.perm_ext_iff_of_nodup distinctToo distinct).2 fun name => by rw [eachToo, each]
    exact same.eq_of_pairwise (fun _ _ _ _ first second => Text.le_antisymm first second)
      sortedToo sorted

theorem checkNames_eq_error_iff {message : Message} {failure : Failure} :
    message.checkNames = .error failure ↔ message.repeatedNames ≠ [] ∧
      failure = .diagnostic
        (.ofFault (.structural (.repeatedNames message.name message.repeatedNames))) := by
  rw [checkNames]
  by_cases distinct : message.repeatedNames = []
  · simp [distinct]
  · rw [if_neg (by simpa using distinct), Outcome.fault, Except.error.injEq, eq_comm]
    exact (and_iff_right distinct).symm

/-- A message declares the names of its items. -/
theorem perm_declaredNames_ofItems (package name : Text) (items : List Item) :
    (ofItems package name items).declaredNames.Perm (items.map (·.name)) := by
  induction items with
  | nil => exact .nil
  | cons item items ih =>
      cases item with
      | member m => exact ih.cons m.name
      | constant c => exact List.perm_middle.trans (ih.cons c.name)

/-- Items whose names repeat are refused with the names that do. -/
theorem checkNames_ofItems_eq_diagnostic_iff {package owner : Text} {items : List Item}
    {d : Diagnostic} :
    (ofItems package owner items).checkNames = .error (.diagnostic d) ↔
      ∃ names, names.Pairwise (fun s t => Text.le s t = true) ∧ names.Nodup ∧
        (∀ name, name ∈ names ↔ 1 < (items.map (·.name)).count name) ∧ names ≠ [] ∧
        d = .ofFault (.structural (.repeatedNames owner names)) := by
  have counts (name : Text) := (perm_declaredNames_ofItems package owner items).count_eq name
  simp only [← counts]
  rw [checkNames_eq_error_iff]
  constructor
  · rintro ⟨nonempty, same⟩
    obtain ⟨sorted, distinct, each⟩ := eq_repeatedNames_iff.1 rfl
    exact ⟨_, sorted, distinct, each, nonempty, Failure.diagnostic.inj same⟩
  · rintro ⟨names, sorted, distinct, each, nonempty, rfl⟩
    obtain rfl := eq_repeatedNames_iff.2 ⟨sorted, distinct, each⟩
    exact ⟨nonempty, rfl⟩

variable {package owner : Text} {whole : List Text} {lines : Section} {d : Diagnostic}

/-- **A section reports its first faulty line, and the names that it repeats only where it has
none.** -/
theorem ofSection_eq_diagnostic_iff
    (numbered : ∀ line ∈ lines, ∃ position,
      line.1 = position + 1 ∧ whole[position]? = some line.2) :
    ofSection package owner lines = .error (.diagnostic d) ↔ lines.Reports whole owner d := by
  have first (line : Nat × Text) : (∃ before after,
      lines.filter (fun line => !line.2.isSilent) = before ++ line :: after ∧
        ∀ other ∈ before, ∃ item, Item.ofLine other.2 = .ok item) ↔
      ∃ earlier later, lines = earlier ++ line :: later ∧ line.2.isSilent = false ∧
        ∀ other ∈ earlier, other.2.isSilent = true ∨ ∃ item, Item.ofLine other.2 = .ok item := by
    simpa only [Bool.not_eq_true', Bool.not_eq_false'] using
      exists_filter_eq_iff (fun line : Nat × Text => !line.2.isSilent)
        fun line => ∃ item, Item.ofLine line.2 = .ok item
  rw [ofSection, Outcome.bind_eq_error_iff, Outcome.mapM_eq_error_iff]
  simp only [Item.ofNumberedLine, Outcome.mapDiagnostic_eq_ok_iff]
  constructor
  · rintro (⟨before, line, after, kept, read, stopped⟩ | ⟨items, read, checked⟩)
    · obtain ⟨e, refused, rfl⟩ := Outcome.mapDiagnostic_eq_diagnostic_iff.1 stopped
      obtain ⟨earlier, later, rfl, counts, sound⟩ := (first _).1 ⟨before, after, kept, read⟩
      obtain ⟨number, text⟩ := line
      obtain ⟨position, rfl, placed⟩ := numbered (number, text) (by simp)
      exact .line rfl sound placed counts refused
    · obtain ⟨names, sorted, distinct, repeated, nonempty, rfl⟩ :=
        checkNames_ofItems_eq_diagnostic_iff.1 checked
      exact .names (mapM_ofNumberedLine_eq_ok_iff.1 read) sorted distinct repeated nonempty
  · intro reported
    cases reported with
    | @line earlier later position text e parts sound placed counts refused =>
        obtain ⟨before, after, kept, read⟩ := (first _).2 ⟨earlier, later, parts, counts, sound⟩
        refine .inl ⟨before, (position + 1, text), after, kept, read, ?_⟩
        exact Outcome.mapDiagnostic_eq_diagnostic_iff.2 ⟨e, refused, rfl⟩
    | names read sorted distinct repeated nonempty =>
        refine .inr ⟨_, mapM_ofNumberedLine_eq_ok_iff.2 read, ?_⟩
        exact checkNames_ofItems_eq_diagnostic_iff.2 ⟨_, sorted, distinct, repeated, nonempty, rfl⟩

end Message

/-! ## Definitions -/

theorem Section.length_cut (lines : List (Nat × Text)) :
    (cut lines).length = (lines.map (·.2)).countP isSeparator + 1 := by
  fun_induction cut lines with
  | case1 => rfl
  | case2 number line rest separates ih =>
      rw [List.length_cons, ih, List.map_cons, List.countP_cons_of_pos separates]
  | case3 number line rest stays empty ih =>
      exact absurd empty (List.ne_nil_of_length_eq_add_one ih)
  | case4 number line rest stays first others parts ih =>
      rw [parts] at ih
      rw [List.length_cons, List.map_cons, List.countP_cons_of_neg stays, ← ih, List.length_cons]

/-- A text has one section more than it has separator lines. -/
theorem Section.length_all (text : Text) :
    (all text).length = text.normalNewlines.lines.countP isSeparator + 1 := by
  rw [all, length_cut, snd_numbered]

/-- The lines of the sections are lines of the text. -/
theorem Section.Parts.mem {lines : List (Nat × Text)} {sections : List Section}
    (parts : Parts lines sections) {section_ : Section} (among : section_ ∈ sections)
    {line : Nat × Text} (member : line ∈ section_) : line ∈ lines := by
  induction parts with
  | last =>
      rw [List.mem_singleton] at among
      exact among ▸ member
  | next _ _ _ ih =>
      rcases List.mem_cons.1 among with rfl | later
      · exact List.mem_append_left _ member
      · exact List.mem_append_right _ (List.mem_cons_of_mem _ (ih later))

/-- A place among the items of one list is the same place in a list of that length. -/
theorem exists_zip_eq_iff {α β : Type} {p : α → Prop} {xs : List α} {ys : List β}
    (same : xs.length = ys.length) {x : α} {y : β} :
    (∃ before after, xs.zip ys = before ++ (x, y) :: after ∧ ∀ pair ∈ before, p pair.1) ↔
      ∃ before after, xs = before ++ x :: after ∧ ys[before.length]? = some y ∧
        ∀ item ∈ before, p item := by
  constructor
  · rintro ⟨before, after, whole, each⟩
    obtain ⟨first, rest, named, others, lengths, rfl, rfl, rfl, behind⟩ :=
      List.zip_eq_append_iff.1 whole
    obtain ⟨later, more, rfl, rfl, -⟩ := List.zip_eq_cons_iff.1 behind.symm
    refine ⟨first, later, rfl, by simp [lengths], fun item member => ?_⟩
    rw [← List.map_fst_zip lengths.le] at member
    obtain ⟨pair, inBefore, rfl⟩ := List.mem_map.1 member
    exact each pair inBefore
  · rintro ⟨before, after, rfl, at_, each⟩
    obtain ⟨inside, rfl⟩ := List.getElem?_eq_some_iff.1 at_
    have parts :
        ys = ys.take before.length ++ ys[before.length] :: ys.drop (before.length + 1) := by
      rw [List.getElem_cons_drop, List.take_append_drop]
    refine ⟨before.zip (ys.take before.length), after.zip (ys.drop (before.length + 1)), ?_, ?_⟩
    · conv_lhs => rw [parts]
      rw [List.zip_append (by rw [List.length_take]; omega), List.zip_cons_cons]
    · exact fun pair member => each pair.1 (List.of_mem_zip member).1

namespace Interface

variable {kind : Kind} {package name text : Text} {d : Diagnostic}

/-- As many messages as the kind has sections make up a definition. -/
theorem exists_ofMessages? {messages : List Message}
    (read : readMessages kind package name text = .ok messages) :
    ∃ interface, ofMessages? kind package name messages = some interface := by
  obtain ⟨counted, each⟩ := readMessages_eq_ok_iff.1 read
  have lengths : messages.length = kind.sectionSuffixes.length := by
    rw [← each.length_eq, List.length_zip, counted, Nat.min_self]
  cases kind with
  | message =>
      obtain ⟨only, rfl⟩ := List.length_eq_one_iff.1 lengths
      exact ⟨_, rfl⟩
  | service =>
      obtain ⟨request, response, rfl⟩ := List.length_eq_two.1 lengths
      exact ⟨_, rfl⟩
  | action =>
      obtain ⟨goal, result, feedback, rfl⟩ := List.length_eq_three.1 lengths
      exact ⟨_, rfl⟩

theorem ofText_eq_error_iff {failure : Failure} :
    ofText kind package name text = .error failure ↔
      readMessages kind package name text = .error failure := by
  rw [ofText, Outcome.bind_eq_error_iff, or_iff_left]
  rintro ⟨messages, read, failed⟩
  obtain ⟨interface, made⟩ := exists_ofMessages? read
  rw [made] at failed
  cases failed

/-- **The first fault of a text is reported.**  The reader ends with a diagnostic if and only if
it is that of a wrong number of separators, or that of the first section that is not read. -/
theorem ofText_eq_diagnostic_iff (kind : Kind) (package name text : Text) (d : Diagnostic) :
    ofText kind package name text = .error (.diagnostic d) ↔ Reports kind name text d := by
  have sections {sections : List Section} :
      Section.Parts (Text.numbered text.normalNewlines.lines) sections ↔
        sections = Section.all text := Section.parts_iff
  have report {before after : List Section} {lines : Section} {owner : Text}
      (whole : Section.all text = before ++ lines :: after) :
      Message.ofSection package owner lines = .error (.diagnostic d) ↔
        lines.Reports text.normalNewlines.lines owner d := by
    refine Message.ofSection_eq_diagnostic_iff fun line member => Text.mem_numbered ?_
    exact (sections.2 whole.symm).mem (by simp) member
  have length := Section.length_all text
  have suffixes : kind.sectionSuffixes.length = kind.separatorCount + 1 := by cases kind <;> rfl
  rw [ofText_eq_error_iff, readMessages, Section.forKind]
  by_cases count : (Section.all text).length = kind.sectionSuffixes.length
  · simp only [if_pos count, Outcome.ok_bind, Outcome.mapM_eq_error_iff]
    have right : text.normalNewlines.lines.countP Section.isSeparator = kind.separatorCount := by
      omega
    constructor
    · rintro ⟨before, ⟨lines, suffix⟩, after, whole, read, failed⟩
      obtain ⟨earlier, later, parts, named, reads⟩ := (exists_zip_eq_iff count).1
        ⟨before, after, whole, fun part member => Message.exists_ofSection_iff.1 (read part member)⟩
      exact .unread right (sections.2 parts.symm) reads named ((report parts).1 failed)
    · intro reported
      cases reported with
      | separators found wrong => exact absurd (found ▸ right) wrong
      | unread _ parts reads named reported =>
          have parts := (sections.1 parts).symm
          obtain ⟨before, after, whole, read⟩ := (exists_zip_eq_iff count).2
            ⟨_, _, parts, named, reads⟩
          exact ⟨before, _, after, whole,
            fun part member => Message.exists_ofSection_iff.2 (read part member),
            (report parts).2 reported⟩
  · simp only [if_neg count]
    have wrong : text.normalNewlines.lines.countP Section.isSeparator ≠ kind.separatorCount := by
      omega
    rw [length, Nat.add_sub_cancel]
    constructor
    · intro failed
      cases failed
      exact .separators rfl wrong
    · intro reported
      cases reported with
      | separators found => rw [found]; rfl
      | unread right => exact absurd right wrong

/-- A name is repeated before a line is malformed, and only the former is reported. -/
example : ofText .action "p" "A" "bool a\n---\n# none\nbool b\nbool b\n---\nbool B\n" =
    .error (.diagnostic (.ofFault (.structural (.repeatedNames "A_Result" ["b"])))) := by
  decide +kernel

end Interface

end RosInterface
