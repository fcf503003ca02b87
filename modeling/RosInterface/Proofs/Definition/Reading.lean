/-
# RosInterface.Proofs.Definition.Reading -- definitions that have been read

A section is read when each of its lines that is not silent declares an item and no
name is declared twice (`Message.ofSection_eq_ok_iff`).  A definition is read when it
has the sections of its kind and each of them is (`Interface.ofText_eq_ok_iff`).
Nothing in these statements is about the order in which faults are looked for, so
they serve in both directions: what has been read is well formed, and what is well
formed and written is read.
-/
import RosInterface.Definition.Text
import RosInterface.Proofs.Definition.Lines
import RosInterface.Proofs.Outcome
import RosInterface.Proofs.WellFormed

set_option autoImplicit false

namespace RosInterface

/-! ## Sections -/

namespace Message

/-- No name is repeated exactly when the declared names are distinct. -/
theorem repeatedNames_isEmpty_iff {message : Message} :
    message.repeatedNames.isEmpty = true ↔ message.declaredNames.Nodup := by
  rw [repeatedNames, List.isEmpty_iff, List.filter_eq_nil_iff, List.nodup_iff_count]
  constructor
  · intro none_ name
    by_cases member : name ∈ message.declaredNames
    · have once := none_ name (List.mem_mergeSort.2 (List.mem_eraseDups.2 member))
      simpa using once
    · rw [List.count_eq_zero_of_not_mem member]
      omega
  · intro once name _
    simpa using once name

theorem checkNames_eq_ok_iff {message result : Message} :
    message.checkNames = .ok result ↔ message = result ∧ message.declaredNames.Nodup := by
  rw [checkNames, ← repeatedNames_isEmpty_iff]
  by_cases distinct : message.repeatedNames.isEmpty = true
  · simp [distinct]
  · simp [distinct, Outcome.fault]

variable {package name : Text} {lines : Section} {message : Message}

/-- The lines that count are read one by one, and their numbers play no part in it. -/
theorem mapM_ofNumberedLine_eq_ok_iff {items : List Item} :
    (lines.filter fun line => !line.2.isSilent).mapM Item.ofNumberedLine = .ok items ↔
      List.Forall₂ (fun line item => Item.ofLine line = .ok item) lines.active items := by
  have loud : lines.active = (lines.filter fun line => !line.2.isSilent).map (·.2) := by
    rw [Section.active, List.filter_map]
    rfl
  rw [Outcome.mapM_eq_ok_iff, loud, List.forall₂_map_left_iff]
  simp only [Item.ofNumberedLine, Outcome.mapDiagnostic_eq_ok_iff]

/-- **A section is read line by line.** -/
theorem ofSection_eq_ok_iff :
    ofSection package name lines = .ok message ↔
      ∃ items, List.Forall₂ (fun line item => Item.ofLine line = .ok item) lines.active items ∧
        message = ofItems package name items ∧ message.declaredNames.Nodup := by
  rw [ofSection, Outcome.bind_eq_ok_iff]
  constructor
  · rintro ⟨items, read, checked⟩
    obtain ⟨same, distinct⟩ := checkNames_eq_ok_iff.1 checked
    exact ⟨items, mapM_ofNumberedLine_eq_ok_iff.1 read, same.symm, same ▸ distinct⟩
  · rintro ⟨items, read, rfl, distinct⟩
    exact ⟨items, mapM_ofNumberedLine_eq_ok_iff.2 read, checkNames_eq_ok_iff.2 ⟨rfl, distinct⟩⟩

/-- Silent lines declare nothing. -/
theorem ofSection_of_silent (silent : lines.active = []) :
    ofSection package name lines = .ok ⟨package, name, [], []⟩ := by
  refine ofSection_eq_ok_iff.2 ⟨[], ?_, rfl, List.nodup_nil⟩
  rw [silent]
  exact .nil

end Message

/-! ## Definitions -/

namespace Interface

variable {kind : Kind} {package name text : Text} {interface : Interface}

theorem readMessages_eq_ok_iff {messages : List Message} :
    readMessages kind package name text = .ok messages ↔
      (Section.all text).length = kind.sectionSuffixes.length ∧
        List.Forall₂ (fun part message =>
          Message.ofSection package (name ++ part.2) part.1 = .ok message)
          ((Section.all text).zip kind.sectionSuffixes) messages := by
  rw [readMessages, Section.forKind]
  by_cases counted : (Section.all text).length = kind.sectionSuffixes.length
  · simp only [if_pos counted, Outcome.ok_bind, Outcome.mapM_eq_ok_iff]
    simp [counted]
  · simp only [if_neg counted]
    constructor
    · intro read
      cases read
    · rintro ⟨same, -⟩
      exact absurd same counted

/-- The definition that messages make up has them as its sections. -/
theorem ofMessages?_eq_some_iff {messages : List Message} :
    ofMessages? kind package name messages = some interface ↔
      interface.kind = kind ∧ interface.sections = messages ∧
        (kind = .message ∨ interface.package = package ∧ interface.name = name) := by
  constructor
  · intro found
    match kind, messages with
    | .message, [only] =>
        cases found
        exact ⟨rfl, rfl, .inl rfl⟩
    | .service, [request, response] =>
        cases found
        exact ⟨rfl, rfl, .inr ⟨rfl, rfl⟩⟩
    | .action, [goal, result, feedback] =>
        cases found
        exact ⟨rfl, rfl, .inr ⟨rfl, rfl⟩⟩
  · rintro ⟨rfl, rfl, named⟩
    cases interface with
    | message m => rfl
    | service s =>
        obtain ⟨rfl, rfl⟩ := named.resolve_left fun same => by cases same
        rfl
    | action a =>
        obtain ⟨rfl, rfl⟩ := named.resolve_left fun same => by cases same
        rfl

/-- **A definition is read section by section.** -/
theorem ofText_eq_ok_iff :
    ofText kind package name text = .ok interface ↔
      interface.kind = kind ∧ readMessages kind package name text = .ok interface.sections ∧
        (kind = .message ∨ interface.package = package ∧ interface.name = name) := by
  rw [ofText, Outcome.bind_eq_ok_iff]
  constructor
  · rintro ⟨messages, read, built⟩
    cases made : ofMessages? kind package name messages with
    | none =>
        simp only [made] at built
        cases built
    | some found =>
        simp only [made] at built
        cases built
        obtain ⟨same, rfl, named⟩ := ofMessages?_eq_some_iff.1 made
        exact ⟨same, read, named⟩
  · rintro ⟨same, read, named⟩
    refine ⟨interface.sections, read, ?_⟩
    rw [ofMessages?_eq_some_iff.2 ⟨same, rfl, named⟩]

/-- A text without a separator spells the message of its only section. -/
theorem ofText_message {lines : Section} {message : Message} (only : Section.all text = [lines])
    (read : Message.ofSection package name lines = .ok message) :
    ofText .message package name text = .ok (.message message) := by
  refine ofText_eq_ok_iff.2 ⟨rfl, readMessages_eq_ok_iff.2 ?_, .inl rfl⟩
  rw [only]
  refine ⟨rfl, .cons ?_ .nil⟩
  rwa [show name ++ Text.ofString "" = name from List.append_nil name]

end Interface

end RosInterface
