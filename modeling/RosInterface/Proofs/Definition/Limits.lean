/-
# RosInterface.Proofs.Definition.Limits -- which readings end without a diagnostic

A section runs into a limit at its first line that is not read, when that line runs
into one; a definition does at its first section that is not read.  The number of
sections is checked before.  `Interface.aborts_ofText_iff` says that a definition
aborts exactly then.

Together with the same results about types and lines this settles when a failure is
structured: always, short of a limit (`Interface.readers_structured_iff`).
-/
import RosInterface.Proofs.Declaration.Limits
import RosInterface.Proofs.Definition.Reading

set_option autoImplicit false

namespace RosInterface

/-! ## The limits -/

namespace Section

/-- Every line that counts declares an item, and no name is declared twice. -/
def Reads (lines : Section) : Prop :=
  ∃ items, List.Forall₂ (fun line item => Item.ofLine line = .ok item) lines.active items ∧
    (Message.ofItems [] [] items).declaredNames.Nodup

/-- The first line that declares no item runs into a limit. -/
def Exceeds (lines : Section) : Prop :=
  ∃ before line after, lines.active = before ++ line :: after ∧
    (∀ earlier ∈ before, ∃ item, Item.ofLine earlier = .ok item) ∧ Item.LineExceeds line

end Section

/-- The text has the sections of its kind, and the first of them that is not read runs
into a limit. -/
def Interface.TextExceeds (kind : Kind) (text : Text) : Prop :=
  (Section.all text).length = kind.sectionSuffixes.length ∧
    ∃ before lines after, Section.all text = before ++ lines :: after ∧
      (∀ earlier ∈ before, earlier.Reads) ∧ lines.Exceeds

/-! ## Sections -/

namespace Message

variable {package name : Text} {lines : Section}

/-- Whether a section is read does not depend on what its message is called. -/
theorem exists_ofSection_iff :
    (∃ message, ofSection package name lines = .ok message) ↔ lines.Reads := by
  simp only [ofSection_eq_ok_iff]
  constructor
  · rintro ⟨message, items, read, rfl, distinct⟩
    exact ⟨items, read, distinct⟩
  · rintro ⟨items, read, distinct⟩
    exact ⟨ofItems package name items, items, read, rfl, distinct⟩

theorem structured_checkNames {message : Message} : message.checkNames.Structured := by
  rw [checkNames]
  split
  · exact Outcome.structured_ok _
  · exact Outcome.structured_fault trivial

/-- **A section aborts exactly past its limits.** -/
theorem aborts_ofSection_iff : (ofSection package name lines).Aborts ↔ lines.Exceeds := by
  have loud : lines.active = (lines.filter fun line => !line.2.isSilent).map (·.2) := by
    rw [Section.active, List.filter_map]
    rfl
  rw [ofSection, Outcome.aborts_bind_iff, or_iff_left, Section.Exceeds, loud]
  · refine Outcome.aborts_mapM_through_iff (fun line => ?_) fun line => ?_
    · simp only [Item.ofNumberedLine, Outcome.mapDiagnostic_eq_ok_iff]
    · rw [Item.ofNumberedLine, Outcome.aborts_mapDiagnostic_iff, Item.aborts_ofLine_iff]
  · rintro ⟨items, -, aborts⟩
    exact structured_checkNames.not_aborts aborts

theorem tame_ofSection : (ofSection package name lines).Tame := by
  have line (numbered : Nat × Text) : (Item.ofNumberedLine numbered).Tame :=
    Item.tame_ofLine.mapDiagnostic fun _ ofText => ofText
  exact (Outcome.diagnoses_mapM fun numbered _ => line numbered).bind fun _ =>
    structured_checkNames.tame

end Message

/-! ## Definitions -/

namespace Interface

variable {kind : Kind} {package name text : Text}

theorem aborts_readMessages_iff :
    (readMessages kind package name text).Aborts ↔ TextExceeds kind text := by
  rw [readMessages, Section.forKind, TextExceeds]
  by_cases counted : (Section.all text).length = kind.sectionSuffixes.length
  · have sections : ((Section.all text).zip kind.sectionSuffixes).map Prod.fst = Section.all text :=
      List.map_fst_zip counted.le
    simp only [if_pos counted, Outcome.ok_bind, and_iff_right counted]
    rw [Outcome.aborts_mapM_through_iff (fun _ => Message.exists_ofSection_iff)
      fun _ => Message.aborts_ofSection_iff, sections]
  · simp only [if_neg counted]
    exact ⟨fun aborts => absurd aborts (Outcome.not_aborts_fault _), fun h => absurd h.1 counted⟩

/-- **The reader of definitions aborts exactly past its limits.** -/
theorem aborts_ofText_iff : (ofText kind package name text).Aborts ↔ TextExceeds kind text := by
  rw [ofText, Outcome.aborts_bind_iff, or_iff_left, aborts_readMessages_iff]
  rintro ⟨messages, -, aborts⟩
  split at aborts
  · exact Outcome.not_aborts_ok _ aborts
  · exact Outcome.not_aborts_fault _ aborts

theorem tame_ofText : (ofText kind package name text).Tame := by
  have messages : (readMessages kind package name text).Tame := by
    rw [readMessages, Section.forKind]
    refine Outcome.Diagnoses.bind ?_ fun sections => ?_
    · split
      · exact Outcome.diagnoses_ok _
      · exact Outcome.tame_fault trivial
    · exact Outcome.diagnoses_mapM fun _ _ => Message.tame_ofSection
  refine messages.bind fun read => ?_
  split
  · exact Outcome.diagnoses_ok _
  · exact Outcome.tame_fault trivial

/-- **Every failure is a diagnostic about the text, short of the limits of the
reader.**  This holds of types, of lines and of whole definitions, and past a limit it
never holds.  The diagnostics of a line show the text that they are about. -/
theorem readers_structured_iff (kind : Kind) (package name text : Text) :
    ((FieldType.ofText text).Structured ↔ ¬ FieldType.TextExceeds text) ∧
    ((Item.ofLine text).Structured ↔ ¬ Item.LineExceeds text) ∧ (Item.ofLine text).Shown ∧
    ((ofText kind package name text).Structured ↔ ¬ TextExceeds kind text) := by
  refine ⟨?_, ?_, Item.shown_ofLine, ?_⟩
  · rw [FieldType.tame_ofText.structured_iff, FieldType.aborts_ofText_iff]
  · rw [Item.tame_ofLine.structured_iff, Item.aborts_ofLine_iff]
  · rw [tame_ofText.structured_iff, aborts_ofText_iff]

end Interface

/-- An escape past the last code point ends the reading of its line without a
diagnostic. -/
theorem Item.unstructured_ofLine_escape :
    ¬ (Item.ofLine "string a \"\\U00110000\"").Structured := by
  rw [Item.tame_ofLine.structured_iff, Item.aborts_ofLine_iff, not_not]
  have shaped : DeclarationText.Shaped ⟨"string", " ", "a", " ", .default "\"\\U00110000\""⟩ :=
    { bare := ⟨Text.stops_cons.2 (by decide), by rintro c ⟨⟩; decide⟩
      gap := Text.isGap_space
      parted := fun _ => by decide
      name := (Text.isMemberName_iff.1 (by decide)).isIdentifier
      maximal := Text.stops_cons.2 (by decide)
      nameGap := Text.isGap_space
      tail := ⟨⟨by decide, Text.stops_cons.2 (by decide), by decide⟩, by decide⟩ }
  have tooFar : Text.EscapesTooFar "U00110000" :=
    ⟨"00110000", [], by decide, by decide, by decide, by decide +kernel⟩
  have beyond : EscapesBeyond (Text.trim "\"\\U00110000\"") :=
    ⟨CodePoint.ofChar '"', "\\U00110000", by decide, by decide,
      .escape (.of_forall (by decide)), [], "U00110000", rfl, .nil, tooFar⟩
  refine ⟨_, shaped, by decide +kernel,
    .inr ⟨.single (.primitive (.string ⟨false, none⟩)), rfl, ?_⟩⟩
  exact ⟨Text.isMemberName_iff.1 (by decide), _, rfl, beyond⟩

end RosInterface
