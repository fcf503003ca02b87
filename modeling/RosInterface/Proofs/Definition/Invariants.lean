/-
# RosInterface.Proofs.Definition.Invariants -- what has been read is well formed

Each part of a declaration brings its share of the invariant: the written type a
well-formed type, the check of the name a name of its kind, the reader of the value
canonical values in the right number.  `Item.wellFormed_of_declares` collects them
for a line, and the text of a definition adds that names are distinct and that the
sections are named after their definition.

`Interface.readers_wellFormed` states both: no line and no text is read as anything
that is not well formed.
-/
import RosInterface.Proofs.Declaration.LineGrammar
import RosInterface.Proofs.Definition.Reading
import RosInterface.Proofs.Value.Canonical

set_option autoImplicit false

namespace RosInterface

/-! ## Lines -/

theorem DeclarationText.wellFormed_type {d : DeclarationText} {type : FieldType}
    (wellWritten : d.WellWritten) (accepted : FieldType.ofText d.type = .ok type) :
    type.WellFormed := by
  obtain ⟨spec, read, resolved⟩ := (FieldType.ofText_eq_ok_iff wellWritten.bare).1 accepted
  exact TypeSpec.wellFormed_of_resolve (TypeSpec.read?_eq_some_iff.1 read).1 resolved

/-- What a cut declares is well formed. -/
theorem Item.wellFormed_of_declares {d : DeclarationText} {item : Item}
    (wellWritten : d.WellWritten) (declares : d.Declares item) : item.WellFormed := by
  obtain ⟨type, accepted, built⟩ := declares
  have typed := d.wellFormed_type wellWritten accepted
  cases tail : d.tail with
  | absent =>
      rw [tail] at built
      obtain ⟨name, rfl⟩ := built
      exact ⟨name, typed, fun values none_ => by cases none_⟩
  | default value =>
      rw [tail] at built
      obtain ⟨name, values, read, rfl⟩ := built
      refine ⟨name, typed, fun found same => ?_⟩
      cases same
      exact Value.holds_of_forType read
  | assigned gap value =>
      rw [tail] at built
      obtain ⟨name, forConstant, values, read, rfl⟩ := built
      exact ⟨name, typed, forConstant, Value.holds_of_forType read⟩

theorem Item.wellFormed_of_ofLine {line : Text} {item : Item} (read : ofLine line = .ok item) :
    item.WellFormed := by
  obtain ⟨d, wellWritten, -, declares⟩ := ofLine_eq_ok_iff.1 read
  exact wellFormed_of_declares wellWritten declares

/-! ## Sections -/

namespace Message

variable {package name : Text} {lines : Section} {message : Message}

theorem wellFormed_of_ofSection (read : ofSection package name lines = .ok message) :
    message.WellFormed ∧ message.package = package ∧ message.name = name := by
  obtain ⟨items, each, rfl, distinct⟩ := ofSection_eq_ok_iff.1 read
  have wellFormed : ∀ item ∈ items, item.WellFormed :=
    Outcome.forall_mem_of_forall₂ each fun _ _ found => Item.wellFormed_of_ofLine found
  refine ⟨⟨fun member isMember => ?_, fun constant isConstant => ?_, distinct⟩, rfl, rfl⟩
  · obtain ⟨item, inItems, found⟩ := List.mem_filterMap.1 isMember
    cases item with
    | member m =>
        cases found
        exact wellFormed _ inItems
    | constant c => cases found
  · obtain ⟨item, inItems, found⟩ := List.mem_filterMap.1 isConstant
    cases item with
    | member m => cases found
    | constant c =>
        cases found
        exact wellFormed _ inItems

end Message

/-! ## Definitions -/

namespace Interface

variable {kind : Kind} {package name text : Text} {interface : Interface}

/-- The sections are named by the suffixes of the kind, in order. -/
theorem wellFormed_of_readMessages {messages : List Message}
    (read : readMessages kind package name text = .ok messages) :
    messages.map (fun m => (m.package, m.name)) =
        kind.sectionSuffixes.map (fun suffix => (package, name ++ suffix)) ∧
      ∀ message ∈ messages, message.WellFormed := by
  obtain ⟨counted, each⟩ := readMessages_eq_ok_iff.1 read
  constructor
  · have named : List.Forall₂ (fun part message =>
        (package, name ++ part.2) = (message.package, message.name))
        ((Section.all text).zip kind.sectionSuffixes) messages := by
      refine each.imp fun part message found => ?_
      obtain ⟨-, inPackage, named⟩ := Message.wellFormed_of_ofSection found
      rw [inPackage, named]
    have suffixes : ((Section.all text).zip kind.sectionSuffixes).map Prod.snd =
        kind.sectionSuffixes := List.map_snd_zip (by omega)
    have same := List.forall₂_map_left_iff.2 (List.forall₂_map_right_iff.2 named)
    rw [List.forall₂_eq_eq_eq] at same
    rw [← same, ← suffixes, List.map_map, suffixes]
    rfl
  · exact Outcome.forall_mem_of_forall₂ each fun _ _ found =>
      (Message.wellFormed_of_ofSection found).1

/-- **No line and no text is read as anything that is not well formed.** -/
theorem readers_wellFormed :
    (∀ line item, Item.ofLine line = .ok item → item.WellFormed) ∧
      ∀ kind package name text interface, ofText kind package name text = .ok interface →
        interface.kind = kind ∧ interface.WellFormed package name := by
  refine ⟨fun line item => Item.wellFormed_of_ofLine, ?_⟩
  intro kind package name text interface read
  obtain ⟨rfl, readSections, named⟩ := ofText_eq_ok_iff.1 read
  obtain ⟨names, sections⟩ := wellFormed_of_readMessages readSections
  have full : interface.package = package ∧ interface.name = name := by
    cases interface with
    | message m =>
        have own : (m.package, m.name) = (package, name ++ []) := (List.cons.inj names).1
        rw [List.append_nil] at own
        exact Prod.mk.inj own
    | service s => exact named.resolve_left fun same => by cases same
    | action a => exact named.resolve_left fun same => by cases same
  exact ⟨rfl, full.1, full.2, names, sections⟩

theorem readers_wellFormed_one_line :
    (∃ item, Item.ofLine "uint8 a 7 # c" = .ok item ∧ item.WellFormed) ∧
      ∃ interface, ofText .message "p" "M" "uint8 a 7 # c\n" = .ok interface ∧
        interface.kind = .message ∧ interface.WellFormed "p" "M" := by
  let uint8 : FieldType := .single (.primitive (.basic (.integer .uint8)))
  have line : Item.ofLine "uint8 a 7 # c" = .ok (.member ⟨"a", uint8, some ["7"]⟩) := rfl
  have lines : Section.all "uint8 a 7 # c\n" = [[(1, Text.ofString "uint8 a 7 # c")]] := by
    decide +kernel
  have read : readMessages .message "p" "M" "uint8 a 7 # c\n" =
      .ok [⟨"p", "M", [⟨"a", uint8, some ["7"]⟩], []⟩] := by
    rw [readMessages_eq_ok_iff, lines]
    exact ⟨rfl, .cons (Message.ofSection_eq_ok_iff.2 ⟨_, .cons line .nil, rfl, by decide⟩) .nil⟩
  have text : ofText .message "p" "M" "uint8 a 7 # c\n" = .ok (.message _) :=
    ofText_eq_ok_iff.2 ⟨rfl, read, .inl rfl⟩
  exact ⟨⟨_, line, readers_wellFormed.1 _ _ line⟩, _, text, readers_wellFormed.2 _ _ _ _ _ text⟩

end Interface

end RosInterface
