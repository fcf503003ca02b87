/-
# RosInterface.Proofs.Definition.RoundTrip -- written definitions are read back

The text of a definition is its sections with separator lines between them, and a
section is its items, one to a line, constants first.  The text of a well-formed
item may stand on a line (`Item.stands_text`), so the lines come back as they were
written, each line declares its item, and the items make up the messages again.

`Interface.text_roundTrip` is the result.  It holds for strings with any code points in
them: whatever they are, they are written on one line.
-/
import RosInterface.Proofs.Declaration.ReadBack
import RosInterface.Proofs.Definition.Reading

set_option autoImplicit false

namespace RosInterface

/-! ## Items on lines -/

namespace Item

variable {item : Item}

theorem head?_text (wellFormed : item.WellFormed) :
    item.text.head? ≠ some (CodePoint.ofChar '-') := by
  have front {type : FieldType} (typed : type.WellFormed) (rest : Text) :
      (type.text ++ rest).head? ≠ some (CodePoint.ofChar '-') := by
    rw [List.head?_append_of_ne_nil _ (FieldType.text_ne_nil typed)]
    intro first
    rcases FieldType.inType_text typed _ (List.mem_of_head? first) with word | mark
    · exact absurd word (by decide)
    · exact absurd mark (by decide)
  match item, wellFormed with
  | .member m, wellFormed =>
      simpa only [text, Member.text, List.append_assoc] using front wellFormed.type _
  | .constant c, wellFormed =>
      simpa only [text, Constant.text, List.append_assoc] using front wellFormed.type _

/-- The text of a well-formed item may stand on a line of a section. -/
theorem stands_text (wellFormed : item.WellFormed) : Section.Stands item.text := by
  have nonempty : item.text ≠ [] := by
    intro empty
    have read := ofLine_text wellFormed
    rw [empty] at read
    cases read
  refine ⟨fun c member => ?_, ?_, ?_⟩
  · exact CodePoint.not_isLineBoundary_of_isPrintable ((onLine_text wellFormed).printable c member)
  · rw [Text.isSilent, trim_withoutComment_text wellFormed]
    simpa using nonempty
  · have head := head?_text wellFormed
    rw [Section.isSeparator, Text.trim_of_bareEnds (bareEnds_text wellFormed)]
    simp only [decide_eq_false_iff_not]
    intro same
    rw [same] at head
    exact head rfl

end Item

/-! ## Messages in sections -/

namespace Message

/-- The items of a message in the order in which they are written. -/
def items (message : Message) : List Item :=
  message.constants.map .constant ++ message.members.map .member

theorem text_eq_joined (message : Message) :
    message.text = Text.joined "\n" (message.items.map (·.text)) := by
  rw [text, items, List.map_append, List.map_map, List.map_map]
  rfl

theorem ofItems_items (message : Message) :
    ofItems message.package message.name message.items = message := by
  have members : message.items.filterMap (·.member?) = message.members := by
    rw [items, List.filterMap_append, List.filterMap_map, List.filterMap_map]
    simp [Function.comp_def, Item.member?]
  have constants : message.items.filterMap (·.constant?) = message.constants := by
    rw [items, List.filterMap_append, List.filterMap_map, List.filterMap_map]
    simp [Function.comp_def, Item.constant?]
  rw [ofItems, members, constants]

variable {message : Message}

theorem items_wellFormed (wellFormed : message.WellFormed) :
    ∀ item ∈ message.items, item.WellFormed := by
  intro item member
  rcases List.mem_append.1 member with inConstants | inMembers
  · obtain ⟨c, isConstant, rfl⟩ := List.mem_map.1 inConstants
    exact wellFormed.constants c isConstant
  · obtain ⟨m, isMember, rfl⟩ := List.mem_map.1 inMembers
    exact wellFormed.members m isMember

/-- A section that holds the items of a message is read as the message. -/
theorem ofSection_active {lines : Section} (wellFormed : message.WellFormed)
    (written : lines.active = message.items.map (·.text)) :
    ofSection message.package message.name lines = .ok message := by
  refine ofSection_eq_ok_iff.2
    ⟨message.items, ?_, (ofItems_items message).symm, wellFormed.distinct⟩
  rw [written, List.forall₂_map_left_iff, List.forall₂_same]
  exact fun item member => Item.ofLine_text (items_wellFormed wellFormed item member)

end Message

/-! ## Definitions -/

namespace Interface

theorem text_eq_written (interface : Interface) :
    interface.text =
      Section.written (interface.sections.map fun m => m.items.map (·.text)) := by
  cases interface with
  | message m => exact m.text_eq_joined
  | service s =>
      rw [text, Service.text, Text.joined_cons_cons, Text.joined_cons_cons, Text.joined_singleton,
        Message.text_eq_joined, Message.text_eq_joined]
      rfl
  | action a =>
      rw [text, Action.text, Text.joined_cons_cons, Text.joined_cons_cons, Text.joined_cons_cons,
        Text.joined_cons_cons, Text.joined_singleton, Message.text_eq_joined,
        Message.text_eq_joined, Message.text_eq_joined]
      rfl

theorem sections_ne_nil (interface : Interface) : interface.sections ≠ [] := by
  cases interface <;> exact List.cons_ne_nil _ _

variable {interface : Interface} {package name : Text}

/-- The sections of a written definition hold the items of its messages. -/
theorem active_text (wellFormed : interface.WellFormed package name) :
    (Section.all interface.text).map Section.active =
      interface.sections.map fun m => m.items.map (·.text) := by
  rw [text_eq_written]
  refine Section.active_all (by simpa using sections_ne_nil interface) ?_
  intro block inBlocks line inBlock
  obtain ⟨m, inSections, rfl⟩ := List.mem_map.1 inBlocks
  obtain ⟨item, inItems, rfl⟩ := List.mem_map.1 inBlock
  exact Item.stands_text (Message.items_wellFormed (wellFormed.sections m inSections) item inItems)

/-- Sections and suffixes go together with the messages. -/
theorem forall₂_ofSection {sections : List Section} {suffixes : List Text} {messages : List Message}
    (wellFormed : ∀ m ∈ messages, m.WellFormed)
    (written : sections.map Section.active = messages.map fun m => m.items.map (·.text))
    (names : messages.map (fun m => (m.package, m.name)) =
      suffixes.map fun suffix => (package, name ++ suffix)) :
    List.Forall₂ (fun part message =>
      Message.ofSection package (name ++ part.2) part.1 = .ok message)
      (sections.zip suffixes) messages := by
  induction messages generalizing sections suffixes with
  | nil =>
      rw [List.map_nil, List.map_eq_nil_iff] at written
      rw [written]
      exact .nil
  | cons message messages ih =>
      obtain ⟨lines, sections, rfl, first, later⟩ := List.map_eq_cons_iff.1 written
      obtain ⟨suffix, suffixes, rfl, full, others⟩ := List.map_eq_cons_iff.1 names.symm
      obtain ⟨inPackage, named⟩ := Prod.mk.inj full
      refine .cons ?_ (ih (fun m member => wellFormed m (List.mem_cons_of_mem _ member)) later
        others.symm)
      have read := Message.ofSection_active (wellFormed message (by simp)) first
      rwa [← inPackage, ← named] at read

/-- **A well-formed definition is read back from its text.** -/
theorem text_roundTrip (wellFormed : interface.WellFormed package name) :
    ofText interface.kind package name interface.text = .ok interface := by
  have written := active_text wellFormed
  have counted : (Section.all interface.text).length = interface.kind.sectionSuffixes.length := by
    have sections := congrArg List.length written
    have names := congrArg List.length wellFormed.names
    simp only [List.length_map] at sections names
    rw [sections, names]
  refine ofText_eq_ok_iff.2 ⟨rfl, readMessages_eq_ok_iff.2 ⟨counted, ?_⟩,
    .inr ⟨wellFormed.package_eq, wellFormed.name_eq⟩⟩
  exact forall₂_ofSection wellFormed.sections written wellFormed.names

/-- An action with what is hard to write: quotes, a hash sign, a newline and half of a
surrogate pair in its strings, an array of strings, and a section without lines. -/
def sample : Interface :=
  .action
    { package := "p", name := "Say"
      goal := ⟨"p", "Say_Goal",
        [⟨"tags", .boundedSequence (.primitive (.string ⟨false, some 3⟩)) 2, some ["# '", "\\\""]⟩,
         ⟨"repeats", .single (.primitive (.basic (.integer .int8))), some ["-128"]⟩],
        [⟨"TEXT", .single (.primitive (.string ⟨true, none⟩)),
          ["'\"" ++ [CodePoint.newline, ⟨0xD83D, by decide⟩]]⟩]⟩
      result := ⟨"p", "Say_Result", [], []⟩
      feedback := ⟨"p", "Say_Feedback",
        [⟨"said", .sequence (.qualified ⟨"q", .message, "Word"⟩), none⟩], []⟩ }

theorem sample_wellFormed : sample.WellFormed "p" "Say" := by
  have tags : Member.WellFormed ⟨"tags",
      .boundedSequence (.primitive (.string ⟨false, some 3⟩)) 2, some ["# '", "\\\""]⟩ :=
    { name := Text.isMemberName_iff.1 (by decide)
      type := ⟨fun bound same => by cases same; decide +kernel, by decide +kernel⟩
      default := by
        rintro values ⟨⟩
        refine ⟨⟨_, rfl, fun value member bound same => ?_⟩, Nat.le_refl 2⟩
        cases same
        revert value
        decide }
  have repeats : Member.WellFormed ⟨"repeats", .single (.primitive (.basic (.integer .int8))),
      some ["-128"]⟩ :=
    { name := Text.isMemberName_iff.1 (by decide)
      type := trivial
      default := by
        rintro values ⟨⟩
        refine ⟨⟨_, rfl, fun value member => ?_⟩, rfl⟩
        rw [List.mem_singleton.1 member]
        exact ⟨-128, by decide +kernel, by decide, by decide⟩ }
  have text : Constant.WellFormed ⟨"TEXT", .single (.primitive (.string ⟨true, none⟩)),
      ["'\"" ++ [CodePoint.newline, ⟨0xD83D, by decide⟩]]⟩ :=
    { name := Text.isConstantName_iff.1 (by decide)
      type := fun bound same => by cases same
      forConstant := rfl
      value := ⟨⟨_, rfl, fun value _ bound same => by cases same⟩, rfl⟩ }
  have said : Member.WellFormed ⟨"said", .sequence (.qualified ⟨"q", .message, "Word"⟩), none⟩ :=
    { name := Text.isMemberName_iff.1 (by decide)
      type := ⟨⟨_, _, rfl, by decide, by decide⟩, ⟨_, _, rfl, by decide, by decide⟩⟩
      default := fun values same => by cases same }
  refine ⟨rfl, rfl, by decide +kernel, fun message member => ?_⟩
  simp only [sample, sections, List.mem_cons, List.not_mem_nil, or_false] at member
  rcases member with rfl | rfl | rfl
  · exact ⟨by simpa using ⟨tags, repeats⟩, by simpa using text, by decide⟩
  · exact ⟨by simp, by simp, by decide⟩
  · exact ⟨by simpa using said, by simp, by decide⟩

theorem sample_roundTrip :
    sample.WellFormed "p" "Say" ∧ ofText .action "p" "Say" sample.text = .ok sample :=
  ⟨sample_wellFormed, text_roundTrip sample_wellFormed⟩

end Interface

end RosInterface
