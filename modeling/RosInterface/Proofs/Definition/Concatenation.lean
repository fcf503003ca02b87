/-
# RosInterface.Proofs.Definition.Concatenation -- definitions that are put together

A text that is put together from two with a newline between them has the lines of both, apart
from empty ones: where the first text closes its last line itself, an empty line comes between,
and where the second has nothing in it, its empty line is lost.  Empty lines declare nothing and
separate nothing, so a definition is left as it was by `Text.contents`, the lines that hold
anything, and those of the whole are those of the parts (`Text.contents_append`).

Sections follow.  The lines that declare something, section by section, are `Section.blocks`; a
separator line between two texts puts the blocks of one behind those of the other
(`Section.blocks_append_separator`), and a newline alone joins the last block of the first to
the first one of the second (`Section.blocks_append_newline`).  Since the messages of a
definition are read off its blocks (`Interface.readMessages_iff_blocks`), reading is
compositional: `Interface.ofText_compositional`.
-/
import RosInterface.Proofs.Definition.Reading
import RosInterface.Proofs.Text.LineEnds
import Mathlib.Data.List.Nodup

set_option autoImplicit false

namespace RosInterface

open CodePoint (newline)

/-! ## Lines that hold anything -/

namespace Text

/-- The lines of a definition that hold anything. -/
def contents (s : Text) : List Text := s.normalNewlines.lines.filter fun line => !line.isEmpty

theorem filter_lines_closed (s : Text) :
    (lines (Section.closed s.unifyNewlines)).filter (fun line => !line.isEmpty) = s.contents := by
  rw [Section.closed, contents, normalNewlines]
  split
  case isTrue empty =>
    rw [empty]
    decide
  case isFalse => rfl

/-- **The lines of a text that is put together are those of its parts.** -/
theorem contents_append (s t : Text) :
    contents (s ++ newline :: t) = s.contents ++ t.contents := by
  obtain ⟨body, own, free⟩ := exists_normalNewlines s
  obtain ⟨empty, isEmpty, whole⟩ := exists_normalNewlines_append s t
  have between : (lines (empty ++ Section.closed t.unifyNewlines)).filter
      (fun line => !line.isEmpty) = t.contents := by
    rw [← filter_lines_closed]
    rcases isEmpty with rfl | rfl
    · rfl
    · rw [List.singleton_append, lines_newline]
      rfl
  have first : s.contents = (lines (body ++ [newline])).filter fun line => !line.isEmpty := by
    rw [contents, own]
  rw [contents, whole, own, List.append_assoc, List.singleton_append, lines_append_closed free,
    List.filter_append, between, first]

theorem contents_separator : contents Section.separator = [Section.separator] := by decide

end Text

/-! ## Sections of texts that are put together -/

namespace Section

/-- The lines of a text that declare something, section by section. -/
def blocks (text : Text) : List (List Text) := (all text).map active

theorem cut_ne_nil (lines : List (Nat × Text)) : cut lines ≠ [] := by
  fun_cases cut lines <;> simp

/-- Numbers play no part in cutting. -/
theorem map_active_cut (lines : List (Nat × Text)) :
    (cut lines).map active = ((lines.map (·.2)).splitOnP isSeparator).map
      (·.filter fun line => !line.isSilent) := by
  induction lines with
  | nil => rfl
  | cons line rest ih =>
      obtain ⟨number, text⟩ := line
      rw [cut, List.map_cons, List.splitOnP_cons_eq_if_modifyHead]
      split
      case isTrue => rw [List.map_cons, List.map_cons, ih]; rfl
      case isFalse =>
        obtain ⟨first, others, parts⟩ := List.exists_cons_of_ne_nil (cut_ne_nil rest)
        obtain ⟨own, more, split⟩ := List.exists_cons_of_ne_nil
          (List.splitOnP_ne_nil isSeparator (rest.map (·.2)))
        rw [parts, split, List.map_cons, List.map_cons, List.cons.injEq] at ih
        rw [parts, split, List.modifyHead_cons]
        simp only [List.map_cons, List.cons.injEq]
        refine ⟨?_, ih.2⟩
        rw [List.filter_cons, ← ih.1, active, active, List.map_cons, List.filter_cons]

/-- Empty lines declare nothing and separate nothing. -/
theorem filter_splitOnP (lines : List Text) :
    ((lines.filter fun line => !line.isEmpty).splitOnP isSeparator).map
        (·.filter fun line => !line.isSilent) =
      (lines.splitOnP isSeparator).map (·.filter fun line => !line.isSilent) := by
  induction lines with
  | nil => rfl
  | cons line rest ih =>
      obtain ⟨first, others, parts⟩ := List.exists_cons_of_ne_nil
        (List.splitOnP_ne_nil isSeparator rest)
      cases line with
      | nil =>
          have inside : isSeparator [] = false := by decide
          have silent : Text.isSilent [] = true := by decide
          rw [List.splitOnP_cons_eq_if_modifyHead, inside, parts]
          simpa [silent, parts] using ih
      | cons c more =>
          obtain ⟨own, later, split⟩ := List.exists_cons_of_ne_nil
            (List.splitOnP_ne_nil isSeparator (rest.filter fun line => !line.isEmpty))
          rw [List.filter_cons_of_pos (by rfl), List.splitOnP_cons_eq_if_modifyHead,
            List.splitOnP_cons_eq_if_modifyHead]
          split
          case isTrue => rw [List.map_cons, List.map_cons, ih]
          case isFalse =>
            rw [split, parts, List.map_cons, List.map_cons, List.cons.injEq] at ih
            rw [split, parts, List.modifyHead_cons, List.modifyHead_cons]
            simp only [List.map_cons, List.cons.injEq]
            refine ⟨?_, ih.2⟩
            rw [List.filter_cons, List.filter_cons, ih.1]

theorem blocks_eq (text : Text) :
    blocks text = (text.contents.splitOnP isSeparator).map
      (·.filter fun line => !line.isSilent) := by
  rw [blocks, all, map_active_cut, snd_numbered, Text.contents, filter_splitOnP]

theorem blocks_ne_nil (text : Text) : blocks text ≠ [] := by
  rw [blocks, all]
  simpa using cut_ne_nil _

/-- **A separator line between two texts parts their sections.** -/
theorem blocks_append_separator (s t : Text) :
    blocks (s ++ "\n---\n" ++ t) = blocks s ++ blocks t := by
  have whole : s ++ Text.ofString "\n---\n" ++ t = s ++ newline :: (separator ++ newline :: t) := by
    rw [List.append_assoc]
    rfl
  have separates : isSeparator separator = true := by decide
  rw [whole, blocks_eq, Text.contents_append, Text.contents_append, Text.contents_separator,
    List.singleton_append, List.splitOnP_append_cons _ _ separates, List.map_append,
    ← blocks_eq, ← blocks_eq]

theorem blocks_joined {texts : List Text} (some_ : texts ≠ []) :
    blocks (Text.joined "\n---\n" texts) = texts.flatMap blocks := by
  induction texts with
  | nil => exact absurd rfl some_
  | cons text texts ih =>
      cases texts with
      | nil => simp [Text.joined_singleton]
      | cons next texts =>
          have later := ih (List.cons_ne_nil next texts)
          rw [Text.joined_cons_cons, ← List.append_assoc, blocks_append_separator, later]
          rfl

/-- A text has one block exactly when nothing separates its lines. -/
theorem blocks_eq_singleton_iff {text : Text} {block : List Text} :
    blocks text = [block] ↔ (∀ line ∈ text.contents, isSeparator line = false) ∧
      block = text.contents.filter fun line => !line.isSilent := by
  rw [blocks_eq]
  constructor
  · intro single
    have inside : ∀ line ∈ text.contents, isSeparator line = false := by
      intro line member
      rw [Bool.eq_false_iff]
      intro separates
      obtain ⟨before, after, split⟩ := List.append_of_mem member
      have count := congrArg List.length single
      have first := List.length_pos_of_ne_nil (List.splitOnP_ne_nil isSeparator before)
      have second := List.length_pos_of_ne_nil (List.splitOnP_ne_nil isSeparator after)
      rw [split, List.splitOnP_append_cons _ _ separates, List.length_map, List.length_append,
        List.length_singleton] at count
      omega
    rw [List.splitOnP_eq_singleton inside] at single
    exact ⟨inside, (List.cons.inj single).1.symm⟩
  · rintro ⟨inside, rfl⟩
    rw [List.splitOnP_eq_singleton inside]
    rfl

/-- A newline alone joins two texts of one block into one. -/
theorem blocks_append_newline {s t : Text} {block : List Text} :
    blocks (s ++ "\n" ++ t) = [block] ↔
      ∃ first second, blocks s = [first] ∧ blocks t = [second] ∧ block = first ++ second := by
  have whole : s ++ Text.ofString "\n" ++ t = s ++ newline :: t := by
    rw [List.append_assoc]
    rfl
  simp only [blocks_eq_singleton_iff, whole, Text.contents_append, List.mem_append,
    List.filter_append]
  constructor
  · rintro ⟨inside, rfl⟩
    exact ⟨_, _, ⟨fun line member => inside line (.inl member), rfl⟩,
      ⟨fun line member => inside line (.inr member), rfl⟩, rfl⟩
  · rintro ⟨_, _, ⟨first, rfl⟩, ⟨second, rfl⟩, rfl⟩
    exact ⟨fun line member => member.elim (first line) (second line), rfl⟩

end Section

/-! ## Messages of blocks -/

namespace Message

/-- The lines declare the items of a message, each one of them, and no name twice. -/
def Declares (package name : Text) (lines : List Text) (message : Message) : Prop :=
  ∃ items, List.Forall₂ (fun line item => Item.ofLine line = .ok item) lines items ∧
    message = ofItems package name items ∧ message.declaredNames.Nodup

variable {package name : Text} {lines more : List Text} {message : Message}

/-- The names of a message do not depend on what it is called. -/
theorem declaredNames_ofItems_append (first second : List Item) :
    (ofItems package name (first ++ second)).declaredNames.Perm
      ((ofItems package name first).declaredNames ++
        (ofItems package name second).declaredNames) := by
  simp only [declaredNames, ofItems, List.filterMap_append, List.map_append, List.append_assoc]
  refine List.Perm.append_left _ ?_
  rw [← List.append_assoc, ← List.append_assoc]
  exact List.Perm.append_right _ List.perm_append_comm

/-- **Lines behind each other declare two messages in one**, as far as these share no name. -/
theorem declares_append_iff :
    Declares package name (lines ++ more) message ↔
      ∃ first second, Declares package name lines first ∧ Declares package name more second ∧
        (∀ declared ∈ first.declaredNames, declared ∉ second.declaredNames) ∧
        message = ⟨package, name, first.members ++ second.members,
          first.constants ++ second.constants⟩ := by
  have joined (items others : List Item) : ofItems package name (items ++ others) =
      ⟨package, name, (ofItems package name items).members ++ (ofItems package name others).members,
        (ofItems package name items).constants ++ (ofItems package name others).constants⟩ := by
    simp [ofItems]
  have disjoint {items others : List Item} :
      (ofItems package name (items ++ others)).declaredNames.Nodup ↔
        (ofItems package name items).declaredNames.Nodup ∧
          (ofItems package name others).declaredNames.Nodup ∧
            ∀ declared ∈ (ofItems package name items).declaredNames,
              declared ∉ (ofItems package name others).declaredNames := by
    rw [(declaredNames_ofItems_append items others).nodup_iff, List.nodup_append']
    exact Iff.rfl
  constructor
  · rintro ⟨items, read, rfl, distinct⟩
    have readFirst := List.forall₂_take lines.length read
    have readSecond := List.forall₂_drop lines.length read
    rw [List.take_left] at readFirst
    rw [List.drop_left] at readSecond
    rw [← List.take_append_drop lines.length items] at distinct ⊢
    obtain ⟨own, others, apart⟩ := disjoint.1 distinct
    exact ⟨_, _, ⟨_, readFirst, rfl, own⟩, ⟨_, readSecond, rfl, others⟩, apart, joined _ _⟩
  · rintro ⟨_, _, ⟨items, read, rfl, distinct⟩, ⟨others, readToo, rfl, distinctToo⟩, apart, rfl⟩
    refine ⟨items ++ others, List.rel_append read readToo, (joined items others).symm, ?_⟩
    rw [← joined]
    exact disjoint.2 ⟨distinct, distinctToo, apart⟩

/-- A section is read for the lines in it that declare something. -/
theorem ofSection_iff_declares {block : Section} :
    ofSection package name block = .ok message ↔ Declares package name block.active message :=
  ofSection_eq_ok_iff

end Message

/-! ## Definitions of blocks -/

namespace Interface

variable {kind : Kind} {package name text : Text} {interface : Interface}

/-- The messages of a definition are read off its blocks. -/
theorem readMessages_iff_blocks {messages : List Message} :
    readMessages kind package name text = .ok messages ↔
      (Section.blocks text).length = kind.sectionSuffixes.length ∧
        List.Forall₂ (fun part message =>
          Message.Declares package (name ++ part.2) part.1 message)
          ((Section.blocks text).zip kind.sectionSuffixes) messages := by
  have parts : (Section.blocks text).zip kind.sectionSuffixes =
      ((Section.all text).zip kind.sectionSuffixes).map fun part => (part.1.active, part.2) := by
    rw [Section.blocks, List.zip_map_left]
    rfl
  rw [readMessages_eq_ok_iff, parts, List.forall₂_map_left_iff, Section.blocks, List.length_map]
  simp only [Message.ofSection_iff_declares]

/-- A message is read off its only block. -/
theorem ofText_message_iff {message : Message} :
    ofText .message package name text = .ok (.message message) ↔
      ∃ block, Section.blocks text = [block] ∧ Message.Declares package name block message := by
  have unnamed : name ++ Text.ofString "" = name := List.append_nil name
  rw [ofText_eq_ok_iff, readMessages_iff_blocks]
  constructor
  · rintro ⟨-, ⟨counted, each⟩, -⟩
    obtain ⟨block, only⟩ := List.length_eq_one_iff.1 counted
    rw [only] at each
    cases each with
    | cons declares => exact ⟨block, only, unnamed ▸ declares⟩
  · rintro ⟨block, only, declares⟩
    rw [only]
    exact ⟨rfl, ⟨rfl, .cons (unnamed.symm ▸ declares) .nil⟩, .inl rfl⟩

/-- Texts have at least one block each, so there are as many blocks as texts only where each
text has one. -/
theorem declares_flatMap_iff {texts suffixes : List Text} {messages : List Message}
    (counted : texts.length = suffixes.length) :
    (texts.flatMap Section.blocks).length = suffixes.length ∧
        List.Forall₂ (fun part message => Message.Declares package (name ++ part.2) part.1 message)
          ((texts.flatMap Section.blocks).zip suffixes) messages ↔
      List.Forall₂ (fun part message =>
        ofText .message package (name ++ part.2) part.1 = .ok (.message message))
        (texts.zip suffixes) messages := by
  have enough (texts : List Text) : texts.length ≤ (texts.flatMap Section.blocks).length := by
    induction texts with
    | nil => exact Nat.zero_le _
    | cons text texts ih =>
        have some_ := List.length_pos_of_ne_nil (Section.blocks_ne_nil text)
        rw [List.flatMap_cons, List.length_append, List.length_cons]
        omega
  induction texts generalizing suffixes messages with
  | nil =>
      obtain rfl := List.length_eq_zero_iff.1 counted.symm
      rw [List.zip_nil_right, List.zip_nil_right]
      simp
  | cons text texts ih =>
      obtain ⟨suffix, suffixes, rfl⟩ := List.exists_cons_of_length_eq_add_one counted.symm
      have fewer : texts.length = suffixes.length := by simpa using counted
      rw [List.flatMap_cons, List.zip_cons_cons, List.forall₂_cons_left_iff]
      constructor
      · rintro ⟨same, each⟩
        obtain ⟨block, only⟩ : ∃ block, Section.blocks text = [block] := by
          have some_ := List.length_pos_of_ne_nil (Section.blocks_ne_nil text)
          have later := enough texts
          rw [List.length_append, List.length_cons] at same
          exact List.length_eq_one_iff.1 (by omega)
        rw [only, List.singleton_append, List.length_cons, List.length_cons] at same
        rw [only, List.singleton_append, List.zip_cons_cons, List.forall₂_cons_left_iff] at each
        obtain ⟨message, others, declares, rest, rfl⟩ := each
        exact ⟨message, others, ofText_message_iff.2 ⟨block, only, declares⟩,
          (ih fewer).1 ⟨Nat.succ.inj same, rest⟩, rfl⟩
      · rintro ⟨message, others, read, rest, rfl⟩
        obtain ⟨block, only, declares⟩ := ofText_message_iff.1 read
        obtain ⟨same, each⟩ := (ih fewer).2 rest
        rw [only]
        exact ⟨congrArg Nat.succ same, .cons declares each⟩

/-- **The sections of a definition are read as messages of their own.** -/
theorem readMessages_separated (texts : List Text) {messages : List Message}
    (counted : texts.length = kind.sectionSuffixes.length) :
    readMessages kind package name (Text.joined "\n---\n" texts) = .ok messages ↔
      List.Forall₂ (fun part message =>
        ofText .message package (name ++ part.2) part.1 = .ok (.message message))
        (texts.zip kind.sectionSuffixes) messages := by
  have some_ : texts ≠ [] := by
    rintro rfl
    cases kind <;> cases counted
  rw [readMessages_iff_blocks, Section.blocks_joined some_, declares_flatMap_iff counted]

theorem ofText_action_iff {a b c : Text} :
    ofText .action package name (a ++ "\n---\n" ++ b ++ "\n---\n" ++ c) = .ok interface ↔
      ∃ goal result feedback,
        ofText .message package (name ++ "_Goal") a = .ok (.message goal) ∧
        ofText .message package (name ++ "_Result") b = .ok (.message result) ∧
        ofText .message package (name ++ "_Feedback") c = .ok (.message feedback) ∧
        interface = .action ⟨package, name, goal, result, feedback⟩ := by
  have three : a ++ Text.ofString "\n---\n" ++ b ++ Text.ofString "\n---\n" ++ c =
      Text.joined "\n---\n" [a, b, c] := by
    rw [Text.joined_cons_cons, Text.joined_cons_cons, Text.joined_singleton]
    simp only [List.append_assoc]
  rw [three, ofText_eq_ok_iff, readMessages_separated [a, b, c] rfl]
  constructor
  · intro ⟨same, each, named⟩
    cases interface with
    | message _ => cases same
    | service _ => cases same
    | action action =>
        obtain ⟨rfl, rfl⟩ := named.resolve_left (by simp)
        obtain _ | ⟨first, _ | ⟨second, _ | ⟨third, _⟩⟩⟩ := each
        exact ⟨_, _, _, first, second, third, rfl⟩
  · rintro ⟨goal, result, feedback, first, second, third, rfl⟩
    exact ⟨rfl, .cons first (.cons second (.cons third .nil)), .inr ⟨rfl, rfl⟩⟩

theorem ofText_service_iff {a b : Text} :
    ofText .service package name (a ++ "\n---\n" ++ b) = .ok interface ↔
      ∃ request response,
        ofText .message package (name ++ "_Request") a = .ok (.message request) ∧
        ofText .message package (name ++ "_Response") b = .ok (.message response) ∧
        interface = .service ⟨package, name, request, response⟩ := by
  have two : a ++ Text.ofString "\n---\n" ++ b = Text.joined "\n---\n" [a, b] := by
    rw [Text.joined_cons_cons, Text.joined_singleton]
    exact List.append_assoc _ _ _
  rw [two, ofText_eq_ok_iff, readMessages_separated [a, b] rfl]
  constructor
  · intro ⟨same, each, named⟩
    cases interface with
    | message _ => cases same
    | service service =>
        obtain ⟨rfl, rfl⟩ := named.resolve_left (by simp)
        obtain _ | ⟨first, _ | ⟨second, _⟩⟩ := each
        exact ⟨_, _, first, second, rfl⟩
    | action _ => cases same
  · rintro ⟨request, response, first, second, rfl⟩
    exact ⟨rfl, .cons first (.cons second .nil), .inr ⟨rfl, rfl⟩⟩

/-- A text without sections of its own is a message or nothing. -/
theorem exists_message (read : ofText .message package name text = .ok interface) :
    ∃ message, interface = .message message := by
  obtain ⟨same, -⟩ := ofText_eq_ok_iff.1 read
  cases interface with
  | message message => exact ⟨message, rfl⟩
  | service _ => cases same
  | action _ => cases same

theorem ofText_message_append_iff {a b : Text} :
    ofText .message package name (a ++ "\n" ++ b) = .ok interface ↔
      ∃ first second,
        ofText .message package name a = .ok (.message first) ∧
        ofText .message package name b = .ok (.message second) ∧
        (∀ declared ∈ first.declaredNames, declared ∉ second.declaredNames) ∧
        interface = .message ⟨package, name, first.members ++ second.members,
          first.constants ++ second.constants⟩ := by
  constructor
  · intro read
    obtain ⟨message, rfl⟩ := exists_message read
    obtain ⟨block, only, declares⟩ := ofText_message_iff.1 read
    obtain ⟨lines, more, own, others, rfl⟩ := Section.blocks_append_newline.1 only
    obtain ⟨first, second, declaresFirst, declaresSecond, apart, rfl⟩ :=
      Message.declares_append_iff.1 declares
    exact ⟨first, second, ofText_message_iff.2 ⟨lines, own, declaresFirst⟩,
      ofText_message_iff.2 ⟨more, others, declaresSecond⟩, apart, rfl⟩
  · rintro ⟨first, second, readFirst, readSecond, apart, rfl⟩
    obtain ⟨lines, own, declaresFirst⟩ := ofText_message_iff.1 readFirst
    obtain ⟨more, others, declaresSecond⟩ := ofText_message_iff.1 readSecond
    refine ofText_message_iff.2 ⟨lines ++ more, ?_, ?_⟩
    · exact Section.blocks_append_newline.2 ⟨lines, more, own, others, rfl⟩
    · exact Message.declares_append_iff.2
        ⟨first, second, declaresFirst, declaresSecond, apart, rfl⟩

/-- **Reading is compositional over sections.**  An action is read exactly when its three parts
are, each as a message of its own name, and a service when its two parts are.  A message is read
exactly when two parts of it are and share no name.  No text is excepted: one that has separator
lines of its own is no part and makes the whole none, either. -/
theorem ofText_compositional (package name a b c : Text) (interface : Interface) :
    (ofText .action package name (a ++ "\n---\n" ++ b ++ "\n---\n" ++ c) = .ok interface ↔
      ∃ goal result feedback,
        ofText .message package (name ++ "_Goal") a = .ok (.message goal) ∧
        ofText .message package (name ++ "_Result") b = .ok (.message result) ∧
        ofText .message package (name ++ "_Feedback") c = .ok (.message feedback) ∧
        interface = .action ⟨package, name, goal, result, feedback⟩) ∧
    (ofText .service package name (a ++ "\n---\n" ++ b) = .ok interface ↔
      ∃ request response,
        ofText .message package (name ++ "_Request") a = .ok (.message request) ∧
        ofText .message package (name ++ "_Response") b = .ok (.message response) ∧
        interface = .service ⟨package, name, request, response⟩) ∧
    (ofText .message package name (a ++ "\n" ++ b) = .ok interface ↔
      ∃ first second,
        ofText .message package name a = .ok (.message first) ∧
        ofText .message package name b = .ok (.message second) ∧
        (∀ declared ∈ first.declaredNames, declared ∉ second.declaredNames) ∧
        interface = .message ⟨package, name, first.members ++ second.members,
          first.constants ++ second.constants⟩) :=
  ⟨ofText_action_iff, ofText_service_iff, ofText_message_append_iff⟩

end Interface

end RosInterface
