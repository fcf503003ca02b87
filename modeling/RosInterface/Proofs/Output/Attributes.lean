/-
# RosInterface.Proofs.Output.Attributes -- the attributes of a data class

The body of a data class binds the name of its type, then its constants and its fields, and it
uses a few names of its module while it does so.  A field whose name is a reserved word is
renamed, and nothing is compared with anything then, so it is the grammar of names that keeps
the attributes apart: the name of a member does not end in an underscore, so no other member
has a name that was made by adding one (`Text.MemberName.attributeName_inj`); it begins with a
small letter, and the name of a constant has none.

`ClassDeclaration.attributes_apart` says so of every message that is read or derived: its
attributes are distinct, each can be written as an attribute, and none hides a name that the
body uses.
-/
import RosInterface.Proofs.Definition.Package
import RosInterface.Proofs.Output.Reference

set_option autoImplicit false

namespace RosInterface

/-! ## Names -/

namespace Text

/-- The names that the body of a data class uses: what it takes from its module, and the
attribute for its type. -/
def bodyNames : List Text := List.map Text.ofString ["_field", "_builtins", "ClassVar", "_type"]

/-- The name can be given to an attribute, and hides nothing that is used beside it. -/
structure IsAttribute (s : Text) : Prop where
  isIdentifier : s.IsIdentifier
  unreserved : s ∉ reservedWords
  apart : s ∉ bodyNames

variable {s t : Text}

theorem attributeName_of_mem (reserved : s ∈ reservedWords) : s.attributeName = s ++ "_" :=
  if_pos (List.contains_iff_mem.2 reserved)

theorem attributeName_of_not_mem (free : s ∉ reservedWords) : s.attributeName = s :=
  if_neg fun contained => free (List.contains_iff_mem.1 contained)

/-- No reserved word ends as a renamed one does. -/
theorem getLast?_of_mem_reservedWords :
    ∀ s ∈ reservedWords, s.getLast? ≠ some (CodePoint.ofChar '_') := by
  decide

theorem IsIdentifier.append {suffix : Text} (name : s.IsIdentifier)
    (words : ∀ c ∈ suffix, c.isWord = true) : (s ++ suffix).IsIdentifier := by
  obtain ⟨c, rest, rfl, letter, inRest⟩ := name
  exact ⟨c, rest ++ suffix, rfl, letter, List.forall_mem_append.2 ⟨inRest, words⟩⟩

namespace MemberName

/-- **A name that is no reserved word itself never becomes that of a renamed one.** -/
theorem attributeName_inj (first : MemberName s) (second : MemberName t) :
    s.attributeName = t.attributeName ↔ s = t := by
  -- a name that ends in an underscore is no name of a member
  have renamed {s t : Text} (name : MemberName t) : t ≠ s ++ "_" := by
    rintro rfl
    exact name.closed List.getLast?_concat
  constructor
  · intro same
    by_cases inFirst : s ∈ reservedWords <;> by_cases inSecond : t ∈ reservedWords
    · rw [attributeName_of_mem inFirst, attributeName_of_mem inSecond] at same
      exact List.append_cancel_right same
    · rw [attributeName_of_mem inFirst, attributeName_of_not_mem inSecond] at same
      exact absurd same.symm (renamed second)
    · rw [attributeName_of_not_mem inFirst, attributeName_of_mem inSecond] at same
      exact absurd same (renamed first)
    · rwa [attributeName_of_not_mem inFirst, attributeName_of_not_mem inSecond] at same
  · rintro rfl
    rfl

/-- A renamed member still begins with a small letter. -/
theorem head?_attributeName (name : MemberName s) :
    ∃ c, s.attributeName.head? = some c ∧ c.isLower = true := by
  obtain ⟨c, rest, rfl, lower⟩ := name.first
  refine ⟨c, ?_, lower⟩
  rw [attributeName]
  split <;> rfl

/-- **The name of a field is an attribute.** -/
theorem isAttribute (name : MemberName s) : s.attributeName.IsAttribute := by
  refine ⟨?_, ?_, fun used => ?_⟩
  · by_cases reserved : s ∈ reservedWords
    · rw [attributeName_of_mem reserved]
      exact name.isIdentifier.append (by decide)
    · rw [attributeName_of_not_mem reserved]
      exact name.isIdentifier
  · by_cases reserved : s ∈ reservedWords
    · rw [attributeName_of_mem reserved]
      intro again
      exact getLast?_of_mem_reservedWords _ again List.getLast?_concat
    · rwa [attributeName_of_not_mem reserved]
  · have capital : ∀ s ∈ bodyNames, s.head?.any (·.isLower) = false := by decide
    obtain ⟨c, first, lower⟩ := name.head?_attributeName
    have outside := capital _ used
    rw [first, Option.any_some, lower] at outside
    cases outside

end MemberName

namespace ConstantName

theorem not_isLower (name : ConstantName s) {c : CodePoint} (member : c ∈ s) :
    c.isLower = false := by
  rw [Bool.eq_false_iff, Ne, CodePoint.isLower_iff]
  rcases name.letters c member with upper | digit | rfl
  · rw [CodePoint.isUpper_iff] at upper
    omega
  · rw [CodePoint.isDigit_iff] at digit
    omega
  · decide

/-- **The name of a constant is an attribute**: a reserved word has a small letter, and so has
each name that a body uses. -/
theorem isAttribute (name : ConstantName s) : s.IsAttribute := by
  have small : ∀ word ∈ reservedWords ++ bodyNames, ∃ c ∈ word, c.isLower = true := by
    decide
  have apart : s ∉ reservedWords ++ bodyNames := by
    intro word
    obtain ⟨c, member, lower⟩ := small s word
    rw [name.not_isLower member] at lower
    cases lower
  rw [List.mem_append, not_or] at apart
  exact ⟨name.isIdentifier, apart.1, apart.2⟩

end ConstantName

end Text

/-! ## Messages -/

/-- The messages that an action brings beside those that are written in it. -/
def Action.derivedMessages (action : Action) : List Message :=
  [action.sendGoal.request, action.sendGoal.response, action.getResult.request,
   action.getResult.response, action.feedbackMessage]

namespace Message

/-- The message is one of a definition that was read, or it is derived from an action. -/
inductive Produced (message : Message) : Prop where
  | read {kind : Kind} {package name text : Text} {interface : Interface}
      (read : Interface.ofText kind package name text = .ok interface)
      (member : message ∈ interface.messages)
  | derived {action : Action} (member : message ∈ action.derivedMessages)

/-- What the message declares is named as its kind of item asks, and differently. -/
structure Named (message : Message) : Prop where
  members : ∀ m ∈ message.members, Text.MemberName m.name
  constants : ∀ c ∈ message.constants, Text.ConstantName c.name
  distinct : message.declaredNames.Nodup

theorem WellFormed.named {message : Message} (wellFormed : message.WellFormed) : message.Named :=
  ⟨fun m member => (wellFormed.members m member).name,
    fun c member => (wellFormed.constants c member).name, wellFormed.distinct⟩

end Message

/-- Derived messages have fixed names, whatever the action is called. -/
theorem Action.named_derived (action : Action) : ∀ m ∈ action.derivedMessages, m.Named := by
  have named {message : Message} (names : List Text) (bare : message.constants = [])
      (members : message.members.map (·.name) = names)
      (each : ∀ name ∈ names, Text.isMemberName name = true) (distinct : names.Nodup) :
      message.Named := by
    refine ⟨fun m member => ?_, fun c member => ?_, ?_⟩
    · refine Text.isMemberName_iff.1 (each m.name ?_)
      rw [← members]
      exact List.mem_map_of_mem member
    · rw [bare] at member
      cases member
    · rw [Message.declaredNames, members, bare, List.map_nil, List.append_nil]
      exact distinct
  simp only [derivedMessages, List.forall_mem_cons]
  exact ⟨named ["goal_id", "goal"] rfl rfl (by decide) (by decide),
    named ["accepted", "stamp"] rfl rfl (by decide) (by decide),
    named ["goal_id"] rfl rfl (by decide) (by decide),
    named ["status", "result"] rfl rfl (by decide) (by decide),
    named ["goal_id", "feedback"] rfl rfl (by decide) (by decide),
    List.forall_mem_nil _⟩

/-- All messages of a well-formed definition are named so. -/
theorem Interface.WellFormed.named {interface : Interface} {package name : Text}
    (wellFormed : interface.WellFormed package name) : ∀ m ∈ interface.messages, m.Named := by
  have written : ∀ m ∈ interface.sections, m.Named := fun m member =>
    (wellFormed.sections m member).named
  cases interface with
  | message _ | service _ => exact written
  | action a => exact List.forall_mem_append.2 ⟨written, a.named_derived⟩

theorem Message.Produced.named {message : Message} (produced : message.Produced) :
    message.Named := by
  cases produced with
  | read read member => exact (Interface.wellFormed_of_ofText read).2.named message member
  | derived member => exact Action.named_derived _ message member

/-! ## Data classes -/

/-- The attributes of a data class, in the order in which its body binds them. -/
def MessageClass.attributes (declared : MessageClass) : List Text :=
  "_type" :: (declared.constants.map (·.name) ++ declared.fields.map (·.name))

namespace ClassDeclaration

variable {message : Message}

theorem map_name_constants (scope : Scope) (message : Message) :
    (message.constants.map (ofConstant scope)).map (·.name) = message.constants.map (·.name) := by
  rw [List.map_map]
  rfl

theorem map_name_members (scope : Scope) (message : Message) :
    (message.members.map (ofMember scope)).map (·.name) =
      (message.members.map (·.name)).map Text.attributeName := by
  rw [List.map_map, List.map_map]
  rfl

/-- The names that a message declares become attributes. -/
theorem isAttribute_of_named (named : message.Named) :
    ∀ name ∈ message.constants.map (·.name) ++
      (message.members.map (·.name)).map Text.attributeName, name.IsAttribute := by
  simp only [List.forall_mem_append, List.forall_mem_map]
  exact ⟨fun c member => (named.constants c member).isAttribute,
    fun m member => (named.members m member).isAttribute⟩

/-- Constants and fields are told apart by their first letters, and fields by the names of their
members. -/
theorem nodup_of_named (named : message.Named) :
    (message.constants.map (·.name) ++
      (message.members.map (·.name)).map Text.attributeName).Nodup := by
  obtain ⟨members, constants, distinct⟩ := named
  rw [Message.declaredNames, List.nodup_append] at distinct
  obtain ⟨ofMembers, ofConstants, -⟩ := distinct
  have fields : ((message.members.map (·.name)).map Text.attributeName).Nodup := by
    refine (List.nodup_map_iff_inj_on ofMembers).2 fun s inFirst t inSecond same => ?_
    obtain ⟨a, inMembers, rfl⟩ := List.mem_map.1 inFirst
    obtain ⟨b, inMembers', rfl⟩ := List.mem_map.1 inSecond
    exact ((members a inMembers).attributeName_inj (members b inMembers')).1 same
  refine List.nodup_append.2 ⟨ofConstants, fields, fun s inConstants t inFields same => ?_⟩
  obtain ⟨c, isConstant, rfl⟩ := List.mem_map.1 inConstants
  simp only [List.mem_map] at inFields
  obtain ⟨_, ⟨m, isMember, rfl⟩, rfl⟩ := inFields
  obtain ⟨letter, first, lower⟩ := (members m isMember).head?_attributeName
  rw [← same] at first
  have capital := (constants c isConstant).not_isLower (List.mem_of_mem_head? first)
  rw [lower] at capital
  cases capital

/-- **The attributes of a data class are usable and hide nothing.**  For every message that was
read or is derived from an action, and in every scope: the class has the constants of the message
under their names, and a field for each member under the name that is made of its own; the name
of the type, the constants and the fields are distinct; each constant and each field has an ASCII
identifier for a name, no reserved word, and none of the names that the body uses; and members
with one field name are one member. -/
theorem attributes_apart (produced : message.Produced) (scope : Scope) :
    ∃ declared, ofMessage scope message = .message declared ∧
      declared.constants.map (·.name) = message.constants.map (·.name) ∧
      declared.fields.map (·.name) = (message.members.map (·.name)).map Text.attributeName ∧
      declared.attributes.Nodup ∧
      (∀ constant ∈ declared.constants, constant.name.IsAttribute) ∧
      (∀ field ∈ declared.fields, field.name.IsAttribute) ∧
      ∀ a ∈ message.members, ∀ b ∈ message.members,
        (ofMember scope a).name = (ofMember scope b).name → a = b := by
  have named := produced.named
  have isAttribute := isAttribute_of_named named
  have apart := nodup_of_named named
  refine ⟨_, rfl, map_name_constants scope message, map_name_members scope message, ?_, ?_, ?_, ?_⟩
  · rw [MessageClass.attributes, map_name_constants, map_name_members]
    refine List.nodup_cons.2 ⟨fun again => ?_, apart⟩
    exact (isAttribute _ again).apart (by decide)
  · intro constant member
    refine isAttribute _ (List.mem_append_left _ ?_)
    rw [← map_name_constants scope]
    exact List.mem_map_of_mem member
  · intro field member
    refine isAttribute _ (List.mem_append_right _ ?_)
    rw [← map_name_members scope]
    exact List.mem_map_of_mem member
  · intro a inMembers b inMembers' same
    have own := (List.nodup_append.1 apart).2.1
    rw [List.map_map] at own
    exact List.inj_on_of_nodup_map own inMembers inMembers' same

/-- A member that is renamed, one that has its name with another letter, and a constant. -/
def keywordMessage : Message :=
  let int32 : FieldType := .single (.primitive (.basic (.integer .int32)))
  ⟨"p", "M", [⟨"class", int32, none⟩, ⟨"class1", int32, none⟩], [⟨"CLASS", int32, ["1"]⟩]⟩

theorem attributes_apart_keyword :
    keywordMessage.Produced ∧
      ∃ declared, ofMessage ⟨"p", .message, [], false⟩ keywordMessage = .message declared ∧
        declared.attributes = ["_type", "CLASS", "class_", "class1"] ∧
        declared.attributes.Nodup := by
  let items : List Item :=
    keywordMessage.members.map .member ++ keywordMessage.constants.map .constant
  have lines : Section.all "int32 class\nint32 class1\nint32 CLASS=1\n" =
      [[(1, Text.ofString "int32 class"), (2, Text.ofString "int32 class1"),
        (3, Text.ofString "int32 CLASS=1")]] := by
    decide +kernel
  have active : Section.active [(1, Text.ofString "int32 class"),
      (2, Text.ofString "int32 class1"), (3, Text.ofString "int32 CLASS=1")] =
      ["int32 class", "int32 class1", "int32 CLASS=1"] := by
    decide +kernel
  have read : Interface.ofText .message "p" "M" "int32 class\nint32 class1\nint32 CLASS=1\n" =
      .ok (.message keywordMessage) := by
    refine Interface.ofText_message lines
      (Message.ofSection_eq_ok_iff.2 ⟨items, ?_, rfl, by decide⟩)
    rw [active]
    exact .cons rfl (.cons rfl (.cons rfl .nil))
  have produced : keywordMessage.Produced := .read read List.mem_cons_self
  obtain ⟨declared, same, -, -, distinct, -⟩ :=
    attributes_apart produced ⟨"p", .message, [], false⟩
  refine ⟨produced, declared, same, ?_, distinct⟩
  cases same
  decide +kernel

end ClassDeclaration

end RosInterface
