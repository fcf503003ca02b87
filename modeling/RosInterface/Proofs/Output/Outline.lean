/-
# RosInterface.Proofs.Output.Outline -- the classes among the lines of a module

What a module is written as has the shape of its classes: a class is a header, a docstring and
a body one level deeper, and between classes and in their bodies stand other lines and gaps.
`Writer.Outline` is the grammar of that shape.  It collects the classes that have a docstring
(`ClassNote`); the only class without one is that of a kind in a single file.

All other lines are told from headers by how they begin or end (`Text.Plain`).  A member and a
constant begin with an identifier and a colon; a line that binds a class to another may begin
with anything, since definitions may have any name, but it ends as the name of a class of a
definition does.  Where names hold no white space no line begins with any, and an outline can say
that too.

`Sources.WrittenBy.exists_outline` is the result: the steps of every source come to entries with
an outline.  So the two texts of a source, with docstrings and without them, have one outline
(`Sources.SameSteps.exists_outline`).
-/
import RosInterface.Proofs.Output.Attributes
import RosInterface.Proofs.Output.Enumeration
import RosInterface.Proofs.Output.OneLine

set_option autoImplicit false

namespace RosInterface

open Writer (Entry Opens indentation)
open ClassDeclaration (header)

/-! ## Headers and other lines -/

namespace Text

/-- The line opens a class, its header at a depth. -/
def IsHeader (level : Nat) (line : Text) : Prop := ∃ name, line = indentation level ++ header name

/-- The text begins with something other than white space. -/
def IsFlush (s : Text) : Prop := ∃ c rest, s = c :: rest ∧ c.isSpace = false

/-- The text opens no class, at whatever depth it stands; and where names are known to be `solid`,
nothing stands before it. -/
structure Plain (solid : Prop) (s : Text) : Prop where
  noHeader : ∀ depth level, ¬ IsHeader level (indentation depth ++ s)
  flush : solid → s.IsFlush

variable {solid : Prop} {s t : Text}

theorem IsFlush.stops (flush : s.IsFlush) : Stops CodePoint.isSpace s := by
  obtain ⟨c, rest, rfl, visible⟩ := flush
  exact stops_cons.2 visible

theorem isFlush_header (name : Text) : (header name).IsFlush := ⟨_, _, rfl, by decide⟩

theorem isSpace_of_mem_indentation {level : Nat} :
    ∀ c ∈ indentation level, c.isSpace = true := by
  intro c member
  rw [List.eq_of_mem_replicate member]
  decide

/-- Only what goes on as a header does can open a class. -/
theorem eq_header_of_isHeader {depth level : Nat} (flush : s.IsFlush)
    (opens : IsHeader level (indentation depth ++ s)) : ∃ name, s = header name := by
  obtain ⟨name, same⟩ := opens
  refine ⟨name, ?_⟩
  calc s
    _ = (indentation depth ++ s).dropWhile (·.isSpace) :=
        (dropWhile_append_stop isSpace_of_mem_indentation flush.stops).symm
    _ = (indentation level ++ header name).dropWhile (·.isSpace) := by rw [same]
    _ = header name := dropWhile_append_stop isSpace_of_mem_indentation (isFlush_header name).stops

/-- The text begins with a letter that no header begins with. -/
def beginsPlainly (s : Text) : Bool :=
  s.head?.any fun c => !c.isSpace && c != CodePoint.ofChar 'c'

theorem plain_of_beginsPlainly (other : s.beginsPlainly = true) : s.Plain solid := by
  cases s with
  | nil => cases other
  | cons c rest =>
      simp only [beginsPlainly, List.head?_cons, Option.any_some, Bool.and_eq_true,
        Bool.not_eq_true', bne_iff_ne] at other
      have flush : IsFlush (c :: rest) := ⟨c, rest, rfl, other.1⟩
      refine ⟨fun depth level opens => ?_, fun _ => flush⟩
      obtain ⟨name, same⟩ := eq_header_of_isHeader flush opens
      exact other.2 (List.cons.inj same).1

theorem plain_append (other : s.beginsPlainly = true) (rest : Text) : (s ++ rest).Plain solid := by
  apply plain_of_beginsPlainly
  cases s with
  | nil => cases other
  | cons c _ => exact other

theorem IsFlush.append (flush : s.IsFlush) (rest : Text) : (s ++ rest).IsFlush := by
  obtain ⟨c, others, rfl, visible⟩ := flush
  exact ⟨c, others ++ rest, rfl, visible⟩

theorem IsIdentifier.isFlush (name : s.IsIdentifier) (rest : Text) : (s ++ rest).IsFlush := by
  obtain ⟨c, letters, rfl, letter, -⟩ := name
  exact ⟨c, letters ++ rest, rfl,
    CodePoint.not_isSpace_of_isWord (CodePoint.isWord_of_isLetter letter)⟩

/-- A line that names something before a colon opens no class: a header has a space before it. -/
theorem IsIdentifier.plain (name : s.IsIdentifier) (rest : Text) :
    (s ++ (CodePoint.ofChar ':' :: rest)).Plain solid := by
  refine ⟨fun depth level opens => ?_, fun _ => name.isFlush _⟩
  obtain ⟨class_, same⟩ := eq_header_of_isHeader (name.isFlush _) opens
  have space : CodePoint.ofChar ' ' ∉ s := fun member =>
    absurd (name.isWord _ member) (by decide)
  rw [header, List.append_assoc] at same
  rcases List.append_eq_append_iff.1 same with ⟨colon, whole, behind⟩ | ⟨more, whole, -⟩
  · -- the name ends within the word before the space, or at its end
    cases colon with
    | nil =>
        rw [List.append_nil] at whole
        exact space (whole ▸ by decide)
    | cons c letters =>
        have inWord : c ∈ ofString "class " := whole ▸ by simp
        rw [← (List.cons.inj behind).1] at inWord
        exact absurd inWord (by decide)
  · exact space (whole ▸ List.mem_append_left _ (by decide))

/-- The text ends in something other than a colon. -/
def endsPlainly (s : Text) : Bool := s.getLast?.any (· != CodePoint.ofChar ':')

theorem endsPlainly_append (ends : t.endsPlainly = true) : (s ++ t).endsPlainly = true := by
  have nonempty : t ≠ [] := by
    rintro rfl
    cases ends
  rw [endsPlainly, List.getLast?_append_of_ne_nil _ nonempty]
  exact ends

/-- A line that does not end in a colon opens no class. -/
theorem noHeader_of_endsPlainly (ends : s.endsPlainly = true) (depth level : Nat) :
    ¬ IsHeader level (indentation depth ++ s) := by
  rintro ⟨name, same⟩
  have whole : (indentation depth ++ s).endsPlainly = true := endsPlainly_append ends
  rw [same, header, ← List.append_assoc, endsPlainly,
    List.getLast?_append_of_ne_nil _ (by decide)] at whole
  exact absurd whole (by decide)

end Text

/-! ## Outlines -/

/-- A class that has a docstring: the depth of its header, its name, and what is said of it. -/
structure ClassNote where
  level : Nat
  name : Text
  doc : Text
  deriving DecidableEq

namespace Writer

/-- There is a line among the entries that is not empty. -/
def HasLine (entries : List Entry) : Prop :=
  ∃ level text, text ≠ [] ∧ Entry.line level text ∈ entries

theorem hasLine_cons (level : Nat) {text : Text} (nonempty : text ≠ []) (rest : List Entry) :
    HasLine (.line level text :: rest) :=
  ⟨level, text, nonempty, List.mem_cons_self⟩

namespace HasLine

variable {entries : List Entry}

theorem append (hasLine : HasLine entries) (more : List Entry) : HasLine (entries ++ more) := by
  obtain ⟨level, text, nonempty, member⟩ := hasLine
  exact ⟨level, text, nonempty, List.mem_append_left _ member⟩

theorem behind (hasLine : HasLine entries) (entry : Entry) : HasLine (entry :: entries) := by
  obtain ⟨level, text, nonempty, member⟩ := hasLine
  exact ⟨level, text, nonempty, List.mem_cons_of_mem _ member⟩

theorem flatten (hasLine : HasLine entries) {blocks : List (List Entry)}
    (among : entries ∈ blocks) : HasLine blocks.flatten := by
  obtain ⟨level, text, nonempty, member⟩ := hasLine
  exact ⟨level, text, nonempty, List.mem_flatten.2 ⟨entries, among, member⟩⟩

/-- Separators take no line away. -/
theorem intercalate (hasLine : HasLine entries) (others : List (List Entry))
    (separator : List Entry) : HasLine (separator.intercalate (entries :: others)) := by
  cases others with
  | nil => simpa [List.intercalate] using hasLine
  | cons next others => simpa [List.intercalate] using hasLine.append _

end HasLine

/-- The entries are classes at a depth, with other lines and gaps between them.  A class is a
header, its docstring and a body one level deeper that has a line; in a single file (`nested`)
that of a kind has no docstring. -/
inductive Outline (nested : Bool) (solid : Prop) : Nat → List ClassNote → List Entry → Prop where
  | nil (level : Nat) : Outline nested solid level [] []
  | gap {level : Nat} {notes : List ClassNote} {rest : List Entry} (count : Nat)
      (behind : Outline nested solid level notes rest) :
      Outline nested solid level notes (.gap count :: rest)
  | line {level : Nat} {text : Text} {notes : List ClassNote} {rest : List Entry}
      (plain : text.Plain solid) (behind : Outline nested solid level notes rest) :
      Outline nested solid level notes (.line level text :: rest)
  | noted {level : Nat} {inner notes : List ClassNote} {body rest : List Entry} (name doc : Text)
      (deeper : Outline nested solid (level + 1) inner body) (hasLine : HasLine body)
      (behind : Outline nested solid level notes rest) :
      Outline nested solid level (⟨level, name, doc⟩ :: (inner ++ notes))
        (.line level (header name) :: .docstring (level + 1) doc :: (body ++ rest))
  | kind {inner notes : List ClassNote} {body rest : List Entry} (kind : Kind)
      (single : nested = true) (deeper : Outline nested solid 2 inner body)
      (hasLine : HasLine body) (behind : Outline nested solid 1 notes rest) :
      Outline nested solid 1 (inner ++ notes) (.line 1 (header kind.text) :: (body ++ rest))

namespace Outline

variable {nested : Bool} {solid : Prop} {level : Nat} {notes more inner : List ClassNote}
  {entries others body : List Entry}

theorem append (first : Outline nested solid level notes entries)
    (second : Outline nested solid level more others) :
    Outline nested solid level (notes ++ more) (entries ++ others) := by
  induction first with
  | nil level => exact second
  | gap count _ ih => exact .gap count (ih second)
  | line plain _ ih => exact .line plain (ih second)
  | noted name doc deeper hasLine _ _ ih =>
      rw [List.cons_append, List.append_assoc, List.cons_append, List.cons_append,
        List.append_assoc]
      exact .noted name doc deeper hasLine (ih second)
  | kind kind single deeper hasLine _ _ ih =>
      rw [List.append_assoc, List.cons_append, List.append_assoc]
      exact .kind kind single deeper hasLine (ih second)

/-- A class with nothing behind it. -/
theorem ofClass (name doc : Text) (deeper : Outline nested solid (level + 1) inner body)
    (hasLine : HasLine body) :
    Outline nested solid level (⟨level, name, doc⟩ :: inner)
      (.line level (header name) :: .docstring (level + 1) doc :: body) := by
  simpa using Outline.noted name doc deeper hasLine (.nil level)

theorem ofKind (kind : Kind) (single : nested = true) (deeper : Outline nested solid 2 inner body)
    (hasLine : HasLine body) :
    Outline nested solid 1 inner (.line 1 (header kind.text) :: body) := by
  simpa using Outline.kind kind single deeper hasLine (.nil 1)

theorem lines {texts : List Text} (plain : ∀ text ∈ texts, text.Plain solid) :
    Outline nested solid level [] (texts.map (.line level)) := by
  induction texts with
  | nil => exact .nil level
  | cons text texts ih =>
      obtain ⟨first, others⟩ := List.forall_mem_cons.1 plain
      exact .line first (ih others)

theorem flatten {lists : List (List ClassNote)} {blocks : List (List Entry)}
    (each : List.Forall₂ (Outline nested solid level) lists blocks) :
    Outline nested solid level lists.flatten blocks.flatten := by
  induction each with
  | nil => exact .nil level
  | cons first _ ih => exact first.append ih

/-- Blocks with a gap between neighbours. -/
theorem intercalate {lists : List (List ClassNote)} {blocks : List (List Entry)} (count : Nat)
    (each : List.Forall₂ (Outline nested solid level) lists blocks) :
    Outline nested solid level lists.flatten ([.gap count].intercalate blocks) := by
  induction each with
  | nil => exact .nil level
  | cons first rest ih =>
      cases rest with
      | nil => simpa [List.intercalate] using first
      | cons _ _ =>
          have behind := first.append (ih.gap count)
          simpa [List.intercalate] using behind

end Outline

end Writer

/-! ## The outline of a declaration -/

namespace ClassDeclaration

variable {scope : Scope} {solid : Prop} {nested : Bool} {level : Nat}

/-- The note of a declaration whose header stands at a depth. -/
def note (level : Nat) : ClassDeclaration → ClassNote
  | .message declared => ⟨level, declared.name, declared.doc⟩
  | .interface declared => ⟨level, declared.name, declared.doc⟩

/-- The lines in which a class declares something are told from headers; and where names are
known to be `solid`, nothing stands before them. -/
def Legible (solid : Prop) : ClassDeclaration → Prop
  | .message declared => (∀ constant ∈ declared.constants, constant.name.IsIdentifier) ∧
      ∀ field ∈ declared.fields, field.name.IsIdentifier
  | .interface declared => (solid → declared.name.IsFlush) ∧
      ∀ binding ∈ declared.bindings,
        binding.1.beginsPlainly = true ∧ binding.2.endsPlainly = true

theorem legible_ofService {service : Service} (flush : solid → service.name.IsFlush)
    (request : service.request.name.endsPlainly = true)
    (response : service.response.name.endsPlainly = true) {declared : InterfaceClass}
    (member : .interface declared ∈ ofService scope service) :
    (ClassDeclaration.interface declared).Legible solid := by
  simp only [ofService, ofMessage, List.mem_cons, List.not_mem_nil, reduceCtorEq, false_or,
    or_false, ClassDeclaration.interface.injEq] at member
  subst member
  refine ⟨flush, ?_⟩
  simp only [List.forall_mem_cons]
  exact ⟨⟨by decide, request⟩, ⟨by decide, response⟩, List.forall_mem_nil _⟩

theorem legible_ofAction {action : Action} (flush : solid → action.name.IsFlush)
    (goal : action.goal.name.endsPlainly = true)
    (result : action.result.name.endsPlainly = true)
    (feedback : action.feedback.name.endsPlainly = true) {declared : InterfaceClass}
    (member : .interface declared ∈ ofAction scope action) :
    (ClassDeclaration.interface declared).Legible solid := by
  have derived {suffix : Text} (ends : suffix.endsPlainly = true) :
      (action.name ++ suffix).endsPlainly = true := Text.endsPlainly_append ends
  rcases List.mem_append.1 member with inServices | own
  · rcases List.mem_append.1 inServices with inSendGoal | inGetResult
    · rcases List.mem_append.1 inSendGoal with inSections | inSendGoal
      · simp [ofMessage] at inSections
      · exact legible_ofService (fun known => (flush known).append _)
          (Text.endsPlainly_append (by decide)) (Text.endsPlainly_append (by decide)) inSendGoal
    · exact legible_ofService (fun known => (flush known).append _)
        (Text.endsPlainly_append (by decide)) (Text.endsPlainly_append (by decide)) inGetResult
  · simp only [ofMessage, List.mem_cons, List.not_mem_nil, reduceCtorEq, false_or, or_false,
      ClassDeclaration.interface.injEq] at own
    subst own
    refine ⟨flush, ?_⟩
    simp only [List.forall_mem_cons]
    exact ⟨⟨by decide, goal⟩, ⟨by decide, result⟩, ⟨by decide, feedback⟩,
      ⟨by decide, derived (by decide)⟩, ⟨by decide, derived (by decide)⟩,
      ⟨by decide, derived (by decide)⟩, List.forall_mem_nil _⟩

end ClassDeclaration

namespace Interface.WellFormed

variable {interface : Interface} {package name : Text}

/-- The sections of a service or an action are named with a suffix, so no such name ends in a
colon. -/
theorem endsPlainly_sections (wellFormed : interface.WellFormed package name)
    (several : interface.kind ≠ .message) :
    ∀ m ∈ interface.sections, m.name.endsPlainly = true := by
  have suffixes : ∀ kind : Kind, kind ≠ .message →
      ∀ suffix ∈ kind.sectionSuffixes, suffix.endsPlainly = true := by
    intro kind
    cases kind <;> decide
  intro m member
  have inNames := List.mem_map_of_mem (f := fun m => (m.package, m.name)) member
  rw [wellFormed.names] at inNames
  obtain ⟨suffix, inSuffixes, same⟩ := List.mem_map.1 inNames
  rw [← (Prod.mk.inj same).2]
  exact Text.endsPlainly_append (suffixes _ several suffix inSuffixes)

/-- **All classes of a well-formed definition are legible**, whatever it is called. -/
theorem legible {solid : Prop} (wellFormed : interface.WellFormed package name)
    (flush : solid → name.IsFlush) (scope : Scope) :
    ∀ declared ∈ ClassDeclaration.ofInterface scope interface, declared.Legible solid := by
  rintro (declared | declared) member
  case message =>
    obtain ⟨m, inMessages, same⟩ := ClassDeclaration.message_mem_ofInterface_iff.1 member
    cases same
    have isAttribute := ClassDeclaration.isAttribute_of_named (wellFormed.named m inMessages)
    simp only [List.forall_mem_append, List.forall_mem_map] at isAttribute
    refine ⟨fun constant inConstants => ?_, fun field inFields => ?_⟩
    · obtain ⟨c, inMessage, rfl⟩ := List.mem_map.1 inConstants
      exact (isAttribute.1 c inMessage).isIdentifier
    · obtain ⟨m, inMessage, rfl⟩ := List.mem_map.1 inFields
      exact (isAttribute.2 m inMessage).isIdentifier
  case interface =>
    have ends := wellFormed.endsPlainly_sections
    rw [← wellFormed.name_eq] at flush
    cases interface with
    | message m => simp [ClassDeclaration.ofInterface, ClassDeclaration.ofMessage] at member
    | service s =>
        have sections := ends (show Kind.service ≠ .message by decide)
        simp only [Interface.sections, List.forall_mem_cons] at sections
        exact ClassDeclaration.legible_ofService flush sections.1 sections.2.1 member
    | action a =>
        have sections := ends (show Kind.action ≠ .message by decide)
        simp only [Interface.sections, List.forall_mem_cons] at sections
        exact ClassDeclaration.legible_ofAction flush sections.1 sections.2.1 sections.2.2.1 member

end Interface.WellFormed

/-! ## The outline of a class -/

theorem FieldDeclaration.plain_text {solid : Prop} {field : FieldDeclaration} {text : Text}
    (name : field.name.IsIdentifier) (written : field.text = .ok text) : text.Plain solid := by
  obtain ⟨value, -, same⟩ := Outcome.bind_eq_ok_iff.1 written
  cases same
  simp only [List.append_assoc]
  exact name.plain _

theorem ConstantDeclaration.plain_text {solid : Prop} {constant : ConstantDeclaration}
    {text : Text} (name : constant.name.IsIdentifier) (written : constant.text = .ok text) :
    text.Plain solid := by
  obtain ⟨value, -, same⟩ := Outcome.bind_eq_ok_iff.1 written
  cases same
  simp only [List.append_assoc]
  exact name.plain _

namespace ClassDeclaration

variable {declared : ClassDeclaration} {nested : Bool} {solid : Prop} {level : Nat}
  {entries : List Entry}

theorem plain_typeText (type : TypeName) : (typeText type).Plain solid :=
  Text.plain_append (by decide) _

/-- Lines that bind a class to others begin as a binding does, or with the name of the class;
in both cases they end as the name of a class that is bound. -/
theorem plain_bindingTexts {declared : InterfaceClass} {lead : Text}
    (legible : (ClassDeclaration.interface declared).Legible solid)
    (flush : solid → lead = [] ∨ lead.IsFlush) :
    ∀ text ∈ declared.bindingTexts lead, text.Plain solid := by
  intro text member
  obtain ⟨⟨name, target⟩, bound, rfl⟩ := List.mem_map.1 member
  obtain ⟨begins, ends⟩ := legible.2 _ bound
  refine ⟨Text.noHeader_of_endsPlainly (Text.endsPlainly_append ends), fun known => ?_⟩
  simp only [List.append_assoc]
  rcases flush known with rfl | flush
  · exact (Text.plain_append begins _).flush known
  · exact flush.append _

/-- **A class is the outline of its note.** -/
theorem Writes.outline (writes : declared.Writes nested level entries)
    (legible : declared.Legible solid) :
    Writer.Outline nested solid level [declared.note level] entries := by
  have hasLine {body : List Entry} (type : TypeName) :
      Writer.HasLine (.line (level + 1) (typeText type) :: body) :=
    Writer.hasLine_cons _ (oneLine_typeText type).ne_nil body
  cases declared with
  | message declared =>
      obtain ⟨constants, fields, ofConstants, ofFields, rfl⟩ := writes
      have constant : ∀ text ∈ constants, text.Plain solid := by
        intro text member
        obtain ⟨c, inConstants, own⟩ := (Outcome.mem_iff_of_mapM
          (Outcome.mapM_eq_ok_iff.2 ofConstants)).1 member
        exact c.plain_text (legible.1 c inConstants) own
      have field : ∀ text ∈ fields, text.Plain solid := by
        intro text member
        obtain ⟨f, inFields, own⟩ := (Outcome.mem_iff_of_mapM
          (Outcome.mapM_eq_ok_iff.2 ofFields)).1 member
        exact f.plain_text (legible.2 f inFields) own
      have gap : Writer.Outline nested solid (level + 1) []
          (if fields.isEmpty then [] else [.gap 1]) := by
        split
        · exact .nil _
        · exact .gap 1 (.nil _)
      have body : Writer.Outline nested solid (level + 1) [] _ :=
        (Writer.Outline.lines constant).append (gap.append (.lines field))
      exact .line (Text.plain_of_beginsPlainly (by decide))
        (.ofClass _ _ (.line (plain_typeText _) body) (hasLine _))
  | interface declared =>
      cases writes
      cases nested with
      | true =>
          have flush (known : solid) : (declared.name ++ Text.ofString ".").IsFlush :=
            (legible.1 known).append _
          exact .noted _ _ (.line (plain_typeText _) (.nil _)) (hasLine _)
            (.lines (plain_bindingTexts legible fun known => .inr (flush known)))
      | false =>
          have bindings : ∀ text ∈ declared.bindingTexts [], text.Plain solid :=
            plain_bindingTexts legible fun _ => .inl rfl
          exact .ofClass _ _ (.line (plain_typeText _) (.lines bindings)) (hasLine _)

theorem header_ne_nil (name : Text) : header name ≠ [] :=
  List.append_ne_nil_of_right_ne_nil _ (by decide)

/-- Every class has its header. -/
theorem Writes.hasLine (writes : declared.Writes nested level entries) :
    Writer.HasLine entries := by
  cases declared with
  | message declared =>
      obtain ⟨constants, fields, -, -, rfl⟩ := writes
      exact (Writer.hasLine_cons _ (header_ne_nil _) _).behind _
  | interface declared =>
      cases writes
      exact Writer.hasLine_cons _ (header_ne_nil _) _

/-- The outlines of classes, block by block. -/
theorem outlines {declarations : List ClassDeclaration} {blocks : List (List Entry)}
    (writes : List.Forall₂ (Writes nested level) declarations blocks)
    (legible : ∀ declared ∈ declarations, declared.Legible solid) :
    List.Forall₂ (Writer.Outline nested solid level)
      (declarations.map fun declared => [declared.note level]) blocks := by
  rw [List.forall₂_map_left_iff]
  induction writes with
  | nil => exact .nil
  | cons first _ ih =>
      obtain ⟨own, others⟩ := List.forall_mem_cons.1 legible
      exact .cons (first.outline own) (ih others)

theorem flatten_notes (declarations : List ClassDeclaration) :
    (declarations.map fun declared => [declared.note level]).flatten =
      declarations.map (·.note level) := by
  rw [← List.flatMap_def]
  exact List.map_eq_flatMap.symm

end ClassDeclaration

/-! ## The outline of a module -/

namespace ModuleFile

variable {nested : Bool} {solid : Prop}

theorem outline_preamble : Writer.Outline nested solid 0 [] preambleEntries := by
  have plain (text : Text) (begins : text.beginsPlainly = true) : text.Plain solid :=
    Text.plain_of_beginsPlainly begins
  exact .gap 1 <| .line (plain _ (by decide)) <| .gap 1 <| .line (plain _ (by decide)) <|
    .line (plain _ (by decide)) <| .line (plain _ (by decide)) <| .line (plain _ (by decide)) <|
    .nil 0

theorem outline_imports (imports : List Text) :
    Writer.Outline nested solid 0 [] (importEntries imports) := by
  unfold importEntries
  split
  · exact .nil 0
  · refine .gap 1 (.lines fun text member => ?_)
    obtain ⟨name, -, rfl⟩ := List.mem_map.1 member
    exact Text.plain_append (by decide) name

theorem outline_exports (exports : List (Text × List Text)) :
    Writer.Outline nested solid 0 [] (exportEntries exports) := by
  unfold exportEntries
  split
  · exact .nil 0
  · have all : (allText (exports.flatMap (·.2))).Plain solid := Text.plain_append (by decide) _
    have block {texts : List Text} (plain : ∀ text ∈ texts, text.Plain solid) :
        Writer.Outline nested solid 0 [] (texts.map (.line 0) ++
          [.gap 1, .line 0 (allText (exports.flatMap (·.2)))]) :=
      (Writer.Outline.lines plain).append (.gap 1 (.line all (.nil 0)))
    refine .gap 1 (block fun text member => ?_)
    obtain ⟨⟨stem, names⟩, -, rfl⟩ := List.mem_map.1 member
    simp only [exportText, List.append_assoc]
    exact Text.plain_append (by decide) _

/-- **A module is the outline of its classes.** -/
theorem outline {file : ModuleFile} {blocks : List (List Entry)}
    (writes : List.Forall₂ (ClassDeclaration.Writes nested 0) file.declarations blocks)
    (legible : ∀ declared ∈ file.declarations, declared.Legible solid) :
    Writer.Outline nested solid 0 (file.declarations.map (·.note 0)) (file.entries blocks) := by
  have opening : Writer.Outline nested solid 0 []
      (if file.declarations.isEmpty then []
        else preambleEntries ++ importEntries file.imports) := by
    split
    · exact .nil 0
    · exact outline_preamble.append (outline_imports file.imports)
  have spaced : List.Forall₂ (Writer.Outline nested solid 0)
      (file.declarations.map fun declared => [declared.note 0]) (blocks.map (.gap 2 :: ·)) := by
    rw [List.forall₂_map_right_iff]
    exact (ClassDeclaration.outlines writes legible).imp fun _ _ own => own.gap 2
  have whole := ((opening.append (outline_exports file.exports)).append (.flatten spaced))
  rw [ClassDeclaration.flatten_notes] at whole
  exact .line (Text.plain_of_beginsPlainly (by decide)) whole

end ModuleFile

/-! ## The outline of the single file -/

namespace Package

variable {package : Package} {layout : ModuleLayout} {kind : Kind} {solid : Prop}
  {entries : List Entry}

/-- The notes of a package in a single file: its own, and those of all that it declares. -/
def notes (package : Package) : List ClassNote :=
  ⟨0, package.name, "Package " ++ package.name ++ "."⟩ ::
    package.nestedDeclarations.map (·.note 2)

/-- The classes of definitions of a parsed package are legible. -/
theorem Parsed.legible (parsed : package.Parsed) (layout : ModuleLayout)
    (flush : solid → ∀ i ∈ package.interfaces kind, i.name.IsFlush) {interfaces : List Interface}
    (given : ∀ i ∈ interfaces, i ∈ package.interfaces kind) :
    ∀ declared ∈ package.declarations layout kind interfaces, declared.Legible solid := by
  intro declared member
  obtain ⟨i, inInterfaces, ofDefinition⟩ := List.mem_flatMap.1 member
  have inKind := given i inInterfaces
  exact (parsed.wellFormed inKind).2.legible (fun known => flush known i inKind) _ declared
    ofDefinition

theorem declarations_ne_nil (some_ : package.interfaces kind ≠ []) :
    package.declarations layout kind (package.interfaces kind) ≠ [] := by
  obtain ⟨i, others, given⟩ := List.exists_cons_of_ne_nil some_
  rw [declarations, given, List.flatMap_cons]
  apply List.append_ne_nil_of_left_ne_nil
  cases i <;> exact List.cons_ne_nil _ _

/-- **The class of a kind**: its classes one level deeper, a gap between neighbours. -/
theorem WritesKind.outline (writes : package.WritesKind kind entries) (parsed : package.Parsed)
    (flush : solid → ∀ i ∈ package.interfaces kind, i.name.IsFlush) :
    Writer.Outline true solid 1
      ((package.declarations .single kind (package.interfaces kind)).map (·.note 2)) entries := by
  rcases writes with ⟨empty, rfl⟩ | ⟨some_, blocks, each, rfl⟩
  · rw [empty]
    exact .nil 1
  · have classes := Writer.Outline.intercalate 1
      (ClassDeclaration.outlines each (parsed.legible .single flush fun _ => id))
    rw [ClassDeclaration.flatten_notes] at classes
    obtain ⟨declared, rest, nonempty⟩ := List.exists_cons_of_ne_nil (declarations_ne_nil some_)
    rw [nonempty] at each
    obtain _ | ⟨first, others⟩ := each
    exact .gap 1 (.ofKind kind rfl classes (first.hasLine.intercalate _ _))

/-- A kind of which there are definitions has its header. -/
theorem WritesKind.hasLine (writes : package.WritesKind kind entries)
    (some_ : package.interfaces kind ≠ []) : Writer.HasLine entries := by
  rcases writes with ⟨empty, -⟩ | ⟨-, blocks, -, rfl⟩
  · exact absurd empty some_
  · exact (Writer.hasLine_cons _ (ClassDeclaration.header_ne_nil _) _).behind _

/-- A package that is not empty has definitions of some kind. -/
theorem exists_interfaces_ne_nil (nonempty : package.isEmpty = false) :
    ∃ kind, package.interfaces kind ≠ [] := by
  by_contra none_
  simp only [ne_eq, not_exists, not_not] at none_
  have messages := none_ .message
  have services := none_ .service
  have actions := none_ .action
  simp only [interfaces, List.map_eq_nil_iff] at messages services actions
  rw [isEmpty, messages, services, actions] at nonempty
  cases nonempty

/-- **The class of a package**: a class for each kind that it has, or else a line that says
nothing. -/
theorem Writes.outline (writes : package.Writes entries) (parsed : package.Parsed)
    (flush : solid → ∀ kind, ∀ i ∈ package.interfaces kind, i.name.IsFlush) :
    Writer.Outline true solid 0 package.notes entries := by
  obtain ⟨kinds, each, rfl⟩ := writes
  have classes : Writer.Outline true solid 1 (package.nestedDeclarations.map (·.note 2))
      kinds.flatten := by
    rw [nestedDeclarations, List.map_flatMap, List.flatMap_def]
    apply Writer.Outline.flatten
    rw [List.forall₂_map_left_iff]
    exact each.imp fun kind _ own => own.outline parsed fun known => flush known kind
  have pass : Writer.Outline true solid 1 []
      (if package.isEmpty then [.line 1 "pass"] else []) := by
    split
    · exact .line (Text.plain_of_beginsPlainly (by decide)) (.nil 1)
    · exact .nil 1
  have hasLine : Writer.HasLine
      ((if package.isEmpty then [.line 1 "pass"] else []) ++ kinds.flatten) := by
    by_cases empty : package.isEmpty = true
    · rw [if_pos empty]
      exact Writer.hasLine_cons 1 (by decide) _
    · rw [if_neg empty]
      obtain ⟨kind, some_⟩ := exists_interfaces_ne_nil (Bool.not_eq_true _ ▸ empty)
      obtain ⟨own, among, ofKind⟩ := Outcome.exists_of_forall₂ each (Kind.mem_all kind)
      exact (ofKind.hasLine some_).flatten among
  exact .gap 2 (.ofClass _ _ (pass.append classes) hasLine)

end Package

/-! ## The outline of a source -/

namespace Sources

variable {packages : List Package} {layout : ModuleLayout} {path : Path}
  {steps : List WriterStep} {solid : Prop}

/-- The notes are those of the source with a path: those of the classes of a module with that
path, or those of all packages in the single file. -/
def NotedBy (packages : List Package) (layout : ModuleLayout) (path : Path)
    (notes : List ClassNote) : Prop :=
  match layout with
  | .single => path = Path.ofText singleFileName ∧ notes = packages.flatMap (·.notes)
  | layout => ∃ p ∈ packages, ∃ file ∈ p.files layout, file.path = path ∧
      notes = file.declarations.map (·.note 0)

theorem notedBy_iff (many : layout ≠ .single) {notes : List ClassNote} :
    NotedBy packages layout path notes ↔ ∃ p ∈ packages, ∃ file ∈ p.files layout,
      file.path = path ∧ notes = file.declarations.map (·.note 0) := by
  cases layout with
  | single => exact absurd rfl many
  | package | declaration => exact Iff.rfl

/-- The classes of a module are those of definitions of its package. -/
theorem legible_of_mem_files {package : Package} (parsed : package.Parsed)
    (flush : solid → ∀ kind, ∀ i ∈ package.interfaces kind, i.name.IsFlush) {file : ModuleFile}
    (member : file ∈ package.files layout) :
    ∀ declared ∈ file.declarations, declared.Legible solid := by
  rcases Package.mem_files_iff.1 member with rfl | ⟨kind, ofKind⟩
  · exact List.forall_mem_nil _
  · rcases Package.mem_kindFiles ofKind with ⟨named, rfl⟩ | ⟨path, interfaces, given, rfl⟩
    · exact List.forall_mem_nil _
    · exact parsed.legible layout (fun known => flush known kind) given

/-- **What a source is written as has an outline**, with the notes of its classes. -/
theorem WrittenBy.exists_outline (written : WrittenBy packages layout path steps)
    (lined : ∀ p ∈ packages, p.Lined)
    (flush : solid → ∀ p ∈ packages, ∀ kind, ∀ i ∈ p.interfaces kind, i.name.IsFlush) :
    ∃ notes entries, NotedBy packages layout path notes ∧ Opens 0 steps entries ∧
      Writer.Outline (layout = .single) solid 0 notes entries := by
  by_cases single : layout = .single
  · subst single
    obtain ⟨samePath, nestedSteps, made, rfl⟩ := written
    obtain ⟨nested, writes, opens⟩ := exists_opens_single lined made
    have packagesOutline : Writer.Outline true solid 0 (packages.flatMap (·.notes))
        nested.flatten := by
      rw [List.flatMap_def]
      apply Writer.Outline.flatten
      rw [List.forall₂_map_left_iff]
      refine List.Forall₂.imp (fun p _ own => ?_) ((List.forall₂_and_left _ _).2
        ⟨fun _ member => member, writes⟩)
      exact own.2.outline (lined p own.1).parsed fun known => flush known p own.1
    exact ⟨_, _, ⟨samePath, rfl⟩, opens, .line (Text.plain_of_beginsPlainly (by decide))
      (ModuleFile.outline_preamble.append packagesOutline)⟩
  · obtain ⟨p, inPackages, file, inFiles, samePath, made⟩ := (writtenBy_iff single).1 written
    have ofPackage := lined p inPackages
    obtain ⟨blocks, writes, opens⟩ := (ofPackage.file inFiles).opens made
    refine ⟨_, _, (notedBy_iff single).2 ⟨p, inPackages, file, inFiles, samePath, rfl⟩, opens, ?_⟩
    exact ModuleFile.outline writes
      (legible_of_mem_files ofPackage.parsed (fun known => flush known p inPackages) inFiles)

/-- Two texts of one source are rendered from one outline. -/
theorem SameSteps.exists_outline {first second : Bool} {a b : Path × Text}
    (same : SameSteps packages layout first second a b) (lined : ∀ p ∈ packages, p.Lined)
    (flush : solid → ∀ p ∈ packages, ∀ kind, ∀ i ∈ p.interfaces kind, i.name.IsFlush) :
    ∃ notes entries, NotedBy packages layout a.1 notes ∧
      Writer.Outline (layout = .single) solid 0 notes entries ∧
      Writer.Renders first entries a.2 ∧ Writer.Renders second entries b.2 := by
  obtain ⟨-, steps, written, ofFirst, ofSecond⟩ := same
  obtain ⟨notes, entries, noted, opens, outline⟩ := written.exists_outline lined flush
  rw [ofFirst, ofSecond]
  exact ⟨notes, entries, noted, outline, opens.renders first, opens.renders second⟩

end Sources

end RosInterface
