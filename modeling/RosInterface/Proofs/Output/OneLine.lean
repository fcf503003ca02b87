/-
# RosInterface.Proofs.Output.OneLine -- values do not break out of their line

Whatever a string holds, the literal that is generated for it holds printable code points only,
and a reader takes it back for that string.  So a field or a constant is one line, whatever its
default or value is, and it stands where its class stands: the lines of a generated text hold
one behind the other the lines of the data classes that it declares, each class in one piece
and each of its constants and fields as its text behind the indentation (`Presents`).

`Package.members_on_one_line` says so of literals, of the modules of packages and of the single
file.
-/
import RosInterface.Proofs.Output.Entries
import RosInterface.Proofs.Output.Enumeration

set_option autoImplicit false

namespace RosInterface

open Writer (Entry)
open ClassDeclaration (messageClasses)

/-! ## Pieces of a list -/

/-- The blocks stand in the whole one behind the other, each in one piece. -/
def InTurn {α : Type} (blocks : List (List α)) (whole : List α) : Prop :=
  ∃ pieces : List (List α), pieces.flatten = whole ∧ blocks.Sublist pieces

namespace InTurn

variable {α β : Type} {blocks others : List (List α)} {whole more : List α}

theorem of_nil (whole : List α) : InTurn [] whole := ⟨[whole], by simp, List.nil_sublist _⟩

theorem singleton (block : List α) : InTurn [block] block := ⟨[block], by simp, .refl _⟩

theorem append (first : InTurn blocks whole) (second : InTurn others more) :
    InTurn (blocks ++ others) (whole ++ more) := by
  obtain ⟨pieces, rfl, among⟩ := first
  obtain ⟨rest, rfl, amongRest⟩ := second
  exact ⟨pieces ++ rest, List.flatten_append, among.append amongRest⟩

/-- What each item becomes, the blocks become in their places. -/
theorem flatMap (inTurn : InTurn blocks whole) (f : α → List β) :
    InTurn (blocks.map (·.flatMap f)) (whole.flatMap f) := by
  obtain ⟨pieces, rfl, among⟩ := inTurn
  refine ⟨pieces.map (·.flatMap f), ?_, among.map _⟩
  rw [List.flatMap_def, List.map_flatten, List.flatten_flatten, List.map_map]
  rfl

end InTurn

/-! ## The data classes among entries -/

/-- The entries hold those of the data classes among some declarations, in their order. -/
def EntriesShow (level : Nat) (declarations : List ClassDeclaration) (entries : List Entry) :
    Prop :=
  ∃ blocks, List.Forall₂ (MessageClass.Writes level) (messageClasses declarations) blocks ∧
    InTurn blocks entries

namespace EntriesShow

variable {level : Nat} {declarations others : List ClassDeclaration}
  {entries more : List Entry}

theorem of_nil (level : Nat) (entries : List Entry) : EntriesShow level [] entries :=
  ⟨[], .nil, .of_nil entries⟩

theorem append (first : EntriesShow level declarations entries)
    (second : EntriesShow level others more) :
    EntriesShow level (declarations ++ others) (entries ++ more) := by
  obtain ⟨blocks, writes, inTurn⟩ := first
  obtain ⟨rest, writesRest, inRest⟩ := second
  refine ⟨blocks ++ rest, ?_, inTurn.append inRest⟩
  rw [messageClasses, List.filterMap_append]
  exact List.rel_append writes writesRest

theorem behind (shows_ : EntriesShow level declarations entries) (lead : List Entry) :
    EntriesShow level declarations (lead ++ entries) := (of_nil level lead).append shows_

theorem ofDeclaration {nested : Bool} {declared : ClassDeclaration}
    (writes : declared.Writes nested level entries) : EntriesShow level [declared] entries := by
  cases declared with
  | message declared => exact ⟨[entries], .cons writes .nil, .singleton entries⟩
  | interface declared => exact ⟨[], .nil, .of_nil entries⟩

theorem flatMap {α : Type} {items : List α} {lists : List (List Entry)}
    {declarations : α → List ClassDeclaration}
    (each : List.Forall₂ (fun item entries => EntriesShow level (declarations item) entries)
      items lists) : EntriesShow level (items.flatMap declarations) lists.flatten := by
  induction each with
  | nil => exact of_nil level []
  | cons first _ ih =>
      rw [List.flatMap_cons, List.flatten_cons]
      exact first.append ih

/-- Classes with the same entries before each. -/
theorem spaced {nested : Bool} {blocks : List (List Entry)}
    (writes : List.Forall₂ (ClassDeclaration.Writes nested level) declarations blocks)
    (lead : Entry) : EntriesShow level declarations (blocks.map (lead :: ·)).flatten := by
  have each : List.Forall₂ (fun declared entries => EntriesShow level [declared] entries)
      declarations (blocks.map (lead :: ·)) := by
    rw [List.forall₂_map_right_iff]
    exact writes.imp fun _ _ own => (ofDeclaration own).behind [lead]
  simpa using flatMap each

theorem intercalate {nested : Bool} {blocks : List (List Entry)}
    (writes : List.Forall₂ (ClassDeclaration.Writes nested level) declarations blocks)
    (separator : List Entry) :
    EntriesShow level declarations (separator.intercalate blocks) := by
  induction writes with
  | nil => exact of_nil level _
  | cons first rest ih =>
      cases rest with
      | nil => simpa [List.intercalate] using ofDeclaration first
      | cons _ _ =>
          have whole := (ofDeclaration first).append (ih.behind separator)
          simpa [List.intercalate] using whole

end EntriesShow

/-! ## Generated texts -/

/-- The text holds the lines of the data classes among some declarations, in their order: each
constant and each field is one line, its text behind the indentation. -/
def Presents (comments : Bool) (level : Nat) (declarations : List ClassDeclaration)
    (source : Text) : Prop :=
  ∃ blocks, List.Forall₂ (MessageClass.Writes level) (messageClasses declarations) blocks ∧
    InTurn (blocks.map (·.flatMap (Entry.lines comments))) source.lines

theorem EntriesShow.presents {level : Nat} {declarations : List ClassDeclaration}
    {entries : List Entry} {comments : Bool} {source : Text}
    (shows_ : EntriesShow level declarations entries)
    (lines : source.lines = entries.flatMap (Entry.lines comments)) :
    Presents comments level declarations source := by
  obtain ⟨blocks, writes, inTurn⟩ := shows_
  refine ⟨blocks, writes, ?_⟩
  rw [lines]
  exact inTurn.flatMap _

namespace ModuleFile

theorem Lined.presents {file : ModuleFile} {layout : ModuleLayout} {comments : Bool}
    {source : Text} (lined : file.Lined) (generated : file.text layout comments = .ok source) :
    Presents comments 0 file.declarations source := by
  obtain ⟨blocks, writes, lines⟩ := lined.lines_text generated
  exact ((EntriesShow.spaced writes (.gap 2)).behind (.line 0 bannerText :: _)).presents lines

end ModuleFile

namespace Package

variable {package : Package} {packages : List Package}

/-- All that a package declares in a single file. -/
def nestedDeclarations (package : Package) : List ClassDeclaration :=
  Kind.all.flatMap fun kind => package.declarations .single kind (package.interfaces kind)

theorem WritesKind.entriesShow {kind : Kind} {entries : List Entry}
    (writes : package.WritesKind kind entries) :
    EntriesShow 2 (package.declarations .single kind (package.interfaces kind)) entries := by
  rcases writes with ⟨empty, rfl⟩ | ⟨-, blocks, each, rfl⟩
  · rw [empty]
    exact .of_nil 2 []
  · exact (EntriesShow.intercalate each [.gap 1]).behind [.gap 1, .line 1 _]

theorem Writes.entriesShow {entries : List Entry} (writes : package.Writes entries) :
    EntriesShow 2 package.nestedDeclarations entries := by
  obtain ⟨kinds, each, rfl⟩ := writes
  have shows_ := EntriesShow.flatMap (each.imp fun _ _ own => own.entriesShow)
  exact (shows_.behind _).behind [.gap 2, .line 0 _, .docstring 1 _]

/-- A text is generated for a single file, and it presents all packages. -/
theorem exists_source_of_single (lined : ∀ p ∈ packages, p.Lined) (comments : Bool) :
    ∃ source, Sources.ofPackages packages .single comments =
        .ok [(Path.ofText Sources.singleFileName, source)] ∧
      Presents comments 2 (packages.flatMap (·.nestedDeclarations)) source := by
  obtain ⟨nested, written⟩ := Outcome.exists_mapM_iff.2 fun p member =>
    (lined p member).parsed.exists_nestedSteps
  have generated : Sources.ofPackages packages .single comments = .ok [(_, _)] :=
    Outcome.bind_eq_ok_iff.2 ⟨nested, written, rfl⟩
  -- the text is known by its lines only from here on
  obtain ⟨source, same, entries, writes, lines⟩ := Sources.lines_ofSingleFile lined generated
  have shows_ := EntriesShow.flatMap (writes.imp fun _ _ own => own.entriesShow)
  refine ⟨source, generated.trans (congrArg Except.ok same), ?_⟩
  exact ((shows_.behind ModuleFile.preambleEntries).behind [.line 0 _]).presents lines

theorem Lined.exists_source (lined : package.Lined) {layout : ModuleLayout} (comments : Bool)
    {files : List ModuleFile} (laidOut : package.modules layout = .ok files) :
    ∀ file ∈ files, ∃ source, file.text layout comments = .ok source ∧
      Presents comments 0 file.declarations source := by
  intro file member
  obtain ⟨-, rfl⟩ := modules_eq_ok_iff.1 laidOut
  obtain ⟨source, generated⟩ := lined.parsed.exists_text comments member
  exact ⟨source, generated, (lined.file member).presents generated⟩

/-- **No value breaks out of its line.**  A string literal holds printable code points only and
is read back as the string.  In the text of every module of parsed packages, and in every text
that is generated for them, each constant and each field of each data class is one line, its
text behind the indentation, if no package and no definition has a name that is cut into
lines. -/
theorem members_on_one_line :
    (∀ (type : StringType) (value : Text), ∃ text,
      (Literal.mk (.string type) value).text = .ok text ∧
        (∀ c ∈ text, c.isPrintable = true ∧ c.isSurrogate = false ∧ c.isLineBoundary = false) ∧
        ∀ unbounded : StringType, unbounded.bound = none →
          Value.string unbounded true text = .ok value) ∧
      ∀ packages : List Package, (∀ p ∈ packages, p.Lined) → ∀ comments,
        (∀ layout, layout ≠ .single →
          (∀ p ∈ packages, ∀ files, p.modules layout = .ok files → ∀ file ∈ files, ∃ source,
            file.text layout comments = .ok source ∧
              Presents comments 0 file.declarations source) ∧
          ∀ sources, Sources.ofPackages packages layout comments = .ok sources →
            ∀ source ∈ sources, ∃ p ∈ packages, ∃ files, p.modules layout = .ok files ∧
              ∃ file ∈ files, file.path = source.1 ∧
                file.text layout comments = .ok source.2) ∧
        ∃ source, Sources.ofPackages packages .single comments =
            .ok [(Path.ofText Sources.singleFileName, source)] ∧
          Presents comments 2 (packages.flatMap (·.nestedDeclarations)) source := by
  constructor
  · intro type value
    refine ⟨value.quoted, rfl, fun c member => ?_, fun unbounded noBound => ?_⟩
    · have printable := Text.isPrintable_of_mem_quoted member
      exact ⟨printable, CodePoint.not_isSurrogate_of_isPrintable printable,
        CodePoint.not_isLineBoundary_of_isPrintable printable⟩
    · refine Value.string_quoted (fun bound bounded => ?_) true
      rw [noBound] at bounded
      cases bounded
  · intro packages lined comments
    refine ⟨fun layout many => ⟨fun p member files laidOut => ?_, fun sources generated _ => ?_⟩,
      exists_source_of_single lined comments⟩
    · exact (lined p member).exists_source comments laidOut
    · exact Sources.exists_text_of_ofPackages many generated

/-- A message whose values hold line ends and quotes. -/
def noteMessage : Message :=
  let string : FieldType := .single (.primitive (.string ⟨false, none⟩))
  ⟨"p", "Note", [⟨"greeting", string, some ["it's\nfine"]⟩],
    [⟨"SEPARATOR", string, ["\u2028\""]⟩]⟩

def noteText : Text := "string greeting \"it's\\nfine\"\nstring SEPARATOR='\\u2028\"'\n"

def notePackage : Package := .ofInterfaces "p" [.message noteMessage] []

theorem eq_of_mem_notePackage {kind : Kind} {i : Interface}
    (member : i ∈ notePackage.interfaces kind) : i = .message noteMessage :=
  List.mem_singleton.1 (List.mem_filter.1 (perm_interfaces_ofInterfaces.mem_iff.1 member)).1

theorem notePackage_lined : notePackage.Lined := by
  let greeting : Text := "string greeting \"it's\\nfine\""
  let separator : Text := "string SEPARATOR='\\u2028\"'"
  let items : List Item := noteMessage.members.map .member ++ noteMessage.constants.map .constant
  have lines : Section.all noteText = [[(1, greeting), (2, separator)]] := by decide +kernel
  have active : Section.active [(1, greeting), (2, separator)] = [greeting, separator] := by
    decide +kernel
  have member : Item.ofLine greeting = .ok items[0] := by decide +kernel
  have constant : Item.ofLine separator = .ok items[1] := by decide +kernel
  have written : List.Forall₂ (fun line item => Item.ofLine line = .ok item)
      (Section.active [(1, greeting), (2, separator)]) items := by
    rw [active]
    exact .cons member (.cons constant .nil)
  have read : Interface.ofText .message "p" "Note" noteText = .ok (.message noteMessage) :=
    Interface.ofText_message lines
      (Message.ofSection_eq_ok_iff.2 ⟨items, written, rfl, by decide⟩)
  refine ⟨⟨[.message noteMessage], rfl, ?_⟩, show Text.IsLine "p" by decide, ?_⟩
  · exact List.forall_mem_singleton.2 ⟨.message, "Note", noteText, read⟩
  · intro kind i inPackage
    rw [eq_of_mem_notePackage inPackage]
    exact (by decide : Text.IsLine "Note")

theorem members_on_one_line_note :
    (∀ p ∈ [notePackage], p.Lined) ∧ ∃ source,
      Sources.ofPackages [notePackage] .single true =
          .ok [(Path.ofText Sources.singleFileName, source)] ∧
        Presents true 2 ([notePackage].flatMap (·.nestedDeclarations)) source := by
  have lined : ∀ p ∈ [notePackage], p.Lined := List.forall_mem_singleton.2 notePackage_lined
  exact ⟨lined, (members_on_one_line.2 [notePackage] lined true).2⟩

end Package

end RosInterface
