/-
# RosInterface.Proofs.Output.Entries -- the lines of a module, class by class

What the generator passes to a writer always comes to the same entries: for a class its
decorator, its header, its docstring, its type and then what it declares
(`MessageClass.entries`, `InterfaceClass.entries`); for a module its banner, its imports and
exports, and its classes behind two empty lines each (`ModuleFile.entries`); and in a single
file a class for each package with a class for each kind (`Package.Writes`).

That is so where no name is cut into lines.  Then `ModuleFile.Lined.lines_text` and
`Sources.lines_ofSingleFile` give the lines of the generated texts, with docstrings or without
them.
-/
import RosInterface.Proofs.Output.Imports
import RosInterface.Proofs.Output.LineText
import RosInterface.Proofs.Output.Source

set_option autoImplicit false

namespace RosInterface

open Writer (Entry Opens Continues opens_write opens_writes continues_writes continues_nil
  continues_flatten opens_extend opens_intercalate opens_block)
open WriterStep (write)

/-! ## Classes -/

namespace ClassDeclaration

/-- The line that tells the full name of a class. -/
def typeText (type : TypeName) : Text := "_type: ClassVar[str] = " ++ type.text.quoted

theorem oneLine_typeText (type : TypeName) : (typeText type).OneLine :=
  (show Text.OneLine "_type: ClassVar[str] = " by decide).append (Text.isLine_quoted _)

theorem oneLine_header {name : Text} (isLine : name.IsLine) : (header name).OneLine :=
  ((show Text.OneLine "class " by decide).append isLine).append (by decide)

end ClassDeclaration

namespace MessageClass

/-- The docstring of a data class. -/
def doc (declared : MessageClass) : Text := "Message " ++ declared.typeName.text ++ "."

/-- What a data class is written as, its header at a depth. -/
def entries (declared : MessageClass) (level : Nat) (constants fields : List Text) :
    List Entry :=
  .line level "@dataclass" :: .line level (ClassDeclaration.header declared.name) ::
    .docstring (level + 1) declared.doc ::
    .line (level + 1) (ClassDeclaration.typeText declared.typeName) ::
    (constants.map (.line (level + 1)) ++
      ((if fields.isEmpty then [] else [.gap 1]) ++ fields.map (.line (level + 1))))

/-- The entries are those of the class with the texts of its constants and fields. -/
def Writes (level : Nat) (declared : MessageClass) (entries : List Entry) : Prop :=
  ∃ constants fields,
    List.Forall₂ (fun constant text => constant.text = .ok text) declared.constants constants ∧
      List.Forall₂ (fun field text => field.text = .ok text) declared.fields fields ∧
      entries = declared.entries level constants fields

end MessageClass

namespace InterfaceClass

/-- The docstring of a class that binds others. -/
def doc (declared : InterfaceClass) : Text := "Interface " ++ declared.typeName.text ++ "."

/-- The lines that bind a class to others. -/
def bindingTexts (declared : InterfaceClass) (lead : Text) : List Text :=
  declared.bindings.map fun (name, target) => lead ++ name ++ " = " ++ target

/-- What a class that binds others is written as, its header at a depth. -/
def entries (declared : InterfaceClass) (nested : Bool) (level : Nat) : List Entry :=
  .line level (ClassDeclaration.header declared.name) :: .docstring (level + 1) declared.doc ::
    .line (level + 1) (ClassDeclaration.typeText declared.typeName) ::
    (if nested then (declared.bindingTexts (declared.name ++ ".")).map (.line level)
      else (declared.bindingTexts []).map (.line (level + 1)))

end InterfaceClass

namespace ClassDeclaration

/-- The entries are those of the declaration. -/
def Writes (nested : Bool) (level : Nat) : ClassDeclaration → List Entry → Prop
  | .message declared, entries => declared.Writes level entries
  | .interface declared, entries => entries = declared.entries nested level

variable {declared : ClassDeclaration} {nested : Bool} {steps : List WriterStep}

theorem continues_bindings (level : Nat) {declared : InterfaceClass}
    (bindings : ∀ binding ∈ declared.bindings, binding.1.IsLine ∧ binding.2.IsLine) {lead : Text}
    (isLine : lead.IsLine) :
    Continues level (bindingSteps declared lead)
      ((declared.bindingTexts lead).map (.line level)) := by
  have written : bindingSteps declared lead = (declared.bindingTexts lead).map write := by
    rw [bindingSteps, InterfaceClass.bindingTexts, List.map_map]
    rfl
  rw [written]
  refine continues_writes level fun text member => ?_
  obtain ⟨binding, bound, rfl⟩ := List.mem_map.1 member
  obtain ⟨name, target⟩ := bindings binding bound
  exact ((show Text.OneLine " = " by decide).behind (isLine.append name)).append target

theorem Lined.isLine_name (lined : declared.Lined) : declared.name.IsLine := by
  cases declared with
  | message _ | interface _ => exact lined.1

/-- A module that is imported is named on one line. -/
theorem Lined.isLine_imported (lined : declared.Lined) {ref : ClassRef}
    (member : ref ∈ declared.references) {name : Text} (imported : ref.imported? = some name) :
    name.IsLine := by
  have spelled : ref.text.IsLine := by
    cases declared with
    | interface declared => cases member
    | message declared =>
        obtain ⟨-, -, fields, constants⟩ := lined
        obtain ⟨hint, inHints, found⟩ := List.mem_filterMap.1 member
        have item : hint.item.text.IsLine := by
          rcases List.mem_append.1 inHints with ofField | ofConstant
          · obtain ⟨field, inFields, rfl⟩ := List.mem_map.1 ofField
            exact (fields field inFields).item
          · obtain ⟨constant, inConstants, rfl⟩ := List.mem_map.1 ofConstant
            exact (constants constant inConstants).item
        cases same : hint.item with
        | message other =>
            rw [same] at found item
            cases found
            exact item
        | bool | int | float | str =>
            rw [same] at found
            cases found
  cases ref with
  | bare _ => cases imported
  | qualified type =>
      cases imported
      intro c inName
      exact spelled c (List.mem_append_left _ (List.mem_append_left _ inName))

/-- The constants and the fields of a data class, with a gap between them. -/
theorem continues_members (level : Nat) {constants fields : List Text}
    (constant : ∀ text ∈ constants, text.OneLine) (field : ∀ text ∈ fields, text.OneLine) :
    Continues level
      (constants.map write ++ (if fields.isEmpty then [] else [.blank 1]) ++ fields.map write)
      (constants.map (.line level) ++
        ((if fields.isEmpty then [] else [.gap 1]) ++ fields.map (.line level))) := by
  rw [List.append_assoc]
  refine (continues_writes level constant).append ?_
  cases fields with
  | nil => exact continues_nil level
  | cons first others => exact (opens_writes level field).behind_gap 1

/-- **A class is written as its entries.** -/
theorem Lined.opens (lined : declared.Lined) (level : Nat)
    (made : declared.steps nested = .ok steps) :
    ∃ entries, declared.Writes nested level entries ∧ Opens level steps entries := by
  cases declared with
  | message declared =>
      obtain ⟨name, typeName, fields, constants⟩ := lined
      obtain ⟨constantTexts, writtenConstants, more⟩ := Outcome.bind_eq_ok_iff.1 made
      obtain ⟨fieldTexts, writtenFields, same⟩ := Outcome.bind_eq_ok_iff.1 more
      cases same
      have constant : ∀ text ∈ constantTexts, text.OneLine := by
        intro text member
        obtain ⟨c, inConstants, own⟩ := (Outcome.mem_iff_of_mapM writtenConstants).1 member
        exact (constants c inConstants).oneLine own
      have field : ∀ text ∈ fieldTexts, text.OneLine := by
        intro text member
        obtain ⟨f, inFields, own⟩ := (Outcome.mem_iff_of_mapM writtenFields).1 member
        exact (fields f inFields).oneLine own
      have body := (opens_write (level + 1) (oneLine_typeText declared.typeName)).append
        (continues_members (level + 1) constant field)
      have doc : declared.doc.IsLine := typeName.isLine_text.between (by decide) (by decide)
      have class_ := opens_block level (oneLine_header name) doc body.continues
      exact ⟨_, ⟨constantTexts, fieldTexts, Outcome.mapM_eq_ok_iff.1 writtenConstants,
          Outcome.mapM_eq_ok_iff.1 writtenFields, rfl⟩,
        (opens_write level (show Text.OneLine "@dataclass" by decide)).append class_.continues⟩
  | interface declared =>
      obtain ⟨name, typeName, bindings⟩ := lined
      have type := opens_write (level + 1) (oneLine_typeText declared.typeName)
      have doc : declared.doc.IsLine := typeName.isLine_text.between (by decide) (by decide)
      cases nested with
      | true =>
          cases made
          have class_ := opens_block level (oneLine_header name) doc type.continues
          have lead : (declared.name ++ Text.ofString ".").IsLine := name.append (by decide)
          exact ⟨_, rfl, class_.append (continues_bindings level bindings lead)⟩
      | false =>
          cases made
          have body := type.append
            (continues_bindings (level + 1) bindings (show Text.IsLine [] by decide))
          exact ⟨_, rfl, opens_block level (oneLine_header name) doc body.continues⟩

/-- The classes of some declarations, each written as its entries. -/
theorem exists_blocks {declarations : List ClassDeclaration} {classes : List (List WriterStep)}
    (lined : ∀ declared ∈ declarations, declared.Lined) (level : Nat)
    (made : declarations.mapM (ClassDeclaration.steps nested) = .ok classes) :
    ∃ blocks, List.Forall₂ (Writes nested level) declarations blocks ∧
      List.Forall₂ (Opens level) classes blocks :=
  Outcome.exists_forall₂ (Outcome.mapM_eq_ok_iff.1 made) fun declared member _ own =>
    (lined declared member).opens level own

end ClassDeclaration

/-! ## Modules -/

namespace ModuleFile

/-- The first line of every module. -/
def bannerText : Text :=
  Writer.docQuotes ++ "Generated by ros-idl-gen. Do not edit." ++ Writer.docQuotes

def preambleEntries : List Entry :=
  [.gap 1, .line 0 "from __future__ import annotations", .gap 1,
   .line 0 "import builtins as _builtins", .line 0 "from dataclasses import dataclass",
   .line 0 "from dataclasses import field as _field", .line 0 "from typing import ClassVar"]

def importEntries (imports : List Text) : List Entry :=
  if imports.isEmpty then []
  else .gap 1 :: (imports.map fun name : Text => "import " ++ name).map (.line 0)

/-- The line that takes names from a neighbouring module. -/
def exportText (stem : Text) (names : List Text) : Text :=
  "from ." ++ stem ++ " import " ++ Text.joined ", " names

/-- The line that lists the names that a module exports. -/
def allText (names : List Text) : Text := "__all__ = " ++ listText (Text.sort names)

def exportEntries (exports : List (Text × List Text)) : List Entry :=
  if exports.isEmpty then []
  else
    .gap 1 :: ((exports.map fun (stem, names) => exportText stem names).map (.line 0) ++
      [.gap 1, .line 0 (allText (exports.flatMap (·.2)))])

/-- What a module is written as, with the entries of its classes. -/
def entries (file : ModuleFile) (blocks : List (List Entry)) : List Entry :=
  .line 0 bannerText ::
    ((if file.declarations.isEmpty then [] else preambleEntries ++ importEntries file.imports) ++
      exportEntries file.exports ++ (blocks.map (.gap 2 :: ·)).flatten)

/-- No name that a module is written with is cut into lines. -/
structure Lined (file : ModuleFile) : Prop where
  declarations : ∀ declared ∈ file.declarations, declared.Lined
  imports : ∀ name ∈ file.imports, name.IsLine
  exports : ∀ exported ∈ file.exports, exported.1.IsLine ∧ ∀ name ∈ exported.2, name.IsLine

theorem continues_preamble : Continues 0 preamble preambleEntries := by
  have line (text : Text) (oneLine : text.OneLine) := opens_write 0 oneLine
  have later := ((line "import builtins as _builtins" (by decide)).append <|
    ((line "from dataclasses import dataclass" (by decide)).append <|
      ((line "from dataclasses import field as _field" (by decide)).append
        (line "from typing import ClassVar" (by decide)).continues).continues).continues)
  exact ((line "from __future__ import annotations" (by decide)).append
    (later.behind_gap 1)).behind_gap 1

theorem continues_imports {imports : List Text} (isLine : ∀ name ∈ imports, name.IsLine) :
    Continues 0 (importSteps imports) (importEntries imports) := by
  cases imports with
  | nil => exact continues_nil 0
  | cons first others =>
      have oneLine : ∀ text ∈ (first :: others).map fun name : Text => "import " ++ name,
          text.OneLine := by
        intro text member
        obtain ⟨name, inImports, rfl⟩ := List.mem_map.1 member
        exact (show Text.OneLine "import " by decide).append (isLine name inImports)
      exact (opens_extend 0 oneLine).behind_gap 1

theorem isLine_listText (texts : List Text) : (listText texts).IsLine := by
  have each : ∀ text ∈ texts.map (·.quoted), text.IsLine := by
    intro text member
    obtain ⟨name, -, rfl⟩ := List.mem_map.1 member
    exact Text.isLine_quoted name
  exact (Text.isLine_joined (by decide) each).between (by decide) (by decide)

theorem continues_exports {exports : List (Text × List Text)}
    (isLine : ∀ exported ∈ exports, exported.1.IsLine ∧ ∀ name ∈ exported.2, name.IsLine) :
    Continues 0 (exportSteps exports) (exportEntries exports) := by
  cases exports with
  | nil => exact continues_nil 0
  | cons first others =>
      have oneLine : ∀ text ∈ (first :: others).map fun (stem, names) => exportText stem names,
          text.OneLine := by
        intro text member
        obtain ⟨exported, inExports, rfl⟩ := List.mem_map.1 member
        obtain ⟨stem, names⟩ := isLine exported inExports
        exact (((show Text.OneLine "from ." by decide).append stem).append (by decide)).append
          (Text.isLine_joined (by decide) names)
      have all : (allText ((first :: others).flatMap (·.2))).OneLine :=
        (show Text.OneLine "__all__ = " by decide).append (isLine_listText _)
      have steps : exportSteps (first :: others) = .blank 1 ::
          (((first :: others).map fun (stem, names) => exportText stem names).map write ++
            [.blank 1, write (allText ((first :: others).flatMap (·.2)))]) := by
        simp only [List.map_map]
        rfl
      rw [steps]
      exact ((opens_writes 0 oneLine).append ((opens_write 0 all).behind_gap 1)).behind_gap 1

variable {file : ModuleFile} {layout : ModuleLayout} {comments : Bool} {source : Text}

/-- **A module is written as its entries.** -/
theorem Lined.opens (lined : file.Lined) {steps : List WriterStep}
    (made : file.steps layout = .ok steps) :
    ∃ blocks, List.Forall₂ (ClassDeclaration.Writes (layout = .single) 0) file.declarations blocks ∧
      Opens 0 steps (file.entries blocks) := by
  obtain ⟨classes, written, same⟩ := Outcome.bind_eq_ok_iff.1 made
  cases same
  obtain ⟨blocks, writes, opens⟩ := ClassDeclaration.exists_blocks lined.declarations 0 written
  have opening : Continues 0
      (if file.declarations.isEmpty then [] else preamble ++ importSteps file.imports)
      (if file.declarations.isEmpty then []
        else preambleEntries ++ importEntries file.imports) := by
    split
    · exact continues_nil 0
    · exact continues_preamble.append (continues_imports lined.imports)
  have spaced : List.Forall₂ (Continues 0) (classes.map (WriterStep.blank 2 :: ·))
      (blocks.map (Entry.gap 2 :: ·)) := by
    rw [List.forall₂_map_left_iff, List.forall₂_map_right_iff]
    exact opens.imp fun _ _ own => own.behind_gap 2
  rw [List.flatMap_def]
  exact ⟨blocks, writes, (opens_write 0 (show Text.OneLine bannerText by decide)).append
    ((opening.append (continues_exports lined.exports)).append (continues_flatten spaced))⟩

/-- **The lines of the text of a module.** -/
theorem Lined.lines_text (lined : file.Lined) (generated : file.text layout comments = .ok source) :
    ∃ blocks, List.Forall₂ (ClassDeclaration.Writes (layout = .single) 0) file.declarations blocks ∧
      source.lines = (file.entries blocks).flatMap (Entry.lines comments) := by
  obtain ⟨steps, made, same⟩ := Outcome.bind_eq_ok_iff.1 generated
  cases same
  obtain ⟨blocks, writes, opens⟩ := lined.opens made
  exact ⟨blocks, writes, opens.lines_text comments⟩

end ModuleFile

/-! ## The single file -/

namespace Package

/-- What the class of a package is written as, with the entries of its kinds. -/
def entries (package : Package) (kinds : List (List Entry)) : List Entry :=
  .gap 2 :: .line 0 (ClassDeclaration.header package.name) ::
    .docstring 1 ("Package " ++ package.name ++ ".") ::
    ((if package.isEmpty then [.line 1 "pass"] else []) ++ kinds.flatten)

/-- What the class of a kind is written as, with the entries of its classes. -/
def kindEntries (kind : Kind) (blocks : List (List Entry)) : List Entry :=
  .gap 1 :: .line 1 (ClassDeclaration.header kind.text) :: [.gap 1].intercalate blocks

/-- The entries are those of one kind; none where the package has no such definition. -/
def WritesKind (package : Package) (kind : Kind) (entries : List Entry) : Prop :=
  package.interfaces kind = [] ∧ entries = [] ∨
    package.interfaces kind ≠ [] ∧ ∃ blocks,
      List.Forall₂ (ClassDeclaration.Writes true 2)
          (package.declarations .single kind (package.interfaces kind)) blocks ∧
        entries = kindEntries kind blocks

/-- The entries are those of the package. -/
def Writes (package : Package) (entries : List Entry) : Prop :=
  ∃ kinds, List.Forall₂ package.WritesKind Kind.all kinds ∧ entries = package.entries kinds

/-- A parsed package with names on one line. -/
structure Lined (package : Package) : Prop where
  parsed : package.Parsed
  name : package.name.IsLine
  names : ∀ kind, ∀ i ∈ package.interfaces kind, i.name.IsLine

variable {package : Package} {layout : ModuleLayout} {kind : Kind}

theorem Lined.declarations (lined : package.Lined) (layout : ModuleLayout)
    {interfaces : List Interface} (given : ∀ i ∈ interfaces, i ∈ package.interfaces kind) :
    ∀ declared ∈ package.declarations layout kind interfaces, declared.Lined := by
  intro declared member
  obtain ⟨i, inInterfaces, ofDefinition⟩ := List.mem_flatMap.1 member
  have inKind := given i inInterfaces
  exact (lined.parsed.wellFormed inKind).2.lined_declarations lined.name
    (lined.names kind i inKind) declared ofDefinition

theorem Lined.continues_kind (lined : package.Lined) {steps : List WriterStep}
    (made : package.nestedKindSteps kind = .ok steps) :
    ∃ entries, package.WritesKind kind entries ∧ Continues 1 steps entries := by
  unfold nestedKindSteps at made
  by_cases empty : package.interfaces kind = []
  · rw [if_pos (by simpa using empty)] at made
    cases made
    exact ⟨[], .inl ⟨empty, rfl⟩, continues_nil 1⟩
  · rw [if_neg (by simpa using empty)] at made
    obtain ⟨classes, written, same⟩ := Outcome.bind_eq_ok_iff.1 made
    cases same
    obtain ⟨blocks, writes, opens⟩ := ClassDeclaration.exists_blocks
      (lined.declarations .single fun _ => id) 2 written
    have body : Continues 2 ([WriterStep.blank 1].intercalate classes)
        ([Entry.gap 1].intercalate blocks) := by
      -- behind the header of the kind it does not matter whether anything follows
      cases classes with
      | nil =>
          cases opens
          exact continues_nil 2
      | cons first others => exact (opens_intercalate opens 1).continues
    have header : (ClassDeclaration.header kind.text).OneLine :=
      ClassDeclaration.oneLine_header (isLine_text_kind kind)
    exact ⟨_, .inr ⟨empty, blocks, writes, rfl⟩, (body.below header).behind_gap 1⟩

/-- **A package is written as its entries** in a single file. -/
theorem Lined.continues_nested (lined : package.Lined) {steps : List WriterStep}
    (made : package.nestedSteps = .ok steps) :
    ∃ entries, package.Writes entries ∧ Continues 0 steps entries := by
  obtain ⟨kindSteps, written, same⟩ := Outcome.bind_eq_ok_iff.1 made
  cases same
  obtain ⟨kinds, writes, continues⟩ := Outcome.exists_forall₂ (Outcome.mapM_eq_ok_iff.1 written)
    fun kind _ steps own => lined.continues_kind own
  have pass : Continues 1 (if package.isEmpty then [write "pass"] else [])
      (if package.isEmpty then [.line 1 "pass"] else []) := by
    split
    · exact (opens_write 1 (by decide)).continues
    · exact continues_nil 1
  have doc : Text.IsLine ("Package " ++ package.name ++ ".") :=
    lined.name.between (by decide) (by decide)
  have class_ := opens_block 0 (ClassDeclaration.oneLine_header lined.name) doc
    (pass.append (continues_flatten continues))
  exact ⟨_, ⟨kinds, writes, rfl⟩, class_.behind_gap 2⟩

/-! ## The modules of a package -/

/-- What a kind exports are the classes of its definitions, from a module for each. -/
theorem exists_interface_of_exported {file : ModuleFile}
    (member : file ∈ package.kindFiles layout kind) {exported : Text × List Text}
    (inExports : exported ∈ file.exports) :
    ∃ i ∈ package.interfaces kind, exported =
      (moduleStem i, (package.declarations .declaration kind [i]).map (·.name)) := by
  by_cases empty : package.interfaces kind = []
  · rw [kindFiles_of_eq_nil empty] at member
    cases member
  · by_cases chosen : layout = .declaration
    · subst chosen
      rw [kindFiles_declaration empty] at member
      -- only the initial module of the kind exports anything
      rcases List.mem_append.1 member with own | last
      · obtain ⟨named, inNamed, rfl⟩ := List.mem_map.1 own
        obtain ⟨i, inKind, rfl⟩ := List.mem_map.1 inNamed
        cases inExports
      · cases List.mem_singleton.1 last
        obtain ⟨named, inNamed, rfl⟩ := List.mem_map.1 inExports
        obtain ⟨i, inKind, rfl⟩ := List.mem_map.1 inNamed
        exact ⟨i, inKind, rfl⟩
    · rw [kindFiles_of_ne chosen empty] at member
      cases List.mem_singleton.1 member
      cases inExports

/-- The modules of such a package are written with names on one line. -/
theorem Lined.file (lined : package.Lined) {file : ModuleFile}
    (member : file ∈ package.files layout) : file.Lined := by
  rcases mem_files_iff.1 member with rfl | ⟨kind, ofKind⟩
  · exact ⟨List.forall_mem_nil _, List.forall_mem_nil _, List.forall_mem_nil _⟩
  · have exports : ∀ exported ∈ file.exports,
        exported.1.IsLine ∧ ∀ name ∈ exported.2, name.IsLine := by
      intro exported inExports
      obtain ⟨i, inKind, rfl⟩ := exists_interface_of_exported ofKind inExports
      refine ⟨(show Text.IsLine "_" by decide).append
        (Text.isLine_snakeCase (lined.names kind i inKind)), fun name inNames => ?_⟩
      obtain ⟨declared, inDeclarations, rfl⟩ := List.mem_map.1 inNames
      exact (lined.declarations .declaration (by simpa using inKind) declared
        inDeclarations).isLine_name
    rcases mem_kindFiles ofKind with ⟨named, rfl⟩ | ⟨path, interfaces, given, rfl⟩
    · exact ⟨List.forall_mem_nil _, List.forall_mem_nil _, exports⟩
    · have declarations := lined.declarations layout given
      refine ⟨declarations, ?_, exports⟩
      unfold moduleOf
      split
      · exact List.forall_mem_nil _
      · intro name member
        obtain ⟨declared, inDeclarations, ref, inReferences, imported⟩ :=
          ModuleFile.mem_importsOf_iff.1 member
        exact (declarations declared inDeclarations).isLine_imported inReferences imported

end Package

/-- **A single file is written as the entries of its packages.** -/
theorem Sources.exists_opens_single {packages : List Package} (lined : ∀ p ∈ packages, p.Lined)
    {nestedSteps : List (List WriterStep)}
    (made : packages.mapM (·.nestedSteps) = .ok nestedSteps) :
    ∃ nested, List.Forall₂ Package.Writes packages nested ∧
      Opens 0 (ModuleFile.banner :: (ModuleFile.preamble ++ nestedSteps.flatten))
        (.line 0 ModuleFile.bannerText :: (ModuleFile.preambleEntries ++ nested.flatten)) := by
  obtain ⟨nested, writes, continues⟩ := Outcome.exists_forall₂ (Outcome.mapM_eq_ok_iff.1 made)
    fun package member steps own => (lined package member).continues_nested own
  exact ⟨nested, writes, (opens_write 0 (show Text.OneLine ModuleFile.bannerText by decide)).append
    (ModuleFile.continues_preamble.append (continues_flatten continues))⟩

/-- **The lines of a single file.** -/
theorem Sources.lines_ofSingleFile {packages : List Package} {comments : Bool} {name : Text}
    {sources : Sources} (lined : ∀ p ∈ packages, p.Lined)
    (generated : ofSingleFile packages comments name = .ok sources) :
    ∃ source, sources = [(Path.ofText name, source)] ∧
      ∃ nested, List.Forall₂ Package.Writes packages nested ∧
        source.lines = (Entry.line 0 ModuleFile.bannerText ::
          (ModuleFile.preambleEntries ++ nested.flatten)).flatMap (Entry.lines comments) := by
  obtain ⟨nestedSteps, made, same⟩ := Outcome.bind_eq_ok_iff.1 generated
  cases same
  obtain ⟨nested, writes, opens⟩ := exists_opens_single lined made
  exact ⟨_, rfl, nested, writes, opens.lines_text comments⟩

end RosInterface
