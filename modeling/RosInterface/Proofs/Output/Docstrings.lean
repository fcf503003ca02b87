/-
# RosInterface.Proofs.Output.Docstrings -- the switch for docstrings only adds lines

A writer that leaves docstrings out could write other gaps as well, since a gap is made up to a
number of empty lines and depends on what stands before it.  It does not: behind a docstring
that was left out there is still a line that shows something, the header.  So the text with
docstrings is the text without them and one line more behind the header of each class, one
level deeper; the only classes without such a line are those that gather a kind in a single
file (`Documented`).

`Sources.docstrings_only_added` says so of all that is generated.
-/
import RosInterface.Proofs.Output.Outline

set_option autoImplicit false

namespace RosInterface

open Writer (Entry indentation docQuotes)
open ClassDeclaration (header)

/-! ## Lines with and without docstrings -/

namespace ClassNote

/-- The line that opens the class. -/
def headerLine (note : ClassNote) : Text := indentation note.level ++ header note.name

/-- The docstring of the class, one level deeper than its header. -/
def docLine (note : ClassNote) : Text :=
  indentation (note.level + 1) ++ (docQuotes ++ note.doc ++ docQuotes)

end ClassNote

/-- The line opens no class, or that of a kind in a single file (`nested`). -/
def Text.Undocumented (nested : Bool) (line : Text) : Prop :=
  ∀ level, line.IsHeader level → nested = true ∧
    ∃ kind : Kind, line = indentation 1 ++ header kind.text

/-- The second lines are the first, and one more behind each header of a class with a note: its
docstring.  No other line of them opens a class, but for those of the kinds in a single file. -/
inductive Documented (nested : Bool) : List ClassNote → List Text → List Text → Prop where
  | nil : Documented nested [] [] []
  | same {line : Text} {notes : List ClassNote} {lines others : List Text}
      (undocumented : line.Undocumented nested) (behind : Documented nested notes lines others) :
      Documented nested notes (line :: lines) (line :: others)
  | noted (note : ClassNote) {notes : List ClassNote} {lines others : List Text}
      (behind : Documented nested notes lines others) :
      Documented nested (note :: notes) (note.headerLine :: lines)
        (note.headerLine :: note.docLine :: others)

namespace Documented

variable {nested : Bool} {notes more : List ClassNote}
  {lines others moreLines moreOthers : List Text}

theorem append (first : Documented nested notes lines others)
    (second : Documented nested more moreLines moreOthers) :
    Documented nested (notes ++ more) (lines ++ moreLines) (others ++ moreOthers) := by
  induction first with
  | nil => exact second
  | same undocumented _ ih => exact .same undocumented ih
  | noted note _ ih => exact .noted note ih

/-- Lines that no docstring belongs to. -/
theorem ofLines (undocumented : ∀ line ∈ lines, line.Undocumented nested) :
    Documented nested [] lines lines := by
  induction lines with
  | nil => exact .nil
  | cons line lines ih =>
      obtain ⟨first, rest⟩ := List.forall_mem_cons.1 undocumented
      exact .same first (ih rest)

end Documented

/-! ## Outlines -/

theorem Text.undocumented_nil (nested : Bool) : Text.Undocumented nested [] := by
  rintro level ⟨name, same⟩
  have nonempty : indentation level ++ header name ≠ [] :=
    List.append_ne_nil_of_right_ne_nil _ (ClassDeclaration.header_ne_nil name)
  exact absurd same.symm nonempty

theorem Text.Plain.undocumented {solid : Prop} {text : Text} (plain : text.Plain solid)
    (nested : Bool) (depth : Nat) : (indentation depth ++ text).Undocumented nested :=
  fun level opens => absurd opens (plain.noHeader depth level)

/-- **An outline is written with docstrings as without them, but for a line behind each
header.** -/
theorem Writer.Outline.documented {nested : Bool} {solid : Prop} {level : Nat}
    {notes : List ClassNote} {entries : List Entry}
    (outline : Outline nested solid level notes entries) :
    Documented nested notes (entries.flatMap (Entry.lines false))
      (entries.flatMap (Entry.lines true)) := by
  induction outline with
  | nil level => exact .nil
  | gap count _ ih =>
      refine (Documented.ofLines fun line member => ?_).append ih
      rw [List.eq_of_mem_replicate member]
      exact Text.undocumented_nil nested
  | line plain _ ih => exact .same (plain.undocumented nested _) ih
  | @noted level inner notes body rest name doc _ _ _ ofBody ofRest =>
      have class_ := Documented.noted ⟨level, name, doc⟩ (ofBody.append ofRest)
      simpa [Entry.lines, ClassNote.headerLine, ClassNote.docLine] using class_
  | @kind inner notes body rest kind single _ _ _ ofBody ofRest =>
      have undocumented : (indentation 1 ++ header kind.text).Undocumented nested :=
        fun _ _ => ⟨single, kind, rfl⟩
      have class_ := Documented.same undocumented (ofBody.append ofRest)
      simpa [Entry.lines] using class_

/-! ## Sources -/

namespace Sources

variable {packages : List Package} {layout : ModuleLayout}

/-- The second text is the first with docstrings: both have one path, and behind the header of
each class that is noted for it the second has one line more. -/
structure Documents (packages : List Package) (layout : ModuleLayout) (plain full : Path × Text) :
    Prop where
  path_eq : plain.1 = full.1
  plain_closed : plain.2.ClosesLines
  full_closed : full.2.ClosesLines
  documented : ∃ notes, NotedBy packages layout plain.1 notes ∧
    Documented (layout = .single) notes plain.2.lines full.2.lines

theorem SameSteps.documents {plain full : Path × Text}
    (same : SameSteps packages layout false true plain full) (lined : ∀ p ∈ packages, p.Lined) :
    Documents packages layout plain full := by
  obtain ⟨notes, entries, noted, outline, ofPlain, ofFull⟩ :=
    same.exists_outline lined fun known : False => known.elim
  refine ⟨same.1, ofPlain.closed, ofFull.closed, notes, noted, ?_⟩
  rw [ofPlain.lines_eq, ofFull.lines_eq]
  exact outline.documented

/-- **The switch for docstrings only adds docstrings.**  Whatever is generated for parsed packages
with names on one line is generated without docstrings and with them: the same paths in the same
order, and each text with docstrings is the text without them and one line behind the header of
each class of a message, a service, an action or, in a single file, a package.  The lines are
otherwise the same, empty lines included. -/
theorem docstrings_only_added (lined : ∀ p ∈ packages, p.Lined) {comments : Bool}
    {sources : Sources} (generated : ofPackages packages layout comments = .ok sources) :
    ∃ plain full, ofPackages packages layout false = .ok plain ∧
      ofPackages packages layout true = .ok full ∧
      List.Forall₂ (Documents packages layout) plain full := by
  obtain ⟨plain, withoutDocs, -⟩ := exists_ofPackages_sameSteps generated false
  obtain ⟨full, withDocs, same⟩ := exists_ofPackages_sameSteps withoutDocs true
  exact ⟨plain, full, withoutDocs, withDocs, same.imp fun _ _ own => own.documents lined⟩

open Package (notePackage notePackage_lined) in
theorem docstrings_only_added_note :
    notePackage.notes = [⟨0, "p", "Package p."⟩, ⟨2, "Note", "Message p/msg/Note."⟩] ∧
      (∀ p ∈ [notePackage], p.Lined) ∧
      ∃ plain full, ofPackages [notePackage] .single false = .ok plain ∧
        ofPackages [notePackage] .single true = .ok full ∧
        List.Forall₂ (Documents [notePackage] .single) plain full := by
  have lined : ∀ p ∈ [notePackage], p.Lined := List.forall_mem_singleton.2 notePackage_lined
  obtain ⟨source, generated, -⟩ := Package.exists_source_of_single lined true
  exact ⟨by decide +kernel, lined, docstrings_only_added lined generated⟩

end Sources

end RosInterface
