/-
# RosInterface.Proofs.Output.Indentation -- generated texts are well indented

A block is what is indented under its header, so a level that is left open, closed twice or
opened without a body makes all of a text unreadable.  Here the lines of a text are looked at
without what generated them: each is empty or stands at a depth, no line stands deeper than the
one before it unless that is the header of a class, and then one level deeper, and every header
has such a line behind it (`Text.WellIndented`).

The lines that are not empty carry the argument.  Those of an outline are `Stacked` at its depth:
they begin there, stay at least as deep, and do not end in a header; so two outlines at one depth
can stand behind each other, and one can stand below a header.

`Sources.well_indented` says so of all that is generated for names without white space.  A name
that begins with a space would stand deeper than its line.
-/
import Mathlib.Data.List.Chain
import RosInterface.Proofs.Output.Outline

set_option autoImplicit false

namespace RosInterface

open Writer (Entry indentation docQuotes)
open ClassDeclaration (header)

/-! ## Lines at a depth -/

namespace CodePoint

theorem isSpace_of_isLineBoundary {c : CodePoint} (boundary : c.isLineBoundary = true) :
    c.isSpace = true := by
  simp only [isLineBoundary, inRanges, List.any_cons, List.any_nil, Bool.or_false, Bool.or_eq_true,
    Bool.and_eq_true, decide_eq_true_eq] at boundary
  rw [isSpace_iff]
  omega

end CodePoint

namespace Text

/-- There is something in the text, and no white space. -/
structure IsSolid (s : Text) : Prop where
  nonempty : s ≠ []
  solid : ∀ c ∈ s, c.isSpace = false

/-- The line is the indentation of a depth, and then begins with something else than white
space. -/
def IndentedBy (level : Nat) (line : Text) : Prop :=
  ∃ s : Text, s.IsFlush ∧ line = indentation level ++ s

/-- The lines that are not empty. -/
def shown (lines : List Text) : List Text := lines.filter fun line => !line.isEmpty

/-- Lines whose depths are those of nested blocks. -/
structure WellIndented (lines : List Text) : Prop where
  /-- Every line is empty or stands at a depth. -/
  indented : ∀ line ∈ lines, line = [] ∨ ∃ level, IndentedBy level line
  /-- The depth grows behind a header only, and then by one. -/
  deepens : (shown lines).IsChain fun line next => ∀ i j,
    IndentedBy i line → IndentedBy j next → i < j → IsHeader i line ∧ j = i + 1
  /-- Behind a header the next line that is not empty is there and stands one level deeper. -/
  bodies : ∀ before line after level, lines = before ++ line :: after → IsHeader level line →
    ∃ gap next rest, after = gap ++ next :: rest ∧ (∀ other ∈ gap, other = []) ∧
      IndentedBy (level + 1) next

variable {s line next : Text} {level depth : Nat}

theorem IsSolid.isLine (solid : s.IsSolid) : s.IsLine := by
  intro c member
  by_contra boundary
  rw [Bool.not_eq_false] at boundary
  have space := CodePoint.isSpace_of_isLineBoundary boundary
  rw [solid.solid c member] at space
  cases space

theorem IsSolid.isFlush (solid : s.IsSolid) : s.IsFlush := by
  obtain ⟨c, rest, rfl⟩ := List.exists_cons_of_ne_nil solid.nonempty
  exact ⟨c, rest, rfl, solid.solid c List.mem_cons_self⟩

theorem IndentedBy.ne_nil (indented : IndentedBy level line) : line ≠ [] := by
  obtain ⟨s, ⟨c, rest, rfl, -⟩, rfl⟩ := indented
  exact List.append_ne_nil_of_right_ne_nil _ (List.cons_ne_nil c rest)

/-- A line stands at one depth. -/
theorem IndentedBy.unique (first : IndentedBy level line) (second : IndentedBy depth line) :
    level = depth := by
  obtain ⟨s, flush, rfl⟩ := first
  obtain ⟨t, otherFlush, same⟩ := second
  have runs : indentation level = indentation depth := by
    calc indentation level
      _ = (indentation level ++ s).takeWhile (·.isSpace) :=
          (takeWhile_append_stop isSpace_of_mem_indentation flush.stops).symm
      _ = (indentation depth ++ t).takeWhile (·.isSpace) := by rw [same]
      _ = indentation depth := takeWhile_append_stop isSpace_of_mem_indentation otherFlush.stops
  have lengths := congrArg List.length runs
  simp only [indentation, List.length_replicate] at lengths
  omega

theorem IsHeader.indentedBy (opens : IsHeader level line) : IndentedBy level line := by
  obtain ⟨name, rfl⟩ := opens
  exact ⟨header name, isFlush_header name, rfl⟩

end Text

open Text (IndentedBy IsHeader WellIndented shown)

/-! ## Stacked lines -/

/-- What can stand behind a line: one level deeper behind a header, and nothing deeper behind any
other line. -/
def Follows (line next : Text) : Prop :=
  ∃ i j, IndentedBy i line ∧ IndentedBy j next ∧
    (IsHeader i line ∧ j = i + 1 ∨ (∀ level, ¬ IsHeader level line) ∧ j ≤ i)

namespace Follows

variable {line next : Text} {i j level : Nat}

theorem deepens (follows : Follows line next) (own : IndentedBy i line)
    (behind : IndentedBy j next) (deeper : i < j) : IsHeader i line ∧ j = i + 1 := by
  obtain ⟨depth, below, indented, other, ⟨opens, rfl⟩ | ⟨-, notDeeper⟩⟩ := follows
  · cases own.unique indented
    exact ⟨opens, behind.unique other⟩
  · cases own.unique indented
    cases behind.unique other
    omega

theorem of_header (follows : Follows line next) (opens : IsHeader level line) :
    IndentedBy (level + 1) next := by
  obtain ⟨depth, below, indented, other, ⟨-, rfl⟩ | ⟨noHeader, -⟩⟩ := follows
  · cases opens.indentedBy.unique indented
    exact other
  · exact absurd opens (noHeader level)

end Follows

/-- The lines begin at the depth and never leave it upwards, they follow each other, and the last
is no header. -/
structure Stacked (level : Nat) (lines : List Text) : Prop where
  deep : ∀ line ∈ lines, ∃ depth, level ≤ depth ∧ IndentedBy depth line
  first : ∀ line ∈ lines.head?, IndentedBy level line
  chain : lines.IsChain Follows
  closed : ∀ line ∈ lines.getLast?, ∀ depth, ¬ IsHeader depth line

namespace Stacked

variable {level : Nat} {lines more : List Text}

theorem nil (level : Nat) : Stacked level [] where
  deep := List.forall_mem_nil _
  first := fun line member => by cases member
  chain := .nil
  closed := fun line member => by cases member

theorem line {text : Text} (plain : text.Plain True) :
    Stacked level [indentation level ++ text] := by
  have indented : IndentedBy level (indentation level ++ text) := ⟨text, plain.flush trivial, rfl⟩
  refine ⟨List.forall_mem_singleton.2 ⟨level, le_refl level, indented⟩, fun other member => ?_,
    .singleton _, fun other member => ?_⟩
  · cases member
    exact indented
  · cases member
    exact plain.noHeader level

/-- Lines behind each other at one depth. -/
theorem append (front : Stacked level lines) (behind : Stacked level more) :
    Stacked level (lines ++ more) := by
  refine ⟨List.forall_mem_append.2 ⟨front.deep, behind.deep⟩, fun line member => ?_,
    List.isChain_append.2 ⟨front.chain, behind.chain, fun line last next first => ?_⟩,
    fun line member => ?_⟩
  · cases lines with
    | nil => exact behind.first line member
    | cons head rest => exact front.first line member
  · obtain ⟨depth, deep, indented⟩ := front.deep line (List.mem_of_getLast? last)
    exact ⟨depth, level, indented, behind.first next first, .inr ⟨front.closed line last, deep⟩⟩
  · rw [List.getLast?_append] at member
    cases last : more.getLast? with
    | none =>
        rw [last] at member
        exact front.closed line member
    | some other =>
        rw [last] at member
        exact behind.closed line (last ▸ member)

/-- Lines below a header; there have to be some. -/
theorem below (body : Stacked (level + 1) lines) (some_ : lines ≠ []) (name : Text) :
    Stacked level ((indentation level ++ header name) :: lines) := by
  have opens : IsHeader level (indentation level ++ header name) := ⟨name, rfl⟩
  refine ⟨List.forall_mem_cons.2 ⟨⟨level, le_refl level, opens.indentedBy⟩, fun line member => ?_⟩,
    fun line member => ?_, List.isChain_cons.2 ⟨fun next first => ?_, body.chain⟩,
    fun line member => ?_⟩
  · obtain ⟨depth, deep, indented⟩ := body.deep line member
    exact ⟨depth, by omega, indented⟩
  · cases member
    exact opens.indentedBy
  · exact ⟨level, level + 1, opens.indentedBy, body.first next first, .inl ⟨opens, rfl⟩⟩
  · rw [List.getLast?_cons_of_ne_nil some_] at member
    exact body.closed line member

/-- Behind a header there is a line, one level deeper. -/
theorem exists_next {depth : Nat} {before after : List Text} {line : Text}
    (stacked : Stacked level (before ++ line :: after)) (opens : IsHeader depth line) :
    ∃ next others, after = next :: others ∧ IndentedBy (depth + 1) next := by
  cases after with
  | nil =>
      -- the last line is no header
      have last : line ∈ (before ++ [line]).getLast? := by
        rw [List.getLast?_concat]
        rfl
      exact absurd opens (stacked.closed line last depth)
  | cons next others =>
      have follows := (List.isChain_append_cons_cons.1 stacked.chain).2.1
      exact ⟨next, others, rfl, follows.of_header opens⟩

/-- **Stacked lines are those of nested blocks**, whatever empty lines stand between them. -/
theorem wellIndented (stacked : Stacked 0 (shown lines)) : WellIndented lines where
  indented := by
    intro line member
    by_cases empty : line = []
    · exact .inl empty
    · have inShown : line ∈ shown lines := List.mem_filter.2 ⟨member, by simpa using empty⟩
      obtain ⟨depth, -, indented⟩ := stacked.deep line inShown
      exact .inr ⟨depth, indented⟩
  deepens := stacked.chain.imp fun line next follows i j => follows.deepens
  bodies := by
    intro before line after level whole opens
    have split : shown lines = shown before ++ line :: shown after := by
      rw [whole, shown, List.filter_append, List.filter_cons_of_pos
        (by simpa using opens.indentedBy.ne_nil)]
      rfl
    rw [split] at stacked
    obtain ⟨next, others, behind, indented⟩ := stacked.exists_next opens
    obtain ⟨gap, rest, rfl, empty, -, -⟩ := List.filter_eq_cons_iff.1 behind
    exact ⟨gap, next, rest, rfl, fun other member => by simpa using empty other member, indented⟩

end Stacked

/-! ## Outlines -/

namespace Writer

variable {comments : Bool}

/-- The lines of entries that are not empty. -/
def shownLines (comments : Bool) (entries : List Entry) : List Text :=
  shown (entries.flatMap (Entry.lines comments))

theorem shownLines_append (entries others : List Entry) :
    shownLines comments (entries ++ others) =
      shownLines comments entries ++ shownLines comments others := by
  rw [shownLines, List.flatMap_append, shown, List.filter_append]
  rfl

theorem shownLines_gap (count : Nat) : shownLines comments [.gap count] = [] := by
  refine List.filter_eq_nil_iff.2 fun line member => ?_
  rw [List.flatMap_singleton] at member
  rw [List.eq_of_mem_replicate member]
  decide

theorem shownLines_line (level : Nat) {text : Text} (nonempty : text ≠ []) :
    shownLines comments [.line level text] = [indentation level ++ text] := by
  have kept : (indentation level ++ text).isEmpty = false := by
    rw [List.isEmpty_eq_false_iff]
    exact List.append_ne_nil_of_right_ne_nil _ nonempty
  show shown [indentation level ++ text] = [indentation level ++ text]
  rw [shown, List.filter_cons_of_pos (by rw [kept]; rfl), List.filter_nil]

theorem HasLine.shownLines_ne_nil {entries : List Entry} (hasLine : HasLine entries) :
    shownLines comments entries ≠ [] := by
  obtain ⟨level, text, nonempty, member⟩ := hasLine
  obtain ⟨before, after, rfl⟩ := List.append_of_mem member
  rw [List.append_cons, shownLines_append, shownLines_append, shownLines_line level nonempty]
  simp

/-- A docstring is a line that opens no class, or none. -/
theorem stacked_docstring (level : Nat) (doc : Text) :
    Stacked level (shownLines comments [.docstring level doc]) := by
  cases comments with
  | false => exact .nil level
  | true =>
      have plain : (docQuotes ++ doc ++ docQuotes).Plain True := by
        rw [List.append_assoc]
        exact Text.plain_append (by decide) _
      have nonempty : docQuotes ++ doc ++ docQuotes ≠ [] :=
        List.append_ne_nil_of_right_ne_nil _ (by decide)
      have same : shownLines true [.docstring level doc] =
          [indentation level ++ (docQuotes ++ doc ++ docQuotes)] := shownLines_line level nonempty
      rw [same]
      exact .line plain

/-- A class: what stands below its header, and what stands behind it. -/
theorem stacked_class {level : Nat} {body rest : List Entry} (name : Text)
    (below : Stacked (level + 1) (shownLines comments body))
    (some_ : shownLines comments body ≠ []) (behind : Stacked level (shownLines comments rest)) :
    Stacked level (shownLines comments (.line level (header name) :: (body ++ rest))) := by
  have whole : shownLines comments (.line level (header name) :: (body ++ rest)) =
      ((indentation level ++ header name) :: shownLines comments body) ++
        shownLines comments rest := by
    rw [← List.singleton_append, shownLines_append, shownLines_append,
      shownLines_line level (ClassDeclaration.header_ne_nil name)]
    rfl
  rw [whole]
  exact (below.below some_ name).append behind

/-- **The lines of an outline are stacked**, with docstrings or without them. -/
theorem Outline.stacked {nested : Bool} {level : Nat} {notes : List ClassNote}
    {entries : List Entry} (outline : Outline nested True level notes entries) :
    Stacked level (shownLines comments entries) := by
  induction outline with
  | nil level => exact .nil level
  | gap count _ ih =>
      rw [← List.singleton_append, shownLines_append, shownLines_gap]
      exact ih
  | @line level text _ _ plain _ ih =>
      have nonempty : text ≠ [] := by
        obtain ⟨c, rest, rfl, -⟩ := plain.flush trivial
        exact List.cons_ne_nil c rest
      rw [← List.singleton_append, shownLines_append, shownLines_line level nonempty]
      exact (Stacked.line plain).append ih
  | @noted level _ _ body _ name doc _ hasLine _ ofBody ofRest =>
      have below : Stacked (level + 1)
          (shownLines comments (.docstring (level + 1) doc :: body)) := by
        rw [← List.singleton_append, shownLines_append]
        exact (stacked_docstring (level + 1) doc).append ofBody
      exact stacked_class name below (hasLine.behind _).shownLines_ne_nil ofRest
  | kind kind _ _ hasLine _ ofBody ofRest =>
      exact stacked_class kind.text ofBody hasLine.shownLines_ne_nil ofRest

end Writer

/-! ## Sources -/

/-- A parsed package with names that are not empty and hold no white space. -/
structure Package.Solid (package : Package) : Prop where
  parsed : package.Parsed
  name : package.name.IsSolid
  names : ∀ kind, ∀ i ∈ package.interfaces kind, i.name.IsSolid

theorem Package.Solid.lined {package : Package} (solid : package.Solid) : package.Lined where
  parsed := solid.parsed
  name := solid.name.isLine
  names := fun kind i member => (solid.names kind i member).isLine

namespace Sources

variable {packages : List Package} {layout : ModuleLayout} {comments : Bool} {sources : Sources}

/-- **Generated texts are well indented.**  In each text that is generated for parsed packages
whose names hold no white space, in every layout, with docstrings and without them: every line is
empty or stands at a depth; the next line that is not empty stands deeper only behind the header
of a class, and then by one level; and such a line stands behind every header, so no class is
without a body. -/
theorem well_indented (solid : ∀ p ∈ packages, p.Solid)
    (generated : ofPackages packages layout comments = .ok sources) :
    ∀ source ∈ sources, source.2.ClosesLines ∧ WellIndented source.2.lines := by
  intro source member
  obtain ⟨others, -, each⟩ := exists_ofPackages_sameSteps generated comments
  obtain ⟨other, -, same⟩ := Outcome.exists_of_forall₂ each member
  obtain ⟨notes, entries, -, outline, renders, -⟩ := same.exists_outline
    (fun p inPackages => (solid p inPackages).lined)
    fun (_ : True) p inPackages kind i inKind => ((solid p inPackages).names kind i inKind).isFlush
  refine ⟨renders.closed, Stacked.wellIndented ?_⟩
  rw [renders.lines_eq]
  exact outline.stacked

open Package (notePackage notePackage_lined)

/-- A package with a message, and one without anything. -/
def notePackages : List Package := [notePackage, .ofInterfaces "q" [] []]

theorem notePackages_solid : ∀ p ∈ notePackages, p.Solid := by
  have name (s : Text) (nonempty : s ≠ []) (solid : ∀ c ∈ s, c.isSpace = false) : s.IsSolid :=
    ⟨nonempty, solid⟩
  refine List.forall_mem_cons.2 ⟨⟨notePackage_lined.parsed, name "p" (by decide) (by decide), ?_⟩,
    List.forall_mem_singleton.2 ⟨⟨[], rfl, List.forall_mem_nil _⟩,
      name "q" (by decide) (by decide), ?_⟩⟩
  · intro kind i member
    rw [Package.eq_of_mem_notePackage member]
    exact name "Note" (by decide) (by decide)
  · intro kind i member
    cases (List.mem_filter.1 (Package.perm_interfaces_ofInterfaces.mem_iff.1 member)).1

theorem well_indented_note :
    (∀ p ∈ notePackages, p.Solid) ∧ ∃ source,
      ofPackages notePackages .single false = .ok [(Path.ofText singleFileName, source)] ∧
        source.ClosesLines ∧ WellIndented source.lines := by
  have lined : ∀ p ∈ notePackages, p.Lined := fun p member => (notePackages_solid p member).lined
  obtain ⟨source, generated, -⟩ := Package.exists_source_of_single lined false
  exact ⟨notePackages_solid, source, generated,
    well_indented notePackages_solid generated _ List.mem_cons_self⟩

end Sources

end RosInterface
