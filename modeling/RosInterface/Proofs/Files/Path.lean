/-
# RosInterface.Proofs.Files.Path -- components, stems and suffixes

A text that is put behind another one changes its last component only, where it brings
no slash of its own (`Path.exists_componentsOf_append`).  The last component parts into
stem and suffix again when a suffix is put behind a stem (`Path.splitName_append`), so
the name of a file can be read off a path that was made from it.

Paths are ordered by their components, as texts are by their code points
(`Path.componentsLe_trans`, `Path.componentsLe_total`).
-/
import RosInterface.Files.Path
import RosInterface.Proofs.Text.Order
import RosInterface.Proofs.Text.Run

set_option autoImplicit false

namespace RosInterface

/-! ## Pieces -/

namespace Text

variable {mark : CodePoint} {s t : Text}

theorem pieces_of_not_mem (free : mark ∉ s) : s.pieces mark = [s] := by
  induction s with
  | nil => rfl
  | cons c rest ih =>
      rw [List.mem_cons, not_or] at free
      rw [pieces, if_neg (Ne.symm free.1), ih free.2]

theorem pieces_append (free : mark ∉ s) (rest : Text) :
    (s ++ mark :: rest).pieces mark = s :: rest.pieces mark := by
  induction s with
  | nil => rw [List.nil_append, pieces, if_pos rfl]
  | cons c s ih =>
      rw [List.mem_cons, not_or] at free
      rw [List.cons_append, pieces, if_neg (Ne.symm free.1), ih free.2]

/-- Texts that were joined with a mark between them are the pieces again. -/
theorem pieces_joined {texts : List Text} (nonempty : texts ≠ [])
    (free : ∀ text ∈ texts, mark ∉ text) : (joined [mark] texts).pieces mark = texts := by
  induction texts with
  | nil => exact absurd rfl nonempty
  | cons text texts ih =>
      obtain ⟨first, others⟩ := List.forall_mem_cons.1 free
      cases texts with
      | nil => rw [joined_singleton, pieces_of_not_mem first]
      | cons next texts =>
          rw [joined_cons_cons, List.singleton_append, pieces_append first,
            ih (List.cons_ne_nil next texts) others]

/-- What brings no mark goes to the last piece. -/
theorem exists_pieces_append (s : Text) (free : mark ∉ t) :
    ∃ before last, s.pieces mark = before ++ [last] ∧
      (s ++ t).pieces mark = before ++ [last ++ t] := by
  induction s with
  | nil => exact ⟨[], [], rfl, pieces_of_not_mem free⟩
  | cons c rest ih =>
      obtain ⟨before, last, whole, longer⟩ := ih
      rw [List.cons_append, pieces, pieces, whole, longer]
      split
      case isTrue => exact ⟨[] :: before, last, rfl, rfl⟩
      case isFalse =>
        cases before with
        | nil => exact ⟨[], c :: last, rfl, rfl⟩
        | cons first before => exact ⟨(c :: first) :: before, last, rfl, rfl⟩

end Text

namespace Path

/-! ## Components -/

theorem componentsOf_of_not_mem {s : Text} (free : CodePoint.slash ∉ s) (some_ : s ≠ [])
    (notDot : s ≠ ".") : componentsOf s = [s] := by
  rw [componentsOf, Text.pieces_of_not_mem free]
  simp [some_, notDot]

/-- A text of two or more code points and without a slash ends the last component. -/
theorem exists_componentsOf_append (s : Text) {t : Text} (free : CodePoint.slash ∉ t)
    (long : 2 ≤ t.length) : ∃ before last, componentsOf (s ++ t) = before ++ [last ++ t] := by
  obtain ⟨before, last, -, longer⟩ := Text.exists_pieces_append s free
  have lengthy : 2 ≤ (last ++ t).length := by
    rw [List.length_append]
    omega
  have some_ : last ++ t ≠ [] := by
    intro empty
    simp [empty] at lengthy
  have notDot : last ++ t ≠ Text.ofString "." := by
    intro dot
    simp [dot, Text.ofString] at lengthy
  rw [componentsOf, longer, List.filter_append]
  exact ⟨_, last, congrArg _ (List.filter_eq_self.2 (by simp [some_, notDot]))⟩

/-- The text stands for itself as a component of relative paths. -/
def IsComponent (s : Text) : Prop := ofText s = ⟨.none, [s]⟩

instance (s : Text) : Decidable (IsComponent s) := inferInstanceAs (Decidable (_ = _))

/-! ## Joining -/

theorem append_of_relative {p q : Path} (relative : q.anchor = .none) :
    p ++ q = ⟨p.anchor, p.components ++ q.components⟩ := if_pos relative

theorem foldl_append_of_relative {parts : List Text} {p : Path}
    (relative : ∀ part ∈ parts, anchorOf part = .none) :
    parts.foldl (fun path part => path ++ ofText part) p =
      ⟨p.anchor, p.components ++ parts.flatMap componentsOf⟩ := by
  induction parts generalizing p with
  | nil => simp
  | cons part parts ih =>
      rw [List.foldl_cons, ih fun other member => relative other (List.mem_cons_of_mem _ member),
        append_of_relative (relative part List.mem_cons_self), List.flatMap_cons, List.append_assoc]
      rfl

theorem components_append_ne_nil {p q : Path} (some_ : q.components ≠ []) :
    (p ++ q).components ≠ [] := by
  change (p.join q).components ≠ []
  unfold join
  split
  case isTrue => exact List.append_ne_nil_of_right_ne_nil _ some_
  case isFalse => exact some_

/-- A path keeps its last component below any other. -/
theorem name_append {p q : Path} (some_ : q.components ≠ []) : (p ++ q).name = q.name := by
  change (p.join q).name = q.name
  unfold join
  split
  case isTrue =>
    rw [name, name, List.getLastD_eq_getLast?, List.getLastD_eq_getLast?, List.getLast?_append,
      List.getLast?_eq_some_getLast some_]
    rfl
  case isFalse => rfl

/-! ## Stem and suffix -/

theorem splitName_append {stem extension : Text} (some_ : stem ≠ []) (long : extension ≠ [])
    (free : CodePoint.dot ∉ extension) :
    splitName (stem ++ CodePoint.dot :: extension) = (stem, CodePoint.dot :: extension) := by
  have inside : ∀ c ∈ extension.reverse, decide (c ≠ CodePoint.dot) = true := by
    intro c member
    rw [decide_eq_true_eq]
    rintro rfl
    exact free (List.mem_reverse.1 member)
  have extended : (stem ++ CodePoint.dot :: extension).reverse.takeWhile (· ≠ CodePoint.dot) =
      extension.reverse := by
    rw [List.reverse_append, List.reverse_cons, List.append_assoc]
    exact Text.takeWhile_append_stop inside (Text.stops_cons.2 (by decide))
  have before : (stem ++ CodePoint.dot :: extension).length - extension.reverse.length - 1 =
      stem.length := by
    simp only [List.length_append, List.length_cons, List.length_reverse]
    omega
  have shorter : extension.reverse.length ≠ (stem ++ CodePoint.dot :: extension).length := by
    simp only [List.length_append, List.length_cons, List.length_reverse]
    omega
  rw [splitName]
  simp only [extended, before, List.take_left, List.drop_left]
  refine if_neg ?_
  rintro (none_ | none_ | same)
  · exact long (List.reverse_eq_nil_iff.1 none_)
  · exact some_ none_
  · exact shorter same

/-- A stem is the beginning of a name, and not an empty one. -/
theorem splitName_ne_nil {name : Text} (some_ : name ≠ []) : (splitName name).1 ≠ [] := by
  unfold splitName
  simp only
  split
  case isTrue => exact some_
  case isFalse parts => exact fun empty => parts (.inr (.inl empty))

/-! ## Order -/

theorem componentsLe_cons_iff {a b : Text} {s t : List Text} :
    componentsLe (a :: s) (b :: t) = true ↔
      a = b ∧ componentsLe s t = true ∨ a ≠ b ∧ a.le b = true := by
  rw [componentsLe]
  split
  case isTrue same => simp [same]
  case isFalse differ => simp [differ]

theorem componentsLe_trans {r s t : List Text} (first : componentsLe r s = true)
    (second : componentsLe s t = true) : componentsLe r t = true := by
  induction r generalizing s t with
  | nil => rfl
  | cons a r ih =>
      cases s with
      | nil => cases first
      | cons b s =>
          cases t with
          | nil => cases second
          | cons c t =>
              rw [componentsLe_cons_iff] at first second ⊢
              rcases first with ⟨rfl, rest⟩ | ⟨differ, below⟩
              · rcases second with ⟨rfl, more⟩ | apart
                · exact .inl ⟨rfl, ih rest more⟩
                · exact .inr apart
              · rcases second with ⟨rfl, -⟩ | ⟨-, further⟩
                · exact .inr ⟨differ, below⟩
                · -- were `a` and `c` equal, `b` would be on both sides of them
                  refine .inr ⟨fun same => differ ?_, Text.le_trans below further⟩
                  exact Text.le_antisymm below (same ▸ further)

theorem componentsLe_total (s t : List Text) :
    componentsLe s t = true ∨ componentsLe t s = true := by
  induction s generalizing t with
  | nil => exact .inl rfl
  | cons a s ih =>
      cases t with
      | nil => exact .inr rfl
      | cons b t =>
          simp only [componentsLe_cons_iff]
          by_cases same : a = b
          · rcases ih t with rest | rest
            · exact .inl (.inl ⟨same, rest⟩)
            · exact .inr (.inl ⟨same.symm, rest⟩)
          · rcases Text.le_total a b with below | above
            · exact .inl (.inr ⟨same, below⟩)
            · exact .inr (.inr ⟨Ne.symm same, above⟩)

end Path

end RosInterface
