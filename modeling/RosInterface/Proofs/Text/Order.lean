/-
# RosInterface.Proofs.Text.Order -- texts in order

Texts are compared code point by code point, and a proper beginning comes first.  The
comparison is transitive and total (`Text.le_trans`, `Text.le_total`), so a sort by a
text key is what it should be: the same items (`Text.perm_sortOn`) with their keys in
order (`Text.pairwise_sortOn`).

Two things can be done before a sort as well as after it.  Items can be left out, for the sort
is stable (`Text.filter_sortOn`); and, as only equal texts are below each other, items with
distinct keys can be put in another order (`Text.sortOn_of_perm`).
-/
import RosInterface.Text.CodePoint
import Mathlib.Data.List.Nodup

set_option autoImplicit false

namespace RosInterface.Text

theorem le_cons_iff {a b : CodePoint} {s t : Text} :
    le (a :: s) (b :: t) = true ↔ a.val < b.val ∨ a.val = b.val ∧ le s t = true := by
  rw [le]
  split
  case isTrue first => simp [first]
  case isFalse notFirst =>
    split
    case isTrue second => simp; omega
    case isFalse notSecond => simp [show a.val = b.val by omega]

theorem le_trans {r s t : Text} (first : le r s = true) (second : le s t = true) :
    le r t = true := by
  induction r generalizing s t with
  | nil => rfl
  | cons a r ih =>
      cases s with
      | nil => cases first
      | cons b s =>
          cases t with
          | nil => cases second
          | cons c t =>
              rw [le_cons_iff] at first second ⊢
              rcases first with below | ⟨same, rest⟩
              · left
                omega
              · rcases second with below | ⟨next, more⟩
                · left
                  omega
                · exact .inr ⟨same.trans next, ih rest more⟩

theorem le_total (s t : Text) : le s t = true ∨ le t s = true := by
  induction s generalizing t with
  | nil => exact .inl rfl
  | cons a s ih =>
      cases t with
      | nil => exact .inr rfl
      | cons b t =>
          simp only [le_cons_iff]
          rcases Nat.lt_trichotomy a.val b.val with below | same | above
          · exact .inl (.inl below)
          · rcases ih t with rest | rest
            · exact .inl (.inr ⟨same, rest⟩)
            · exact .inr (.inr ⟨same.symm, rest⟩)
          · exact .inr (.inl above)

theorem le_antisymm {s t : Text} (first : le s t = true) (second : le t s = true) : s = t := by
  induction s generalizing t with
  | nil =>
      cases t with
      | nil => rfl
      | cons b t => cases second
  | cons a s ih =>
      cases t with
      | nil => cases first
      | cons b t =>
          rw [le_cons_iff] at first second
          rcases first with below | ⟨same, rest⟩
          · omega
          · rcases second with below | ⟨-, more⟩
            · omega
            · rw [CodePoint.ext same, ih rest more]

/-! ## Sorting -/

variable {α : Type}

section Stable

variable {le : α → α → Bool}
  (trans : ∀ a b c, le a b = true → le b c = true → le a c = true)
  (total : ∀ a b, (le a b || le b a) = true)
include trans total

/-- An item goes between the sorted others that it is not below and those that it is. -/
theorem mergeSort_cons_eq (a : α) (rest : List α) :
    (a :: rest).mergeSort le =
      (rest.mergeSort le).filter (fun b => !le a b) ++
        a :: (rest.mergeSort le).filter (fun b => le a b) := by
  obtain ⟨before, after, whole, others, notBelow⟩ := List.mergeSort_cons trans total a rest
  have below : ∀ b ∈ after, le a b = true := by
    have sorted := List.pairwise_mergeSort trans total (a :: rest)
    rw [whole] at sorted
    exact (List.pairwise_cons.1 (List.pairwise_append.1 sorted).2.1).1
  have noneBefore : before.filter (fun b => le a b) = [] :=
    List.filter_eq_nil_iff.2 fun b member => by simpa using notBelow b member
  have noneAfter : after.filter (fun b => !le a b) = [] :=
    List.filter_eq_nil_iff.2 fun b member => by simpa using below b member
  rw [whole, others, List.filter_append, List.filter_append, List.filter_eq_self.2 notBelow,
    List.filter_eq_self.2 below, noneBefore, noneAfter, List.append_nil, List.nil_append]

/-- Items can be left out before a stable sort as well as after it. -/
theorem filter_mergeSort (keep : α → Bool) (items : List α) :
    (items.mergeSort le).filter keep = (items.filter keep).mergeSort le := by
  induction items with
  | nil => simp
  | cons a rest ih =>
      by_cases kept : keep a = true
      · rw [List.filter_cons_of_pos kept, mergeSort_cons_eq trans total,
          mergeSort_cons_eq trans total, ← ih, List.filter_append, List.filter_cons_of_pos kept]
        simp only [List.filter_filter, Bool.and_comm]
      · obtain ⟨before, after, whole, others, -⟩ := List.mergeSort_cons trans total a rest
        rw [List.filter_cons_of_neg kept, ← ih, whole, others, List.filter_append,
          List.filter_append, List.filter_cons_of_neg kept]

end Stable

variable (key : α → Text) (items : List α)

theorem perm_sortOn : (sortOn key items).Perm items := List.mergeSort_perm _ _

theorem le_key_trans (a b c : α) (first : le (key a) (key b) = true)
    (second : le (key b) (key c) = true) : le (key a) (key c) = true := le_trans first second

theorem le_key_total (a b : α) : (le (key a) (key b) || le (key b) (key a)) = true := by
  rw [Bool.or_eq_true]
  exact le_total (key a) (key b)

theorem pairwise_sortOn :
    (sortOn key items).Pairwise fun a b => le (key a) (key b) = true :=
  List.pairwise_mergeSort (le_key_trans key) (le_key_total key) items

theorem filter_sortOn (keep : α → Bool) :
    (sortOn key items).filter keep = sortOn key (items.filter keep) :=
  filter_mergeSort (le_key_trans key) (le_key_total key) keep items

theorem map_sortOn {β : Type} (f : β → α) (others : List β) :
    (sortOn (fun b => key (f b)) others).map f = sortOn key (others.map f) :=
  List.map_mergeSort fun _ _ _ _ => rfl

/-- Items in order stay where they are. -/
theorem sortOn_of_pairwise {key : α → Text} {items : List α}
    (inOrder : items.Pairwise fun a b => le (key a) (key b) = true) : sortOn key items = items :=
  List.mergeSort_of_pairwise inOrder

/-- Items with distinct keys are sorted in one way. -/
theorem sortOn_of_perm {key : α → Text} {items others : List α} (perm : others.Perm items)
    (distinct : (items.map key).Nodup) : sortOn key others = sortOn key items := by
  have sorted := ((perm_sortOn key others).trans perm).trans (perm_sortOn key items).symm
  apply List.Perm.eq_of_pairwise ?_ (pairwise_sortOn key others) (pairwise_sortOn key items) sorted
  intro a b inOthers inItems first second
  have aMember : a ∈ items := perm.subset ((perm_sortOn key others).subset inOthers)
  have bMember : b ∈ items := (perm_sortOn key items).subset inItems
  exact List.inj_on_of_nodup_map distinct aMember bMember (le_antisymm first second)

theorem perm_sort (texts : List Text) : (sort texts).Perm texts := perm_sortOn id texts

theorem pairwise_sort (texts : List Text) :
    (sort texts).Pairwise fun s t => le s t = true := pairwise_sortOn id texts

theorem filter_sort (keep : Text → Bool) (texts : List Text) :
    (sort texts).filter keep = sort (texts.filter keep) := filter_sortOn id texts keep

/-- The sorted texts are the same texts in order. -/
theorem eq_sort_iff {texts sorted : List Text} :
    sorted = sort texts ↔ sorted.Perm texts ∧ sorted.Pairwise fun s t => le s t = true := by
  constructor
  · rintro rfl
    exact ⟨perm_sort texts, pairwise_sort texts⟩
  · intro ⟨perm, inOrder⟩
    exact (perm.trans (perm_sort texts).symm).eq_of_pairwise
      (fun _ _ _ _ first second => le_antisymm first second) inOrder (pairwise_sort texts)

theorem sort_of_perm {texts others : List Text} (perm : others.Perm texts) :
    sort others = sort texts :=
  eq_sort_iff.2 ⟨(perm_sort others).trans perm, pairwise_sort others⟩

end RosInterface.Text
