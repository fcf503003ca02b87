/-
# RosInterface.Proofs.Outcome -- taking outcomes apart

An outcome is a value or a failure, and a reader is a chain of them.  These are
the inversions of a chain: what its parts were when the whole is a value, and
which part ended it when it is a failure.  `mapM_eq_ok_iff` and
`mapM_eq_error_iff` do the same for a list, which is read in order and ends at its
first failure.  What a chain was made of does not depend on what a failure is, so these
inversions hold with every type of failure.
-/
import RosInterface.Diagnostic
import Mathlib.Data.List.Perm.Basic

set_option autoImplicit false

namespace RosInterface.Outcome

variable {α β ε : Type}

theorem bind_eq_ok_iff {x : Except ε α} {f : α → Except ε β} {b : β} :
    (x >>= f) = .ok b ↔ ∃ a, x = .ok a ∧ f a = .ok b := by
  cases x with
  | ok a =>
      constructor
      · intro read
        exact ⟨a, rfl, read⟩
      · rintro ⟨_, same, read⟩
        cases same
        exact read
  | error failure =>
      constructor
      · intro read
        cases read
      · rintro ⟨_, same, -⟩
        cases same

theorem bind_eq_error_iff {x : Except ε α} {f : α → Except ε β} {failure : ε} :
    (x >>= f) = .error failure ↔
      x = .error failure ∨ ∃ a, x = .ok a ∧ f a = .error failure := by
  cases x with
  | ok a =>
      constructor
      · intro failed
        exact .inr ⟨a, rfl, failed⟩
      · rintro (same | ⟨_, same, failed⟩)
        · cases same
        · cases same
          exact failed
  | error first =>
      constructor
      · intro failed
        cases failed
        exact .inl rfl
      · rintro (same | ⟨_, same, -⟩)
        · cases same
          rfl
        · cases same

theorem exists_error_iff {x : Except ε α} : (∃ failure, x = .error failure) ↔ ¬ ∃ a, x = .ok a := by
  cases x <;> simp

@[simp] theorem ok_bind (a : α) (f : α → Except ε β) :
    (Except.ok a >>= f : Except ε β) = f a := rfl

theorem map_eq_ok_iff {x : Outcome α} {f : α → β} {b : β} :
    x.map f = .ok b ↔ ∃ a, x = .ok a ∧ f a = b := by
  cases x <;> simp [Except.map]

theorem map_eq_error_iff {x : Outcome α} {f : α → β} {failure : Failure} :
    x.map f = .error failure ↔ x = .error failure := by
  cases x <;> simp [Except.map]

theorem mapDiagnostic_eq_ok_iff {x : Outcome α} {f : Diagnostic → Diagnostic} {a : α} :
    x.mapDiagnostic f = .ok a ↔ x = .ok a := by
  match x with
  | .ok _ => rfl
  | .error (.diagnostic _) => simp [mapDiagnostic]
  | .error (.abort _) => simp [mapDiagnostic]

theorem mapDiagnostic_eq_abort_iff {x : Outcome α} {f : Diagnostic → Diagnostic} {a : Abort} :
    x.mapDiagnostic f = .error (.abort a) ↔ x = .error (.abort a) := by
  match x with
  | .ok _ => simp [mapDiagnostic]
  | .error (.diagnostic _) => simp [mapDiagnostic]
  | .error (.abort _) => rfl

theorem mapDiagnostic_eq_diagnostic_iff {x : Outcome α} {f : Diagnostic → Diagnostic}
    {d : Diagnostic} :
    x.mapDiagnostic f = .error (.diagnostic d) ↔ ∃ e, x = .error (.diagnostic e) ∧ f e = d := by
  match x with
  | .ok _ => simp [mapDiagnostic]
  | .error (.diagnostic _) => simp [mapDiagnostic]
  | .error (.abort _) => simp [mapDiagnostic]

/-- A list is read to its end exactly when each of its items is read. -/
theorem mapM_eq_ok_iff {f : α → Except ε β} {xs : List α} {ys : List β} :
    xs.mapM f = .ok ys ↔ List.Forall₂ (fun x y => f x = .ok y) xs ys := by
  induction xs generalizing ys with
  | nil =>
      rw [List.mapM_nil, List.forall₂_nil_left_iff]
      exact ⟨fun read => by cases read; rfl, fun read => by rw [read]; rfl⟩
  | cons x xs ih =>
      rw [List.mapM_cons, bind_eq_ok_iff, List.forall₂_cons_left_iff]
      constructor
      · rintro ⟨y, first, read⟩
        obtain ⟨rest, others, whole⟩ := bind_eq_ok_iff.1 read
        cases whole
        exact ⟨y, rest, first, ih.1 others, rfl⟩
      · rintro ⟨y, rest, first, others, rfl⟩
        exact ⟨y, first, bind_eq_ok_iff.2 ⟨rest, ih.2 others, rfl⟩⟩

/-- Where the value of each item is known and only its success is not, so it is with a
list. -/
theorem mapM_eq_ok_map_iff {f : α → Except ε β} {p : α → Prop} {g : α → β}
    (each : ∀ x y, f x = .ok y ↔ p x ∧ y = g x) {xs : List α} {ys : List β} :
    xs.mapM f = .ok ys ↔ (∀ x ∈ xs, p x) ∧ ys = xs.map g := by
  have values : List.Forall₂ (fun x y => y = g x) xs ys ↔ ys = xs.map g := by
    rw [eq_comm, ← List.forall₂_eq_eq_eq, List.forall₂_map_left_iff]
    simp only [eq_comm]
  simp only [mapM_eq_ok_iff, each, List.forall₂_and_left, values]

/-- What holds of every single result holds of all results. -/
theorem forall_mem_of_forall₂ {r : α → β → Prop} {p : β → Prop} {xs : List α} {ys : List β}
    (each : List.Forall₂ r xs ys) (holds : ∀ x y, r x y → p y) : ∀ y ∈ ys, p y := by
  induction each with
  | nil => exact fun y member => by cases member
  | cons first _ ih =>
      intro y member
      rcases List.mem_cons.1 member with rfl | inRest
      · exact holds _ _ first
      · exact ih y inRest

/-- What is found for each pair is found for two lists. -/
theorem exists_forall₂ {γ : Type} {r : α → β → Prop} {s : α → γ → Prop} {t : β → γ → Prop}
    {xs : List α} {ys : List β} (each : List.Forall₂ r xs ys)
    (found : ∀ x ∈ xs, ∀ y, r x y → ∃ z, s x z ∧ t y z) :
    ∃ zs, List.Forall₂ s xs zs ∧ List.Forall₂ t ys zs := by
  induction each with
  | nil => exact ⟨[], .nil, .nil⟩
  | cons first _ ih =>
      obtain ⟨z, left, right⟩ := found _ List.mem_cons_self _ first
      obtain ⟨zs, lefts, rights⟩ := ih fun x member => found x (List.mem_cons_of_mem _ member)
      exact ⟨z :: zs, .cons left lefts, .cons right rights⟩

/-- What agrees on every pair agrees on the lists. -/
theorem map_eq_of_forall₂ {γ : Type} {r : α → β → Prop} {f : α → γ} {g : β → γ} {xs : List α}
    {ys : List β} (each : List.Forall₂ r xs ys) (same : ∀ x y, r x y → f x = g y) :
    xs.map f = ys.map g := by
  rw [← List.forall₂_eq_eq_eq, List.forall₂_map_left_iff, List.forall₂_map_right_iff]
  exact each.imp same

/-- Every item of a list has what it is related to in the other list. -/
theorem exists_of_forall₂ {r : α → β → Prop} {xs : List α} {ys : List β}
    (each : List.Forall₂ r xs ys) {x : α} (member : x ∈ xs) : ∃ y ∈ ys, r x y := by
  induction each with
  | nil => cases member
  | cons first _ ih =>
      rcases List.mem_cons.1 member with rfl | inRest
      · exact ⟨_, List.mem_cons_self, first⟩
      · obtain ⟨y, among, related⟩ := ih inRest
        exact ⟨y, List.mem_cons_of_mem _ among, related⟩

/-- Every item of a list that is read to its end has its result among the others. -/
theorem exists_of_mapM {f : α → Except ε β} {xs : List α} {ys : List β}
    (read : xs.mapM f = .ok ys) {x : α} (member : x ∈ xs) : ∃ y ∈ ys, f x = .ok y :=
  exists_of_forall₂ (mapM_eq_ok_iff.1 read) member

/-- A list can be read to its end exactly when each of its items can be read. -/
theorem exists_mapM_iff {f : α → Except ε β} {xs : List α} :
    (∃ ys, xs.mapM f = .ok ys) ↔ ∀ x ∈ xs, ∃ y, f x = .ok y := by
  constructor
  · intro ⟨ys, read⟩ x member
    obtain ⟨y, -, result⟩ := exists_of_mapM read member
    exact ⟨y, result⟩
  · intro each
    induction xs with
    | nil => exact ⟨[], rfl⟩
    | cons x xs ih =>
        obtain ⟨y, first⟩ := each x List.mem_cons_self
        obtain ⟨ys, others⟩ := ih fun z member => each z (List.mem_cons_of_mem _ member)
        rw [mapM_eq_ok_iff] at others
        exact ⟨y :: ys, mapM_eq_ok_iff.2 (.cons first others)⟩

/-- Where each item has a result related to the one that it has otherwise, so has a list. -/
theorem exists_mapM_of_rel {γ : Type} {f : α → Except ε β} {g : α → Except ε γ}
    {r : β → γ → Prop} {xs : List α} {ys : List β} (read : xs.mapM f = .ok ys)
    (each : ∀ x ∈ xs, ∀ y, f x = .ok y → ∃ z, g x = .ok z ∧ r y z) :
    ∃ zs, xs.mapM g = .ok zs ∧ List.Forall₂ r ys zs := by
  simp only [mapM_eq_ok_iff] at read ⊢
  induction read with
  | nil => exact ⟨[], .nil, .nil⟩
  | @cons x y xs ys first _ ih =>
      obtain ⟨z, result, related⟩ := each x List.mem_cons_self y first
      obtain ⟨zs, results, others⟩ := ih fun w member => each w (List.mem_cons_of_mem _ member)
      exact ⟨z :: zs, .cons result results, .cons related others⟩

/-- Items in another order have the same results, in that order. -/
theorem exists_mapM_of_perm {f : α → Except ε β} {xs others : List α} {ys : List β}
    (read : xs.mapM f = .ok ys) (perm : others.Perm xs) :
    ∃ results, others.mapM f = .ok results ∧ results.Perm ys := by
  rw [mapM_eq_ok_iff] at read
  obtain ⟨results, each, reordered⟩ := List.perm_comp_forall₂ perm read
  exact ⟨results, mapM_eq_ok_iff.2 each, reordered⟩

/-- The results of a list that is read to its end are those of its items. -/
theorem mem_iff_of_mapM {f : α → Except ε β} {xs : List α} {ys : List β}
    (read : xs.mapM f = .ok ys) {y : β} : y ∈ ys ↔ ∃ x ∈ xs, f x = .ok y := by
  constructor
  · intro among
    rw [mapM_eq_ok_iff] at read
    induction read with
    | nil => cases among
    | cons first _ ih =>
        rcases List.mem_cons.1 among with rfl | inRest
        · exact ⟨_, List.mem_cons_self, first⟩
        · obtain ⟨x, member, result⟩ := ih inRest
          exact ⟨x, List.mem_cons_of_mem _ member, result⟩
  · rintro ⟨x, member, result⟩
    obtain ⟨_, among, same⟩ := exists_of_mapM read member
    rw [result] at same
    cases same
    exact among

/-- A list that is not read to its end stops at its first item that fails. -/
theorem mapM_eq_error_iff {f : α → Except ε β} {xs : List α} {failure : ε} :
    xs.mapM f = .error failure ↔
      ∃ before x after, xs = before ++ x :: after ∧
        (∀ y ∈ before, ∃ value, f y = .ok value) ∧ f x = .error failure := by
  induction xs with
  | nil =>
      rw [List.mapM_nil]
      constructor
      · intro failed
        cases failed
      · rintro ⟨before, x, after, whole, -, -⟩
        simp at whole
  | cons x xs ih =>
      rw [List.mapM_cons, bind_eq_error_iff]
      constructor
      · rintro (failed | ⟨y, first, failed⟩)
        · exact ⟨[], x, xs, rfl, by simp, failed⟩
        · rcases bind_eq_error_iff.1 failed with others | ⟨_, _, whole⟩
          · obtain ⟨before, z, after, rfl, read, stopped⟩ := ih.1 others
            refine ⟨x :: before, z, after, rfl, ?_, stopped⟩
            intro item member
            rcases List.mem_cons.1 member with rfl | inRest
            · exact ⟨y, first⟩
            · exact read item inRest
          · cases whole
      · rintro ⟨before, z, after, whole, read, stopped⟩
        cases before with
        | nil =>
            obtain ⟨rfl, rfl⟩ := List.cons.inj whole
            exact .inl stopped
        | cons first before =>
            obtain ⟨rfl, rfl⟩ := List.cons.inj whole
            obtain ⟨y, ok⟩ := read x (by simp)
            have others := ih.2 ⟨before, z, after, rfl, fun item inBefore =>
              read item (List.mem_cons_of_mem _ inBefore), stopped⟩
            exact .inr ⟨y, ok, bind_eq_error_iff.2 (.inl others)⟩

end RosInterface.Outcome
