/-
# RosInterface.Proofs.Failure -- how a reading can fail

A reading fails with a diagnostic or it aborts.  A failure is *structured* when it is
a diagnostic about the text that was read: about its grammar, a value in it, or its
structure (`Outcome.Structured`).  The two ways to be otherwise are kept apart: an
abort (`Outcome.Aborts`), and a diagnostic about something else, which no reader
gives (`Outcome.Tame`).  What else holds of all diagnostics of a reading is said with
`Outcome.Diagnoses`.

All of it is followed through chains and lists; the lemmas about aborts are exact, so
the condition under which a chain aborts can be read off its parts.
-/
import RosInterface.Proofs.Outcome

set_option autoImplicit false

namespace RosInterface

/-- A fault of the text that was read, and not of names or files around it. -/
def Fault.OfText : Fault → Prop
  | .grammar _ | .value _ | .structural _ => True
  | .duplicate _ | .file _ => False

namespace Outcome

variable {α β : Type}

/-- Every diagnostic has the property. -/
def Diagnoses (p : Diagnostic → Prop) (x : Outcome α) : Prop :=
  ∀ d, x = .error (.diagnostic d) → p d

/-- Every diagnostic is about the text. -/
def Tame (x : Outcome α) : Prop := x.Diagnoses fun d => d.fault.OfText

/-- Every diagnostic shows a text. -/
def Shown (x : Outcome α) : Prop := x.Diagnoses fun d => d.excerpt.isSome = true

def Aborts (x : Outcome α) : Prop := ∃ a, x = .error (.abort a)

/-- Every failure is a diagnostic about the text. -/
def Structured (x : Outcome α) : Prop :=
  ∀ failure, x = .error failure → ∃ d, failure = .diagnostic d ∧ d.fault.OfText

/-- A tame outcome is structured unless it aborts. -/
theorem Tame.structured_iff {x : Outcome α} (tame : x.Tame) : x.Structured ↔ ¬ x.Aborts := by
  constructor
  · rintro structured ⟨a, aborted⟩
    obtain ⟨d, same, -⟩ := structured _ aborted
    cases same
  · intro quiet failure failed
    cases failure with
    | diagnostic d => exact ⟨d, rfl, tame d failed⟩
    | abort a => exact absurd ⟨a, failed⟩ quiet

theorem Structured.tame {x : Outcome α} (structured : x.Structured) : x.Tame := by
  intro d failed
  obtain ⟨e, same, ofText⟩ := structured _ failed
  cases same
  exact ofText

theorem Structured.not_aborts {x : Outcome α} (structured : x.Structured) : ¬ x.Aborts :=
  structured.tame.structured_iff.1 structured

/-! ## Diagnostics -/

variable {p q : Diagnostic → Prop}

theorem diagnoses_ok (a : α) : Diagnoses p (.ok a) := fun _ same => by cases same

theorem diagnoses_abort (a : Abort) : (abort a : Outcome α).Diagnoses p := fun _ same => by
  cases same

theorem tame_fault {f : Fault} (ofText : f.OfText) : (fault f : Outcome α).Tame := by
  rintro d ⟨⟩
  exact ofText

theorem tame_faultIn {f : Fault} (excerpt : Text) (ofText : f.OfText) :
    (faultIn excerpt f : Outcome α).Tame := by
  rintro d ⟨⟩
  exact ofText

theorem shown_faultIn (excerpt : Text) (f : Fault) : (faultIn excerpt f : Outcome α).Shown := by
  rintro d ⟨⟩
  rfl

theorem tame_refuse (value : Text) (type : FieldType) (detail : Option ValueDetail) :
    (refuse value type detail : Outcome α).Tame := tame_faultIn value trivial

theorem Diagnoses.bind {x : Outcome α} {f : α → Outcome β} (first : x.Diagnoses p)
    (later : ∀ a, (f a).Diagnoses p) : (x >>= f).Diagnoses p := by
  intro d failed
  rcases bind_eq_error_iff.1 failed with same | ⟨a, -, same⟩
  · exact first d same
  · exact later a d same

theorem Diagnoses.map {x : Outcome α} (f : α → β) (each : x.Diagnoses p) :
    Diagnoses p (x.map f) :=
  fun d failed => each d (map_eq_error_iff.1 failed)

theorem Diagnoses.mapDiagnostic {x : Outcome α} {f : Diagnostic → Diagnostic}
    (each : x.Diagnoses p) (carries : ∀ d, p d → q (f d)) : (x.mapDiagnostic f).Diagnoses q := by
  intro d failed
  obtain ⟨e, same, rfl⟩ := mapDiagnostic_eq_diagnostic_iff.1 failed
  exact carries e (each e same)

theorem diagnoses_mapM {f : α → Outcome β} {xs : List α} (each : ∀ a ∈ xs, (f a).Diagnoses p) :
    (xs.mapM f).Diagnoses p := by
  intro d failed
  obtain ⟨_, x, _, rfl, -, stopped⟩ := mapM_eq_error_iff.1 failed
  exact each x (by simp) d stopped

/-! ## Aborts -/

@[simp] theorem aborts_abort (a : Abort) : (abort a : Outcome α).Aborts := ⟨a, rfl⟩

@[simp] theorem not_aborts_ok (a : α) : ¬ Aborts (.ok a) := fun ⟨_, same⟩ => by
  cases same

@[simp] theorem not_aborts_fault (f : Fault) : ¬ (fault f : Outcome α).Aborts := fun ⟨_, same⟩ => by
  cases same

@[simp] theorem not_aborts_faultIn (excerpt : Text) (f : Fault) :
    ¬ (faultIn excerpt f : Outcome α).Aborts := fun ⟨_, same⟩ => by
  cases same

@[simp] theorem not_aborts_refuse (value : Text) (type : FieldType)
    (detail : Option ValueDetail) : ¬ (refuse value type detail : Outcome α).Aborts :=
  not_aborts_faultIn _ _

/-! What never aborts and complains about the text only is structured. -/

theorem structured_ok (a : α) : Structured (.ok a) :=
  (Tame.structured_iff (diagnoses_ok a)).2 (not_aborts_ok a)

theorem structured_fault {f : Fault} (ofText : f.OfText) : (fault f : Outcome α).Structured :=
  (tame_fault ofText).structured_iff.2 (not_aborts_fault f)

theorem structured_refuse (value : Text) (type : FieldType) (detail : Option ValueDetail) :
    (refuse value type detail : Outcome α).Structured :=
  (tame_refuse value type detail).structured_iff.2 (not_aborts_refuse value type detail)

/-- A chain aborts where one of its parts does. -/
theorem aborts_bind_iff {x : Outcome α} {f : α → Outcome β} :
    (x >>= f).Aborts ↔ x.Aborts ∨ ∃ a, x = .ok a ∧ (f a).Aborts := by
  simp only [Aborts, bind_eq_error_iff]
  constructor
  · rintro ⟨a, same | ⟨b, read, same⟩⟩
    · exact .inl ⟨a, same⟩
    · exact .inr ⟨b, read, a, same⟩
  · rintro (⟨a, same⟩ | ⟨b, read, a, same⟩)
    · exact ⟨a, .inl same⟩
    · exact ⟨a, .inr ⟨b, read, same⟩⟩

theorem aborts_map_iff {x : Outcome α} {f : α → β} : Aborts (x.map f) ↔ x.Aborts := by
  simp only [Aborts, map_eq_error_iff]

theorem aborts_mapDiagnostic_iff {x : Outcome α} {f : Diagnostic → Diagnostic} :
    (x.mapDiagnostic f).Aborts ↔ x.Aborts := by
  simp only [Aborts, mapDiagnostic_eq_abort_iff]

/-- A list is read up to its first item that fails, and that one aborts. -/
theorem aborts_mapM_iff {f : α → Outcome β} {xs : List α} :
    (xs.mapM f).Aborts ↔
      ∃ before x after, xs = before ++ x :: after ∧
        (∀ y ∈ before, ∃ value, f y = .ok value) ∧ (f x).Aborts := by
  simp only [Aborts, mapM_eq_error_iff]
  constructor
  · rintro ⟨a, before, x, after, whole, read, stopped⟩
    exact ⟨before, x, after, whole, read, a, stopped⟩
  · rintro ⟨before, x, after, whole, read, a, stopped⟩
    exact ⟨a, before, x, after, whole, read, stopped⟩

/-- A list is read by what its items are made of: `g` takes out the part of an item
that decides how it fares. -/
theorem aborts_mapM_through_iff {γ : Type} {f : α → Outcome β} {g : α → γ}
    {reads exceeds : γ → Prop} (read_iff : ∀ x, (∃ value, f x = .ok value) ↔ reads (g x))
    (aborts_iff : ∀ x, (f x).Aborts ↔ exceeds (g x)) {xs : List α} :
    (xs.mapM f).Aborts ↔
      ∃ before y after, xs.map g = before ++ y :: after ∧ (∀ z ∈ before, reads z) ∧ exceeds y := by
  rw [aborts_mapM_iff]
  constructor
  · rintro ⟨before, x, after, rfl, read, aborts⟩
    refine ⟨before.map g, g x, after.map g, by simp, ?_, (aborts_iff x).1 aborts⟩
    rw [List.forall_mem_map]
    exact fun y member => (read_iff y).1 (read y member)
  · rintro ⟨before, y, after, whole, read, exceeds⟩
    obtain ⟨front, back, rfl, rfl, tail⟩ := List.map_eq_append_iff.1 whole
    obtain ⟨x, rest, rfl, rfl, -⟩ := List.map_eq_cons_iff.1 tail
    refine ⟨front, x, rest, rfl, fun z member => ?_, (aborts_iff x).2 exceeds⟩
    exact (read_iff z).2 (read (g z) (List.mem_map_of_mem member))

end Outcome

end RosInterface
