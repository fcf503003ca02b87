/-
# RosInterface.Proofs.Text.LetterCase -- what lower case leaves alone

The code points before the letters, slash, dot and digits among them, are no lower case of
anything but themselves, and neither is what ends a line.  So the snake case of a name holds no
such mark that the name does not hold (`Text.mem_of_mem_snakeCase`): what stands for itself in a
path still does, and a name on one line stays there.
-/
import RosInterface.Output.Identifier
import RosInterface.Text.Line

set_option autoImplicit false

namespace RosInterface

namespace CodePoint

variable {c : CodePoint}

/-- The code point comes before every letter, or it ends a line. -/
def Unlettered (c : CodePoint) : Prop := c.val < 0x41 ∨ c.isLineBoundary = true

instance : DecidablePred Unlettered := fun c =>
  inferInstanceAs (Decidable (c.val < 0x41 ∨ c.isLineBoundary = true))

/-- What ends a line and does not come before the letters. -/
def highBoundaries : List Nat := [0x85, 0x2028, 0x2029]

theorem Unlettered.cases (unlettered : c.Unlettered) : c.val < 0x41 ∨ c.val ∈ highBoundaries := by
  rcases unlettered with low | boundary
  · exact .inl low
  · simp only [isLineBoundary, inRanges, List.any_cons, List.any_nil, Bool.or_false,
      Bool.or_eq_true, Bool.and_eq_true, decide_eq_true_eq] at boundary
    simp only [highBoundaries, List.mem_cons, List.not_mem_nil, or_false]
    omega

theorem val_ofNat?_getD (n : Nat) (c : CodePoint) :
    ((ofNat? n).getD c).val = n ∨ (ofNat? n).getD c = c := by
  rw [ofNat?]
  split
  case isTrue => exact .inl rfl
  case isFalse => exact .inr rfl

/-- Every row of the mapping goes to letters. -/
theorem image_of_mem_lowerRows : ∀ row ∈ lowerRows, 0x41 ≤ row.2.2.2 ∧
    ∀ n ∈ highBoundaries, n < row.2.2.2 ∨ row.2.2.2 + (row.2.1 - row.1) < n := by decide +kernel

/-- Nothing else becomes such a code point. -/
theorem lower_eq_self (unlettered : c.lower.Unlettered) : c.lower = c := by
  have moved {n : Nat} (high : 0x41 ≤ n) (other : n ∉ highBoundaries)
      (there : ((ofNat? n).getD c).val < 0x41 ∨ ((ofNat? n).getD c).val ∈ highBoundaries) :
      (ofNat? n).getD c = c := by
    refine (val_ofNat?_getD n c).resolve_left fun same => ?_
    rw [same] at there
    exact there.elim (fun low => by omega) other
  have there := unlettered.cases
  unfold lower at there
  unfold lower
  split at there
  case isTrue ascii =>
    rw [if_pos ascii]
    split at there
    case isTrue upper =>
      simp only [isUpper, Bool.and_eq_true, decide_eq_true_eq] at upper
      rw [if_pos (by simp [isUpper, upper])]
      refine moved (by omega) ?_ there
      simp only [highBoundaries, List.mem_cons, List.not_mem_nil, or_false]
      omega
    case isFalse other => rw [if_neg other]
  case isFalse notAscii =>
    rw [if_neg notAscii]
    split at there
    case h_1 first last _ image found =>
      obtain ⟨high, apart⟩ := image_of_mem_lowerRows _ (List.mem_of_find?_eq_some found)
      have inRow := List.find?_some found
      simp only [Bool.and_eq_true, decide_eq_true_eq] at inRow
      refine moved (Nat.le_add_right_of_le high) (fun member => ?_) there
      have outside := apart _ member
      simp only at outside
      omega
    case h_2 => rfl

end CodePoint

namespace Text

variable {mark : CodePoint} {s name : Text}

theorem mem_of_mem_lowerAfter (unlettered : mark.Unlettered) {before : Text}
    (member : mark ∈ lowerAfter before s) : mark ∈ s := by
  have special : ∀ other ∈ (['ς', 'σ', 'i', '\u0307'] : Text), other ≠ mark := by
    rintro other among rfl
    exact (show ∀ c ∈ (['ς', 'σ', 'i', '\u0307'] : Text), ¬ c.Unlettered by decide) other among
      unlettered
  induction s generalizing before with
  | nil => exact member
  | cons c rest ih =>
      rw [lowerAfter] at member
      rcases List.mem_append.1 member with here | later
      · split at here
        case isTrue =>
          rw [List.mem_singleton] at here
          split at here
          case isTrue => exact absurd here.symm (special _ (by decide))
          case isFalse => exact absurd here.symm (special _ (by decide))
        case isFalse =>
          split at here
          case isTrue =>
            exact absurd rfl (special mark (List.mem_of_mem_drop (i := 2) here))
          case isFalse =>
            rw [List.mem_singleton] at here
            rw [here] at unlettered
            rw [here, CodePoint.lower_eq_self unlettered]
            exact List.mem_cons_self
      · exact List.mem_cons_of_mem _ (ih later)

/-- Underscores are all that is put in. -/
theorem mem_separateWords {c : CodePoint} (member : c ∈ name.separateWords) :
    c = CodePoint.ofChar '_' ∨ c ∈ name := by
  induction name with
  | nil => exact .inr member
  | cons d rest ih =>
      have behind (later : c ∈ separateWords rest) : c = CodePoint.ofChar '_' ∨ c ∈ d :: rest :=
        (ih later).imp id (List.mem_cons_of_mem d)
      rw [separateWords] at member
      split at member
      case isTrue =>
        rcases List.mem_cons.1 member with rfl | member
        · exact .inr List.mem_cons_self
        · exact (List.mem_cons.1 member).elim .inl behind
      case isFalse =>
        rcases List.mem_cons.1 member with rfl | member
        · exact .inr List.mem_cons_self
        · exact behind member

theorem mem_of_mem_separateWords (unlettered : mark.Unlettered)
    (member : mark ∈ name.separateWords) : mark ∈ name := by
  refine (mem_separateWords member).resolve_left ?_
  rintro rfl
  exact absurd unlettered (by decide)

/-- **Snake case brings no mark before the letters and no end of a line.** -/
theorem mem_of_mem_snakeCase (unlettered : mark.Unlettered) (member : mark ∈ name.snakeCase) :
    mark ∈ name :=
  mem_of_mem_separateWords unlettered (mem_of_mem_lowerAfter unlettered member)

end Text

end RosInterface
