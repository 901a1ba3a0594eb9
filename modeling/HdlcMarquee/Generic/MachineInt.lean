/-
**Signed machine integers of any width.**

A machine integer of `width` bits holds the values of `FitsWidth width`. A result outside is reduced
modulo `2 ^ width` into the range (`wrapped`), so it is exact if and only if it is in the range
(`wrapped_eq_iff`), and reducing can wait until the end of a computation (`wrapped_add`).
-/

import Mathlib.Algebra.Ring.Int.Defs
import Mathlib.Algebra.Ring.Nat

namespace HdlcMarquee.Generic

/-- The range of a signed integer of `width` bits. -/
def FitsWidth (width : Nat) (value : Int) : Prop :=
  -2 ^ (width - 1) ≤ value ∧ value < 2 ^ (width - 1)

instance (width : Nat) (value : Int) : Decidable (FitsWidth width value) :=
  inferInstanceAs (Decidable (_ ∧ _))

/-- A result brought into the range. -/
def wrapped (width : Nat) (value : Int) : Int := value.bmod (2 ^ width)

theorem fitsWidth_wrapped (width : Nat) (value : Int) :
    FitsWidth (width + 1) (wrapped (width + 1) value) := by
  have double : (2 : Nat) ^ (width + 1) = 2 * 2 ^ width := Nat.pow_succ'
  have positive : 0 < (2 : Nat) ^ width := Nat.two_pow_pos width
  have low := @Int.le_bmod value (2 ^ (width + 1)) (by omega)
  have high := @Int.bmod_lt value (2 ^ (width + 1)) (by omega)
  have cast : (2 : Int) ^ width = ((2 ^ width : Nat) : Int) := by push_cast; rfl
  unfold FitsWidth wrapped
  rw [Nat.add_sub_cancel, cast]
  rw [double] at low high ⊢
  omega

theorem wrapped_of_fits {width : Nat} {value : Int} (fits : FitsWidth (width + 1) value) :
    wrapped (width + 1) value = value := by
  have double : (2 : Nat) ^ (width + 1) = 2 * 2 ^ width := Nat.pow_succ'
  have cast : (2 : Int) ^ width = ((2 ^ width : Nat) : Int) := by push_cast; rfl
  unfold FitsWidth at fits
  unfold wrapped
  rw [Nat.add_sub_cancel, cast] at fits
  rw [double, Int.bmod_def]
  generalize 2 ^ width = half at fits
  have reduced : value % ((2 * half : Nat) : Int) = if 0 ≤ value then value else value + 2 * half := by
    split
    · exact Int.emod_eq_of_lt ‹_› (by omega)
    · rw [← Int.add_emod_right]
      push_cast
      exact Int.emod_eq_of_lt (by omega) (by omega)
  rw [reduced]
  split <;> split <;> omega

/-- **A result is kept if and only if it is in the range.** -/
theorem wrapped_eq_iff {width : Nat} {value : Int} :
    wrapped (width + 1) value = value ↔ FitsWidth (width + 1) value :=
  ⟨fun kept => kept ▸ fitsWidth_wrapped width value, wrapped_of_fits⟩

/-- Reducing can wait until the end of a computation. -/
theorem wrapped_add (width : Nat) (first second : Int) :
    wrapped width (wrapped width first + second) = wrapped width (first + second) :=
  Int.bmod_add_bmod

end HdlcMarquee.Generic
