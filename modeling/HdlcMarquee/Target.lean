/-
**The integers of the ATmega328P.**

An `int` has 16 bits, and so has a `size_t`; a `uint32_t` counts milliseconds and received bytes. A
conversion to an unsigned type is reduced modulo its range, and so is, on this target, one to `int`.
-/

import HdlcMarquee.Generic.MachineInt

namespace HdlcMarquee

open Generic

/-- `int`. -/
abbrev FitsInt (value : Int) : Prop := FitsWidth 16 value

/-- A value brought into an `int`. -/
def toInt (value : Int) : Int := wrapped 16 value

/-- A value converted to `size_t`. -/
def toSizeT (value : Int) : Nat := (value % 65536).toNat

theorem fitsInt_iff {value : Int} : FitsInt value ↔ -32768 ≤ value ∧ value ≤ 32767 := by
  have range : FitsInt value ↔ -32768 ≤ value ∧ value < 32768 := Iff.rfl
  rw [range]
  omega

theorem toInt_eq_iff {value : Int} : toInt value = value ↔ FitsInt value := wrapped_eq_iff

theorem toInt_of_fits {value : Int} (fits : FitsInt value) : toInt value = value :=
  wrapped_of_fits fits

end HdlcMarquee
