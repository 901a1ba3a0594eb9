/-
**A reflected cyclic redundancy check is a remainder.**

Bits are the coefficients of a polynomial over the integers modulo 2, the first one that is sent at the
highest power, and a register is one of degree below its width, its lowest place at the highest power. A
move of the register multiplies by `X` and divides by the generator.

* `registerPoly_crcBits`: the check of a message is the remainder of the message, moved up by the width,
  when it is divided by the generator polynomial.
* `crcBits_eq_iff_dvd`: two messages of one length have the same check exactly when the generator
  polynomial divides their difference.
-/

import HdlcMarquee.Generic.CrcDistance
import Mathlib.Algebra.Polynomial.Div
import Mathlib.Algebra.CharP.Two
import Mathlib.Algebra.Field.ZMod
import Mathlib.RingTheory.Coprime.Lemmas
import Mathlib.Tactic.LinearCombination

namespace HdlcMarquee.Generic.Crc

open Polynomial

noncomputable section

/-! ### Bits as coefficients -/

/-- A bit as a coefficient. -/
def coefficient (bit : Bool) : (ZMod 2)[X] := if bit then 1 else 0

@[simp] theorem coefficient_xor (first second : Bool) :
    coefficient (first ^^ second) = coefficient first + coefficient second := by
  cases first <;> cases second <;> simp [coefficient, CharTwo.add_self_eq_zero]

/-- Bits as a polynomial, the first one at the highest power. -/
def bitsPoly : List Bool → (ZMod 2)[X]
  | [] => 0
  | bit :: rest => coefficient bit * X ^ rest.length + bitsPoly rest

theorem bitsPoly_snoc (bits : List Bool) (bit : Bool) :
    bitsPoly (bits ++ [bit]) = X * bitsPoly bits + coefficient bit := by
  induction bits with
  | nil => simp [bitsPoly]
  | cons first rest ih =>
    rw [List.cons_append, bitsPoly, ih, bitsPoly, List.length_append, List.length_singleton]
    ring

theorem bitsPoly_zipWith_xor {bits bits' : List Bool} (same : bits.length = bits'.length) :
    bitsPoly (List.zipWith (· ^^ ·) bits bits') = bitsPoly bits + bitsPoly bits' := by
  induction bits generalizing bits' with
  | nil =>
    cases bits' with
    | nil => simp [bitsPoly]
    | cons _ _ => cases same
  | cons bit rest ih =>
    cases bits' with
    | nil => cases same
    | cons bit' rest' =>
      have lengths : rest.length = rest'.length := Nat.succ.inj same
      rw [List.zipWith_cons_cons, bitsPoly, ih lengths, bitsPoly, bitsPoly, coefficient_xor,
        List.length_zipWith, ← lengths, Nat.min_self]
      ring

theorem degree_bitsPoly_lt (bits : List Bool) : (bitsPoly bits).degree < bits.length := by
  induction bits with
  | nil => exact WithBot.bot_lt_coe 0
  | cons bit rest ih =>
    have grows : (rest.length : WithBot Nat) < (bit :: rest).length := by
      rw [List.length_cons]
      exact WithBot.coe_lt_coe.mpr (Nat.lt_succ_self _)
    have top : (coefficient bit * X ^ rest.length).degree ≤ (rest.length : WithBot Nat) := by
      cases bit
      · simp [coefficient]
      · simp [coefficient]
    exact (degree_add_le _ _).trans_lt (max_lt (top.trans_lt grows) (ih.trans grows))

/-- A polynomial is no bits but its own. -/
theorem bitsPoly_eq_zero_iff (bits : List Bool) : bitsPoly bits = 0 ↔ true ∉ bits := by
  induction bits with
  | nil => simp [bitsPoly]
  | cons bit rest ih =>
    cases bit with
    | false => simpa [bitsPoly, coefficient] using ih
    | true =>
      refine iff_of_false (fun zero => ?_) (fun absent => absent List.mem_cons_self)
      have top := degree_bitsPoly_lt rest
      have same : bitsPoly rest = X ^ rest.length := by
        rw [bitsPoly, coefficient, if_pos rfl, one_mul, add_comm] at zero
        exact CharTwo.add_eq_zero.mp zero
      rw [same, degree_X_pow] at top
      exact lt_irrefl _ top

variable {width : Nat}

/-- A register as a polynomial. -/
def registerPoly (register : BitVec width) : (ZMod 2)[X] := bitsPoly (registerBits register)

theorem registerPoly_xor (first second : BitVec width) :
    registerPoly (first ^^^ second) = registerPoly first + registerPoly second := by
  have bits : registerBits (first ^^^ second) =
      List.zipWith (· ^^ ·) (registerBits first) (registerBits second) := by
    unfold registerBits
    rw [List.zipWith_map, List.zipWith_self]
    exact List.map_congr_left fun place _ => BitVec.getLsbD_xor
  unfold registerPoly
  rw [bits, bitsPoly_zipWith_xor (by simp [registerBits])]

theorem degree_registerPoly_lt (register : BitVec width) : (registerPoly register).degree < width := by
  have top := degree_bitsPoly_lt (registerBits register)
  have length : (registerBits register).length = width := by simp [registerBits]
  rwa [length] at top

theorem registerPoly_eq_zero_iff (register : BitVec width) :
    registerPoly register = 0 ↔ register = 0#(width) := by
  unfold registerPoly registerBits
  rw [bitsPoly_eq_zero_iff, List.mem_map, not_exists]
  constructor
  · intro clear
    refine BitVec.eq_of_getLsbD_eq fun place inside => ?_
    have unset := clear place
    rw [not_and, Bool.not_eq_true] at unset
    rw [unset (List.mem_range.mpr inside), BitVec.getLsbD_zero]
  · rintro rfl place ⟨_, set⟩
    rw [BitVec.getLsbD_zero] at set
    cases set

/-- Moving down is multiplying by `X` without the highest power. -/
theorem registerPoly_ushiftRight (positive : 0 < width) (register : BitVec width) :
    registerPoly (register >>> 1) + coefficient (register.getLsbD 0) * X ^ width =
      X * registerPoly register := by
  obtain ⟨width, rfl⟩ : ∃ less, width = less + 1 := ⟨width - 1, (Nat.sub_add_cancel positive).symm⟩
  have bits : registerBits register =
      register.getLsbD 0 :: (List.range width).map fun place => register.getLsbD (place + 1) := by
    unfold registerBits
    rw [List.range_succ_eq_map, List.map_cons, List.map_map]
    rfl
  have moved : registerBits (register >>> 1) =
      ((List.range width).map fun place => register.getLsbD (place + 1)) ++ [false] := by
    unfold registerBits
    rw [List.range_succ, List.map_append, List.map_singleton, BitVec.getLsbD_ushiftRight,
      BitVec.getLsbD_of_ge _ _ (by omega)]
    refine congrArg (· ++ [false]) (List.map_congr_left fun place _ => ?_)
    rw [BitVec.getLsbD_ushiftRight, Nat.add_comm 1 place]
  unfold registerPoly
  rw [moved, bitsPoly_snoc, bits, bitsPoly, List.length_map, List.length_range, coefficient,
    if_neg Bool.false_ne_true]
  ring

/-! ### Division -/

variable (generator : Generator width)

/-- The generator polynomial, with its highest and its constant term. -/
def Generator.polynomial : (ZMod 2)[X] := X ^ width + registerPoly generator.poly

theorem polynomial_monic : generator.polynomial.Monic :=
  monic_X_pow_add (degree_registerPoly_lt generator.poly)

theorem degree_polynomial : generator.polynomial.degree = width := by
  unfold Generator.polynomial
  rw [degree_add_eq_left_of_degree_lt]
  · exact degree_X_pow width
  · rw [degree_X_pow]
    exact degree_registerPoly_lt generator.poly

/-- One message bit. -/
theorem registerPoly_bitStep (register : BitVec width) (bit : Bool) :
    registerPoly (generator.bitStep register bit) =
      X * registerPoly register + coefficient bit * X ^ width +
        coefficient (register.getLsbD 0 ^^ bit) * generator.polynomial := by
  have moved := registerPoly_ushiftRight generator.width_pos register
  have taken : registerPoly (if (register.getLsbD 0 ^^ bit) = true then generator.poly else 0#(width)) =
      coefficient (register.getLsbD 0 ^^ bit) * registerPoly generator.poly := by
    cases register.getLsbD 0 ^^ bit
    · simp [coefficient, registerPoly_eq_zero_iff]
    · simp [coefficient]
  have step : registerPoly (generator.bitStep register bit) =
      registerPoly (register >>> 1) +
        coefficient (register.getLsbD 0 ^^ bit) * registerPoly generator.poly := by
    rw [← taken, ← registerPoly_xor]
    rfl
  have twice (value : (ZMod 2)[X]) : value + value = 0 := CharTwo.add_self_eq_zero value
  rw [step, ← moved, coefficient_xor, Generator.polynomial]
  linear_combination - twice (coefficient (register.getLsbD 0) * X ^ width) -
    twice (coefficient bit * X ^ width)

/-- **The check of a message** is the same as the message, moved up by the width, modulo the generator. -/
theorem dvd_registerPoly_crcBits (register : BitVec width) (bits : List Bool) :
    generator.polynomial ∣ registerPoly (generator.crcBits register bits) -
      (X ^ bits.length * registerPoly register + X ^ width * bitsPoly bits) := by
  induction bits generalizing register with
  | nil => simp [bitsPoly]
  | cons bit rest ih =>
    obtain ⟨quotient, divided⟩ := ih (generator.bitStep register bit)
    rw [registerPoly_bitStep] at divided
    refine ⟨quotient + X ^ rest.length * coefficient (register.getLsbD 0 ^^ bit), ?_⟩
    rw [crcBits_cons, bitsPoly, List.length_cons]
    linear_combination divided

/-- **The check of a message is a remainder.** -/
theorem registerPoly_crcBits (register : BitVec width) (bits : List Bool) :
    registerPoly (generator.crcBits register bits) =
      (X ^ bits.length * registerPoly register + X ^ width * bitsPoly bits) %ₘ generator.polynomial := by
  have low : (registerPoly (generator.crcBits register bits)).degree < generator.polynomial.degree := by
    rw [degree_polynomial]
    exact degree_registerPoly_lt _
  rw [← (modByMonic_eq_self_iff (polynomial_monic generator)).mpr low]
  exact modByMonic_eq_of_dvd_sub (polynomial_monic generator)
    (dvd_registerPoly_crcBits generator register bits)

/-- The generator polynomial has a constant term. -/
theorem polynomial_isCoprime_X : IsCoprime generator.polynomial X := by
  obtain ⟨width, rfl⟩ : ∃ less, width = less + 1 :=
    ⟨width - 1, (Nat.sub_add_cancel generator.width_pos).symm⟩
  have last : registerBits generator.poly = (List.range width).map generator.poly.getLsbD ++ [true] := by
    have top := generator.top
    rw [BitVec.msb_eq_getLsbD_last] at top
    unfold registerBits
    rw [List.range_succ, List.map_append, List.map_singleton]
    exact congrArg (_ ++ [·]) top
  refine ⟨1, - (X ^ width + bitsPoly ((List.range width).map generator.poly.getLsbD)), ?_⟩
  unfold Generator.polynomial registerPoly
  rw [last, bitsPoly_snoc, coefficient, if_pos rfl]
  ring

/-- **Two messages have the same check** exactly when the generator polynomial divides their difference. -/
theorem crcBits_eq_iff_dvd (register : BitVec width) {bits bits' : List Bool}
    (same : bits.length = bits'.length) :
    generator.crcBits register bits = generator.crcBits register bits' ↔
      generator.polynomial ∣ bitsPoly (List.zipWith (· ^^ ·) bits bits') := by
  have zero : registerPoly 0#(width) = 0 := (registerPoly_eq_zero_iff _).mpr rfl
  rw [crcBits_eq_iff generator register same, ← registerPoly_eq_zero_iff, registerPoly_crcBits, zero,
    mul_zero, zero_add, modByMonic_eq_zero_iff_dvd (polynomial_monic generator)]
  exact ⟨(polynomial_isCoprime_X generator).pow_right.dvd_of_dvd_mul_left,
    fun divides => divides.mul_left _⟩

end

end HdlcMarquee.Generic.Crc
