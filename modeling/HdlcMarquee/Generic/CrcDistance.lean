/-
**How far apart two messages with the same check are.**

Two facts about a generator bound from below in how many bits two messages of one length with the same
check differ.

* `crcBits_parity`: if the number of terms of the generator is even, then the check keeps the parity of the
  message, so the number of bits is not odd.
* `crcBits_pair_iff`: two bits go unnoticed exactly when their distance is a multiple of the period of the
  generator, the number of moves after which a register returns.

The period is found by squaring: the registers are the residues of the polynomials, and the product of two
of them is computed from moves (`shifts_add_unit`).
-/

import HdlcMarquee.Generic.Crc
import Mathlib.Dynamics.PeriodicPts.Defs

namespace HdlcMarquee.Generic.Crc

variable {width : Nat} (generator : Generator width)

/-! ### Parity -/

/-- Whether the number of set bits is odd. -/
def oddOnes : List Bool → Bool
  | [] => false
  | bit :: rest => bit ^^ oddOnes rest

theorem oddOnes_eq (bits : List Bool) : oddOnes bits = decide (bits.count true % 2 = 1) := by
  induction bits with
  | nil => rfl
  | cons bit rest ih =>
    rw [oddOnes, ih, List.count_cons]
    cases bit
    · simp
    · by_cases odd : rest.count true % 2 = 1
      · simp [odd, show ¬ (rest.count true + 1) % 2 = 1 by omega]
      · simp [odd, show (rest.count true + 1) % 2 = 1 by omega]

/-- The bits of a register. -/
def registerBits (register : BitVec width) : List Bool := (List.range width).map register.getLsbD

theorem oddOnes_xor (first second : Nat → Bool) (places : List Nat) :
    oddOnes (places.map fun place => first place ^^ second place) =
      (oddOnes (places.map first) ^^ oddOnes (places.map second)) := by
  induction places with
  | nil => rfl
  | cons place rest ih =>
    simp only [List.map_cons, oddOnes, ih]
    cases first place <;> cases second place <;> simp

theorem oddOnes_registerBits_xor (first second : BitVec width) :
    oddOnes (registerBits (first ^^^ second)) =
      (oddOnes (registerBits first) ^^ oddOnes (registerBits second)) := by
  have bits : (first ^^^ second).getLsbD =
      fun place => first.getLsbD place ^^ second.getLsbD place := by
    funext place
    exact BitVec.getLsbD_xor
  unfold registerBits
  rw [bits, oddOnes_xor]

/-- A move down loses the lowest bit. -/
theorem oddOnes_registerBits_ushiftRight (register : BitVec width) :
    oddOnes (registerBits (register >>> 1)) =
      (oddOnes (registerBits register) ^^ register.getLsbD 0) := by
  cases width with
  | zero => simp [registerBits, oddOnes]
  | succ width =>
    have last : (register >>> 1).getLsbD width = false := by
      rw [BitVec.getLsbD_ushiftRight, BitVec.getLsbD_of_ge _ _ (by omega)]
    have down : (List.range (width + 1)).map (register >>> 1).getLsbD =
        (List.range width).map (fun place => register.getLsbD (place + 1)) ++ [false] := by
      rw [List.range_succ, List.map_append, List.map_singleton, last]
      refine congrArg (· ++ [false]) (List.map_congr_left fun place _ => ?_)
      rw [BitVec.getLsbD_ushiftRight]
      exact congrArg register.getLsbD (Nat.add_comm 1 place)
    have append : ∀ bits, oddOnes (bits ++ [false]) = oddOnes bits := by
      intro bits
      induction bits with
      | nil => rfl
      | cons bit rest ih => rw [List.cons_append, oddOnes, ih, oddOnes]
    have up : (List.range (width + 1)).map register.getLsbD =
        register.getLsbD 0 :: (List.range width).map (fun place => register.getLsbD (place + 1)) := by
      rw [List.range_succ_eq_map, List.map_cons, List.map_map]
      rfl
    unfold registerBits
    rw [down, append, up, oddOnes]
    cases register.getLsbD 0 <;> simp

/-- The number of terms of the generator is even: its constant term is left out of the polynomial. -/
def Generator.EvenTerms : Prop := oddOnes (registerBits generator.poly) = true

instance : Decidable generator.EvenTerms := inferInstanceAs (Decidable (_ = _))

/-- **The check keeps the parity.** -/
theorem crcBits_parity (even : generator.EvenTerms) (register : BitVec width) (bits : List Bool) :
    oddOnes (registerBits (generator.crcBits register bits)) =
      (oddOnes (registerBits register) ^^ oddOnes bits) := by
  induction bits generalizing register with
  | nil => simp [oddOnes]
  | cons bit rest ih =>
    have zero : oddOnes (registerBits 0#(width)) = false := by
      have same := oddOnes_registerBits_xor (0#(width)) (0#(width))
      rw [BitVec.xor_self, Bool.xor_self] at same
      exact same
    have step : oddOnes (registerBits (generator.bitStep register bit)) =
        (oddOnes (registerBits register) ^^ bit) := by
      unfold Generator.bitStep
      rw [oddOnes_registerBits_xor, oddOnes_registerBits_ushiftRight]
      have taken : oddOnes (registerBits (if register.getLsbD 0 != bit then generator.poly
          else 0#(width))) = (register.getLsbD 0 ^^ bit) := by
        cases register.getLsbD 0 <;> cases bit
        · exact zero
        · exact even
        · exact even
        · exact zero
      rw [taken]
      cases register.getLsbD 0 <;> simp
    rw [crcBits_cons, ih, step, oddOnes, Bool.xor_assoc]

/-! ### Products -/

/-- The register of the polynomial 1. -/
def unit (width : Nat) : BitVec width := BitVec.twoPow width (width - 1)

/-- The exclusive or of the values at the places where a word is set. -/
def combine (choice : BitVec width) (values : Nat → BitVec width) : Nat → BitVec width
  | 0 => 0#(width)
  | count + 1 => combine choice values count ^^^ if choice.getLsbD count then values count else 0#(width)

theorem getLsbD_combine_twoPow (choice : BitVec width) (count place : Nat) :
    (combine choice (BitVec.twoPow width) count).getLsbD place =
      (decide (place < count) && choice.getLsbD place) := by
  induction count with
  | zero => simp [combine]
  | succ count ih =>
    rw [combine, BitVec.getLsbD_xor, ih]
    by_cases here : place = count
    · subst here
      cases set : choice.getLsbD place
      · simp
      · have inside : place < width := BitVec.lt_of_getLsbD set
        simp [inside]
    · have other : (BitVec.twoPow width count).getLsbD place = false := by
        rw [BitVec.getLsbD_twoPow]
        simp [Ne.symm here]
      by_cases before : place < count
      · cases choice.getLsbD count <;> simp [before, other, show place < count + 1 by omega]
      · cases choice.getLsbD count <;> simp [before, other, show ¬ place < count + 1 by omega]

/-- A word is the exclusive or of its bits. -/
theorem combine_twoPow (choice : BitVec width) :
    combine choice (BitVec.twoPow width) width = choice := by
  apply BitVec.eq_of_getLsbD_eq
  intro place inside
  rw [getLsbD_combine_twoPow, decide_eq_true inside, Bool.true_and]

/-- Moves go through an exclusive or. -/
theorem shifts_combine (moves : Nat) (choice : BitVec width) (values : Nat → BitVec width)
    (count : Nat) : generator.shifts moves (combine choice values count) =
      combine choice (fun place => generator.shifts moves (values place)) count := by
  induction count with
  | zero => exact shifts_of_zero generator moves
  | succ count ih =>
    rw [combine, shifts_xor, ih, combine]
    cases choice.getLsbD count
    · simp [shifts_of_zero]
    · simp

/-- A single bit is the unit, moved. -/
theorem shifts_unit_twoPow {place : Nat} (inside : place < width) :
    generator.shifts (width - 1 - place) (unit width) = BitVec.twoPow width place := by
  have moved : BitVec.twoPow width place <<< (width - 1 - place) = unit width := by
    apply BitVec.eq_of_getLsbD_eq
    intro position near
    rw [BitVec.getLsbD_shiftLeft, unit, BitVec.getLsbD_twoPow, BitVec.getLsbD_twoPow]
    by_cases last : position = width - 1
    · simp [last, inside, show width - 1 < width by omega, show ¬ width - 1 < width - 1 - place by omega,
        show width - 1 - (width - 1 - place) = place by omega]
    · by_cases low : position < width - 1 - place
      · simp [low, Ne.symm last]
      · simp [low, Ne.symm last, show ¬ place = position - (width - 1 - place) by omega]
  rw [← moved]
  refine shifts_shiftLeft generator _ _ fun position high => ?_
  rw [BitVec.getLsbD_twoPow]
  simp [show ¬ place = position by omega]

/-- The product of two residues. -/
def Generator.times (first second : BitVec width) : BitVec width :=
  combine first (fun place => generator.shifts (width - 1 - place) second) width

theorem combine_congr {choice : BitVec width} {values values' : Nat → BitVec width} {count : Nat}
    (same : ∀ place < count, values place = values' place) :
    combine choice values count = combine choice values' count := by
  induction count with
  | zero => rfl
  | succ count ih =>
    rw [combine, combine, ih fun place before => same place (by omega), same count (by omega)]

/-- **The product of powers.** -/
theorem shifts_add_unit (first second : Nat) :
    generator.shifts (first + second) (unit width) =
      generator.times (generator.shifts first (unit width)) (generator.shifts second (unit width)) := by
  have spelled := combine_twoPow (generator.shifts first (unit width))
  have moved := congrArg (generator.shifts second) spelled
  rw [shifts_combine, ← shifts_add, Nat.add_comm] at moved
  rw [← moved]
  unfold Generator.times
  refine combine_congr fun place inside => ?_
  rw [← shifts_unit_twoPow generator inside, ← shifts_add, ← shifts_add, Nat.add_comm]

/-- A power from the bits of the exponent, highest first. -/
def Generator.power (bits : List Bool) : BitVec width :=
  bits.foldl (fun residue bit =>
    let square := generator.times residue residue
    if bit then generator.shift square else square) (unit width)

/-- The number that bits spell, highest first. -/
def exponent (bits : List Bool) : Nat := bits.foldl (fun number bit => 2 * number + bit.toNat) 0

/-- **Powers by squaring.** -/
theorem power_eq (bits : List Bool) :
    generator.power bits = generator.shifts (exponent bits) (unit width) := by
  induction bits using List.reverseRecOn with
  | nil => rfl
  | append_singleton before bit ih =>
    unfold Generator.power exponent at ih ⊢
    rw [List.foldl_append, List.foldl_append, ih, List.foldl_cons, List.foldl_nil, List.foldl_cons,
      List.foldl_nil]
    generalize before.foldl (fun number bit => 2 * number + bit.toNat) 0 = number
    dsimp only
    rw [← shifts_add_unit]
    cases bit
    · rw [if_neg Bool.false_ne_true, Bool.toNat_false, Nat.two_mul, Nat.add_zero]
    · rw [if_pos rfl, Bool.toNat_true, Nat.two_mul, Nat.add_comm (number + number) 1]
      exact (shifts_add generator 1 (number + number) (unit width)).symm

/-! ### Two bits -/

/-- The number of moves after which a register returns. -/
noncomputable def Generator.period : Nat := Function.minimalPeriod generator.shift (unit width)

theorem shifts_unit_iff (count : Nat) :
    generator.shifts count (unit width) = unit width ↔ generator.period ∣ count :=
  Function.isPeriodicPt_iff_minimalPeriod_dvd

/-- A single bit in the register. -/
theorem bitStep_true (register : BitVec width) :
    generator.bitStep register true =
      generator.shift register ^^^ generator.shifts width (unit width) := by
  have positive := generator.width_pos
  have one : bitWord width true = generator.shifts (width - 1) (unit width) := by
    have moved := shifts_unit_twoPow generator positive
    rw [Nat.sub_zero] at moved
    rw [moved, bitWord, if_pos rfl]
    exact BitVec.twoPow_zero.symm
  have all : generator.shifts width (unit width) =
      generator.shift (generator.shifts (width - 1) (unit width)) := by
    have split := shifts_add generator 1 (width - 1) (unit width)
    rwa [Nat.add_sub_cancel' positive] at split
  rw [bitStep_eq_shift, shift_xor, one, all]

/-- **Two bits** leave nothing in the register exactly when the period divides their distance. -/
theorem crcBits_zero_pair_iff (before between behind : Nat) :
    generator.crcBits 0#(width) (List.replicate before false ++
        true :: (List.replicate between false ++ true :: List.replicate behind false)) = 0#(width) ↔
      generator.period ∣ between + 1 := by
  have first : generator.bitStep 0#(width) true = generator.shifts width (unit width) := by
    rw [bitStep_true, shift_zero, BitVec.zero_xor]
  have later : generator.shift (generator.shifts between (generator.shifts width (unit width))) =
      generator.shifts width (generator.shifts (between + 1) (unit width)) := by
    rw [← shifts_add, ← shifts_add]
    have moved := shifts_add generator 1 (between + width) (unit width)
    rw [show width + (between + 1) = 1 + (between + width) by omega, moved]
    rfl
  rw [crcBits_append, crcBits_replicate_false, shifts_of_zero, crcBits_cons, first, crcBits_append,
    crcBits_replicate_false, crcBits_cons, bitStep_true, crcBits_replicate_false, later]
  constructor
  · intro zero
    have nothing := shifts_inj generator behind (zero.trans (shifts_of_zero generator behind).symm)
    exact (shifts_unit_iff generator _).mp
      (shifts_inj generator width (xor_eq_zero_iff.mp nothing))
  · intro divides
    rw [(shifts_unit_iff generator _).mpr divides, BitVec.xor_self, shifts_of_zero]

/-- A pattern with a set bit, up to the first one. -/
theorem split_first {pattern : List Bool} (set : true ∈ pattern) :
    ∃ before rest, pattern = List.replicate before false ++ true :: rest ∧
      rest.count true + 1 = pattern.count true := by
  obtain ⟨clear, rest, rfl, absent⟩ := List.eq_append_cons_of_mem set
  have unset : clear = List.replicate clear.length false := by
    refine List.eq_replicate_of_mem fun bit member => ?_
    cases bit
    · rfl
    · exact absurd member absent
  refine ⟨clear.length, rest, by rw [← unset], ?_⟩
  rw [List.count_append, List.count_eq_zero.mpr absent, List.count_cons_self, Nat.zero_add]

/-- A pattern with two set bits. -/
theorem split_pair {pattern : List Bool} (two : pattern.count true = 2) :
    ∃ before between behind, pattern = List.replicate before false ++
      true :: (List.replicate between false ++ true :: List.replicate behind false) := by
  obtain ⟨before, rest, rfl, fewer⟩ :=
    split_first (List.count_pos_iff.mp (by omega : 0 < pattern.count true))
  obtain ⟨between, rest, rfl, none⟩ :=
    split_first (List.count_pos_iff.mp (by omega : 0 < rest.count true))
  have clear : rest = List.replicate rest.length false := by
    refine List.eq_replicate_of_mem fun bit member => ?_
    cases bit
    · rfl
    · have some := List.count_pos_iff.mpr member
      omega
  exact ⟨before, between, rest.length, by rw [← clear]⟩

/-! ### Few bits -/

/-- Two messages have the same check exactly when their difference leaves nothing in the register. -/
theorem crcBits_eq_iff (register : BitVec width) {bits bits' : List Bool}
    (same : bits.length = bits'.length) :
    generator.crcBits register bits = generator.crcBits register bits' ↔
      generator.crcBits 0#(width) (List.zipWith (· ^^ ·) bits bits') = 0#(width) := by
  have linear := crcBits_xor generator register register bits bits' same
  rw [BitVec.xor_self] at linear
  rw [linear]
  exact xor_eq_zero_iff.symm

/-- **An odd number of bits is noticed**, in messages of any length. -/
theorem crcBits_ne_of_odd (even : generator.EvenTerms) (register : BitVec width)
    {bits bits' : List Bool} (same : bits.length = bits'.length)
    (odd : (List.zipWith (· ^^ ·) bits bits').count true % 2 = 1) :
    generator.crcBits register bits ≠ generator.crcBits register bits' := by
  intro equal
  have zero := (crcBits_eq_iff generator register same).mp equal
  have parity := crcBits_parity generator even 0#(width) (List.zipWith (· ^^ ·) bits bits')
  rw [zero, oddOnes_eq (List.zipWith _ _ _), decide_eq_true odd] at parity
  simp at parity

/-- **Two bits are noticed** unless the period divides their distance. -/
theorem crcBits_pair_iff (register : BitVec width) {bits bits' : List Bool}
    (same : bits.length = bits'.length) {before between behind : Nat}
    (pair : List.zipWith (· ^^ ·) bits bits' = List.replicate before false ++
      true :: (List.replicate between false ++ true :: List.replicate behind false)) :
    generator.crcBits register bits = generator.crcBits register bits' ↔
      generator.period ∣ between + 1 := by
  rw [crcBits_eq_iff generator register same, pair, crcBits_zero_pair_iff]

/-- **Flipped bits are noticed**: an odd number of them, and two in messages that are not longer than the
period. -/
theorem crcBits_ne_of_flips (even : generator.EvenTerms) (register : BitVec width)
    {bits bits' : List Bool} (same : bits.length = bits'.length)
    (flipped : (List.zipWith (· ^^ ·) bits bits').count true % 2 = 1 ∨
      (List.zipWith (· ^^ ·) bits bits').count true = 2 ∧ bits.length ≤ generator.period) :
    generator.crcBits register bits ≠ generator.crcBits register bits' := by
  rcases flipped with odd | ⟨two, short⟩
  · exact crcBits_ne_of_odd generator even register same odd
  · obtain ⟨before, between, behind, pair⟩ := split_pair two
    have length := congrArg List.length pair
    rw [List.length_zipWith, List.length_append, List.length_cons, List.length_append,
      List.length_cons] at length
    simp only [List.length_replicate] at length
    intro equal
    have divides := (crcBits_pair_iff generator register same pair).mp equal
    have far := Nat.le_of_dvd (Nat.succ_pos _) divides
    omega

end HdlcMarquee.Generic.Crc
