/-
**Flipped bits on the line.**

The generator of the frame check has an even number of terms and the period 32767 (`ccitt_period`). So a
frame with an odd number of flipped bits is never accepted, and neither is one with two, if it has no more
than 4095 octets (`flips_detected`); two flipped bits that are 32767 places apart are not noticed
(`foldl_calcFcs_pair_iff`).
-/

import HdlcMarquee.Hdlc.Burst
import HdlcMarquee.Generic.CrcDistance
import Mathlib.Tactic.NormNum.Prime

namespace HdlcMarquee

open Generic Generic.Crc

/-! ### The period -/

theorem ccitt_evenTerms : ccitt.EvenTerms := by decide

/-- The register does not return earlier: not after the moves that are left when one of the prime factors
of the period is taken away. -/
theorem ccitt_period_ndvd : ¬ ccitt.period ∣ 4681 ∧ ¬ ccitt.period ∣ 1057 ∧ ¬ ccitt.period ∣ 217 := by
  have apart (bits : List Bool) (moved : ccitt.power bits ≠ unit 16) :
      ¬ ccitt.period ∣ exponent bits := by
    rw [← shifts_unit_iff, ← power_eq]
    exact moved
  refine ⟨?_, ?_, ?_⟩
  · exact apart [true, false, false, true, false, false, true, false, false, true, false, false, true]
      (by decide +kernel)
  · exact apart [true, false, false, false, false, true, false, false, false, false, true]
      (by decide +kernel)
  · exact apart [true, true, false, true, true, false, false, true] (by decide +kernel)

/-- **The period of the generator.** -/
theorem ccitt_period : ccitt.period = 32767 := by
  have returns : ccitt.period ∣ 7 * (31 * 151) := by
    have squared : ccitt.power (List.replicate 15 true) = unit 16 := by decide +kernel
    rw [power_eq] at squared
    exact (shifts_unit_iff ccitt _).mp squared
  obtain ⟨first, rest, dividesFirst, dividesRest, split⟩ := Nat.dvd_mul.mp returns
  obtain ⟨second, third, dividesSecond, dividesThird, rfl⟩ := Nat.dvd_mul.mp dividesRest
  obtain ⟨without7, without31, without151⟩ := ccitt_period_ndvd
  rw [← split] at without7 without31 without151 ⊢
  rcases (Nat.dvd_prime (by norm_num)).mp dividesFirst with rfl | rfl
  · refine absurd ?_ without7
    rw [Nat.one_mul]
    exact dividesRest
  · rcases (Nat.dvd_prime (by norm_num)).mp dividesSecond with rfl | rfl
    · refine absurd ?_ without31
      rw [Nat.one_mul]
      exact Nat.mul_dvd_mul_left 7 dividesThird
    · rcases (Nat.dvd_prime (by norm_num)).mp dividesThird with rfl | rfl
      · exact absurd (by decide) without151
      · rfl

/-! ### The check -/

/-- **Two flipped bits** go unnoticed by `calc_fcs` exactly when their distance is a multiple of 32767. -/
theorem foldl_calcFcs_pair_iff (fcs : BitVec 16) {message message' : List Byte}
    (same : message.length = message'.length) {before between behind : Nat}
    (pair : messageBits (List.zipWith (· ^^^ ·) message message') = List.replicate before false ++
      true :: (List.replicate between false ++ true :: List.replicate behind false)) :
    message.foldl calcFcs fcs = message'.foldl calcFcs fcs ↔ 32767 ∣ between + 1 := by
  have lengths : (messageBits message).length = (messageBits message').length := by
    rw [length_messageBits, length_messageBits, same]
  rw [messageBits_zipWith_xor] at pair
  rw [foldl_calcFcs, foldl_calcFcs, ← ccitt_period]
  exact crcBits_pair_iff ccitt fcs lengths pair

/-- The first and the last bit of two octets. -/
theorem foldl_calcFcs_pair_near :
    [0x01, 0x80].foldl calcFcs fcsInitValue = [0x00, 0x00].foldl calcFcs fcsInitValue ↔
      32767 ∣ 14 + 1 :=
  foldl_calcFcs_pair_iff fcsInitValue (by rfl) (by decide :
    messageBits (List.zipWith (· ^^^ ·) [0x01, 0x80] [0x00, 0x00]) =
      List.replicate 0 false ++ true :: (List.replicate 14 false ++ true :: List.replicate 0 false))

/-- The number of flipped bits between two messages. -/
def flips (sent received : List Byte) : Nat :=
  (messageBits (List.zipWith (· ^^^ ·) sent received)).count true

theorem flips_eq_sum (sent received : List Byte) :
    flips sent received =
      ((List.zipWith (· ^^^ ·) sent received).map fun error => (octetBits error).count true).sum := by
  unfold flips messageBits
  rw [List.count_flatMap]
  rfl

/-- Flipped bits change the check: an odd number of them, and two in at most 4095 octets. -/
theorem foldl_calcFcs_ne_of_flips (fcs : BitVec 16) {message message' : List Byte}
    (same : message.length = message'.length)
    (flipped : flips message message' % 2 = 1 ∨ flips message message' = 2 ∧ message.length ≤ 4095) :
    message.foldl calcFcs fcs ≠ message'.foldl calcFcs fcs := by
  have lengths : (messageBits message).length = (messageBits message').length := by
    rw [length_messageBits, length_messageBits, same]
  unfold flips at flipped
  rw [messageBits_zipWith_xor] at flipped
  rw [foldl_calcFcs, foldl_calcFcs]
  refine crcBits_ne_of_flips ccitt ccitt_evenTerms fcs lengths (flipped.imp_right ?_)
  rintro ⟨two, short⟩
  refine ⟨two, ?_⟩
  rw [ccitt_period, length_messageBits]
  omega

/-! ### Frames -/

/-- A damaged frame is answered with `-EIO` if the damage changes the check. -/
theorem eio_of_damaged {control : HdlcControlT} {payload body : List Byte}
    (inside : Damaged (sentBody control payload) body)
    (changed : (hdlcCode.octets (sentBody control payload)).foldl calcFcs fcsInitValue ≠
      (hdlcCode.octets body).foldl calcFcs fcsInitValue) :
    (hdlcGetDataWithState hdlcState
      (some (hdlcFlagSequence :: body ++ [hdlcFlagSequence]))).ret = .error .eio := by
  have lengths : (sentBody control payload).length = body.length := inside.length_eq
  have long := (sentBody_spec control payload).1.1
  have carried : frameOctets control payload = hdlcCode.octets (sentBody control payload) :=
    (octets_stuff _ _).symm
  have residue : frameFcs body ≠ fcsGoodValue := fun good =>
    changed ((congrArg _ carried.symm).trans ((frameOctets_good control payload).trans good.symm))
  have nonempty : body ≠ [] := List.ne_nil_of_length_pos (by omega)
  obtain ⟨count, call⟩ := call_frame nonempty (inside.quiet (sentBody_quiet control payload))
  rw [call, if_neg fun accepted => residue accepted.2]

/-- **Flipped bits are detected**: in a frame of any length an odd number of them, and two in a frame of at
most 4095 octets, as long as none makes or destroys a flag or an escape. -/
theorem flips_detected (control : HdlcControlT) (payload : List Byte) {sent received : List Byte}
    (built : hdlcFrameData control (some payload) payload.length = .ok sent)
    (damaged : Damaged sent received)
    (flipped : flips sent received % 2 = 1 ∨
      flips sent received = 2 ∧ (deliverable control payload).length ≤ 4091) :
    (hdlcGetDataWithState hdlcState (some received)).ret = .error .eio := by
  rw [hdlcFrameData_some] at built
  obtain rfl := Except.ok.inj built
  obtain ⟨body, rfl, inside⟩ := Damaged.frame damaged
  have lengths : (sentBody control payload).length = body.length := inside.length_eq
  -- the flags are not damaged, and neither are the escapes
  have same : flips (hdlcCode.octets (sentBody control payload)) (hdlcCode.octets body) =
      flips (frameBytes control payload) (hdlcFlagSequence :: body ++ [hdlcFlagSequence]) := by
    rw [flips_eq_sum, flips_eq_sum]
    refine (sum_zipWith_octets hdlcCode (· ^^^ ·) mask_xor_mask _ (by decide) inside.aligned
      false).trans ?_
    have flag : (octetBits (hdlcFlagSequence ^^^ hdlcFlagSequence)).count true = 0 := by decide
    rw [frameBytes, List.cons_append, List.cons_append, List.zipWith_cons_cons,
      List.zipWith_append lengths, List.map_cons, List.sum_cons, List.map_append, List.sum_append,
      flag, Nat.zero_add]
    rfl
  refine eio_of_damaged inside (foldl_calcFcs_ne_of_flips fcsInitValue
    (length_run_unescape_eq hdlcCode inside.aligned false) ?_)
  rw [same]
  refine flipped.imp_right (And.imp_right fun short => ?_)
  have octets : hdlcCode.octets (sentBody control payload) =
      hdlcAllStationAddr :: hdlcFrameControlType control :: (deliverable control payload ++
        fcsOctets ((checkedOctets control payload).foldl calcFcs fcsInitValue ^^^ fcsInvertMask)) :=
    octets_stuff _ _
  rw [octets, List.length_cons, List.length_cons, List.length_append, fcsOctets, List.length_cons,
    List.length_singleton]
  omega

/-- The lowest bit of the address and the lowest bit of the check. -/
theorem flips_detected_ends :
    (hdlcGetDataWithState hdlcState (some [0x7E, 0xFE, 0x10, 0x21, 0x25, 0xA4, 0x7E])).ret =
      .error .eio :=
  flips_detected ⟨.iFrame, 0⟩ [0x21]
    (show hdlcFrameData _ _ 1 = .ok [0x7E, 0xFF, 0x10, 0x21, 0x25, 0xA5, 0x7E] by decide +kernel)
    (.cons (by decide) (.cons (by decide) (.cons (by decide) (.cons (by decide)
      (.cons (by decide) (.cons (by decide) (.cons (by decide) .nil)))))))
    (.inr ⟨by decide, by decide⟩)

end HdlcMarquee
