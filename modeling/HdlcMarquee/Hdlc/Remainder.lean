/-
**The frame check as polynomial division.**

The table of `fcs.c` is said to belong to the polynomial `x^16+x^12+x^5+1`. Folded over a message,
`calc_fcs` leaves the remainder of the message by that polynomial (`foldl_calcFcs_remainder`); so of all
damage that makes or destroys no flag and no escape, exactly the multiples of the polynomial are not noticed
(`eio_iff_not_dvd`), the polynomial itself with its four bits among them; and of all octet strings of one
length, one in 65536 passes (`card_passing`).
-/

import HdlcMarquee.Hdlc.Distance
import HdlcMarquee.Generic.CrcPolynomial
import Mathlib.Data.List.OfFn
import Mathlib.SetTheory.Cardinal.Finite

namespace HdlcMarquee

open Generic Generic.Crc Polynomial

/-- The polynomial of the check. -/
theorem ccitt_polynomial : ccitt.polynomial = X ^ 16 + X ^ 12 + X ^ 5 + 1 := by
  have bits : registerBits ccitt.poly = [false, false, false, true, false, false, false, false,
      false, false, true, false, false, false, false, true] := by decide
  unfold Generator.polynomial registerPoly
  rw [bits]
  simp only [bitsPoly, coefficient, if_true, Bool.false_eq_true, if_false, List.length_cons,
    List.length_nil]
  ring

/-- **The check is the remainder** of the message, behind what the register held before and in front of 16
empty places. -/
theorem foldl_calcFcs_remainder (fcs : BitVec 16) (message : List Byte) :
    registerPoly (message.foldl calcFcs fcs) =
      (X ^ (8 * message.length) * registerPoly fcs + X ^ 16 * bitsPoly (messageBits message)) %ₘ
        (X ^ 16 + X ^ 12 + X ^ 5 + 1) := by
  rw [foldl_calcFcs, Generator.crcOctets, registerPoly_crcBits, ccitt_polynomial, length_messageBits]

/-- **What the check does not notice** in a damaged frame: exactly the multiples of the polynomial. -/
theorem eio_iff_not_dvd (control : HdlcControlT) (payload : List Byte) {body : List Byte}
    (inside : Damaged (sentBody control payload) body) :
    (hdlcGetDataWithState hdlcState (some (hdlcFlagSequence :: body ++ [hdlcFlagSequence]))).ret =
        .error .eio ↔
      ¬ (X ^ 16 + X ^ 12 + X ^ 5 + 1 : (ZMod 2)[X]) ∣ bitsPoly (messageBits
        (List.zipWith (· ^^^ ·) (frameOctets control payload) (hdlcCode.octets body))) := by
  have long := (sentBody_spec control payload).1.1
  have lengths : (sentBody control payload).length = body.length := inside.length_eq
  have carried : hdlcCode.octets (sentBody control payload) = frameOctets control payload :=
    octets_stuff _ _
  have octets := length_run_unescape_eq hdlcCode inside.aligned false
  have nonempty : body ≠ [] := List.ne_nil_of_length_pos (by omega)
  obtain ⟨count, call⟩ := call_frame nonempty (inside.quiet (sentBody_quiet control payload))
  have same : (messageBits (hdlcCode.octets (sentBody control payload))).length =
      (messageBits (hdlcCode.octets body)).length := by
    rw [length_messageBits, length_messageBits]
    exact congrArg _ octets
  have divides := crcBits_eq_iff_dvd ccitt fcsInitValue same
  rw [← messageBits_zipWith_xor, ccitt_polynomial, carried] at divides
  rw [← divides, ← Generator.crcOctets, ← Generator.crcOctets, ← foldl_calcFcs, ← foldl_calcFcs,
    frameOctets_good, call]
  by_cases good : frameFcs body = fcsGoodValue
  · have accepted : Accepted body := ⟨by omega, good⟩
    rw [if_pos accepted]
    exact iff_of_false (fun other => by cases other) (not_not_intro good.symm)
  · rw [if_neg fun accepted => good accepted.2]
    exact iff_of_true rfl fun same => good same.symm

/-- The polynomial itself, laid over the payload and the check: four flipped bits. -/
theorem eio_iff_not_dvd_four_bits :
    (hdlcGetDataWithState hdlcState
        (some (hdlcFlagSequence :: [0xFF, 0x10, 0x30, 0x2D, 0xA4] ++ [hdlcFlagSequence]))).ret =
          .error .eio ↔
      ¬ (X ^ 16 + X ^ 12 + X ^ 5 + 1 : (ZMod 2)[X]) ∣ bitsPoly (messageBits
        (List.zipWith (· ^^^ ·) (frameOctets ⟨.iFrame, 0⟩ [0x21])
          (hdlcCode.octets [0xFF, 0x10, 0x30, 0x2D, 0xA4]))) := by
  have sent : sentBody ⟨.iFrame, 0⟩ [0x21] = [0xFF, 0x10, 0x21, 0x25, 0xA5] := by decide +kernel
  refine eio_iff_not_dvd ⟨.iFrame, 0⟩ [0x21] ?_
  rw [sent]
  exact .cons (by decide) (.cons (by decide) (.cons (by decide) (.cons (by decide)
    (.cons (by decide) .nil))))

/-- It is accepted, and its payload delivered. -/
example : (run feed ⟨hdlcState, ⟨⟨.sFrame, 0⟩, fun _ => 0⟩⟩
    [[0x7E, 0xFF, 0x10, 0x30, 0x2D, 0xA4, 0x7E]]).2 = [.success ⟨.iFrame, 0⟩ 1 [0x30]] := by
  decide +kernel

/-! ### How many octet strings pass -/

/-- The two octets that pass the check behind a message. -/
def passing (fcs : BitVec 16) : Fin 2 → Byte :=
  ![(fcs ^^^ fcsInvertMask).setWidth 8, ((fcs ^^^ fcsInvertMask) >>> 8).setWidth 8]

theorem passing_iff (fcs : BitVec 16) (last : Fin 2 → Byte) :
    (List.ofFn last).foldl calcFcs fcs = fcsGoodValue ↔ last = passing fcs := by
  have pair (places : Fin 2 → Byte) : List.ofFn places = [places 0, places 1] := by
    rw [List.ofFn_succ, List.ofFn_succ, List.ofFn_zero]
    rfl
  have octets : List.ofFn (passing fcs) = fcsOctets (fcs ^^^ fcsInvertMask) := pair _
  rw [pair last, foldl_calcFcs_good_iff, ← pair, ← octets]
  exact List.ofFn_injective.eq_iff

/-- **One octet string in 65536 passes the check**, of those of any length. -/
theorem card_passing (count : Nat) :
    Nat.card {octets : Fin (count + 2) → Byte //
      (List.ofFn octets).foldl calcFcs fcsInitValue = fcsGoodValue} = 256 ^ count := by
  have split (message : Fin count → Byte) (last : Fin 2 → Byte) :
      (List.ofFn (Fin.append message last)).foldl calcFcs fcsInitValue = fcsGoodValue ↔
        last = passing ((List.ofFn message).foldl calcFcs fcsInitValue) := by
    rw [List.ofFn_fin_append, List.foldl_append, passing_iff]
  let extend (message : Fin count → Byte) : {octets : Fin (count + 2) → Byte //
      (List.ofFn octets).foldl calcFcs fcsInitValue = fcsGoodValue} :=
    ⟨Fin.append message (passing ((List.ofFn message).foldl calcFcs fcsInitValue)), (split _ _).mpr rfl⟩
  have bijective : Function.Bijective extend := by
    constructor
    · intro message message' same
      funext place
      have values : Fin.append message _ (place.castAdd 2) = Fin.append message' _ (place.castAdd 2) :=
        congrFun (congrArg Subtype.val same) (place.castAdd 2)
      rwa [Fin.append_left, Fin.append_left] at values
    · rintro ⟨octets, good⟩
      have passes := good
      rw [← @Fin.append_castAdd_natAdd _ _ _ octets, split] at passes
      refine ⟨fun place => octets (place.castAdd 2), Subtype.ext ?_⟩
      have whole := @Fin.append_castAdd_natAdd _ _ _ octets
      rw [passes] at whole
      exact whole
  have octet : Nat.card Byte = 256 := by
    rw [Nat.card_congr BitVec.equivFin.toEquiv, Nat.card_fin]
    rfl
  rw [← Nat.card_congr (Equiv.ofBijective extend bijective), Nat.card_fun, Nat.card_fin, octet]

end HdlcMarquee
