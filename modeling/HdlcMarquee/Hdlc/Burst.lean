/-
**Burst errors on the line.**

`burst_detected`: an error burst of at most 16 bits in an encoded frame that neither hits nor makes a
flag or an escape is answered with `-EIO`. Such a burst leaves the escapes of the frame where they
are (`Damaged.aligned`), so the damage to the octets is what is left of the burst when the escapes
are taken out of it, and a burst of at most 16 bits changes the check.
-/

import HdlcMarquee.Hdlc.Calls
import HdlcMarquee.Hdlc.RoundTrip

namespace HdlcMarquee

open Generic Generic.Crc

/-- Neither the flag nor the escape. -/
def Unreserved (byte : Byte) : Prop := byte ≠ hdlcFlagSequence ∧ byte ≠ hdlcControlEscape

instance (byte : Byte) : Decidable (Unreserved byte) := inferInstanceAs (Decidable (_ ∧ _))

/-- Bytes of a frame may have changed on the line, but none from or to a reserved one. -/
def Damaged (sent received : List Byte) : Prop :=
  List.Forall₂ (fun before after => before ≠ after → Unreserved before ∧ Unreserved after)
    sent received

theorem Damaged.aligned {sent received : List Byte} (damaged : Damaged sent received) :
    hdlcCode.Aligned sent received := by
  refine List.Forall₂.imp (fun before after changed => ?_) damaged
  by_cases same : before = after
  · rw [same]
  · obtain ⟨free, free'⟩ := changed same
    exact iff_of_false free.2 free'.2

theorem Damaged.quiet {sent received : List Byte} (damaged : Damaged sent received)
    (quiet : hdlcFlagSequence ∉ sent) : hdlcFlagSequence ∉ received := by
  induction damaged with
  | nil => exact List.not_mem_nil
  | @cons before after rest rest' changed _ ih =>
    rw [List.mem_cons, not_or] at quiet ⊢
    refine ⟨fun flag => ?_, ih quiet.2⟩
    by_cases same : before = after
    · exact quiet.1 (flag.trans same.symm)
    · exact (changed same).2.1 flag.symm

/-- A damaged frame still stands between two flags. -/
theorem Damaged.frame {body received : List Byte}
    (damaged : Damaged (hdlcFlagSequence :: body ++ [hdlcFlagSequence]) received) :
    ∃ body', received = hdlcFlagSequence :: body' ++ [hdlcFlagSequence] ∧ Damaged body body' := by
  have flag : ∀ {after : Byte}, (hdlcFlagSequence ≠ after →
      Unreserved hdlcFlagSequence ∧ Unreserved after) → after = hdlcFlagSequence := by
    intro after changed
    by_contra differ
    exact (changed (Ne.symm differ)).1.1 rfl
  obtain ⟨first, rest, opening, behind, rfl⟩ := List.forall₂_cons_left_iff.mp damaged
  have inside := List.forall₂_take_append _ _ _ behind.flip
  obtain ⟨last, none, closing, nothing, ended⟩ :=
    List.forall₂_cons_right_iff.mp (List.forall₂_drop_append _ _ _ behind.flip)
  rw [List.forall₂_nil_right_iff.mp nothing, flag closing] at ended
  refine ⟨rest.take body.length, ?_, inside.flip⟩
  rw [flag opening, List.cons_append, ← ended, List.take_append_drop]

/-- The difference of two octets is that of their masks. -/
theorem mask_xor_mask (first second : Byte) :
    hdlcCode.mask first ^^^ hdlcCode.mask second = first ^^^ second := by
  show (first ^^^ 0x20#8) ^^^ (second ^^^ 0x20#8) = first ^^^ second
  rw [BitVec.xor_comm second, ← BitVec.xor_assoc, BitVec.xor_assoc first, BitVec.xor_self,
    BitVec.xor_zero]

/-- **Bursts of at most 16 bits are detected**, in frames of any length. -/
theorem burst_detected (control : HdlcControlT) (payload : List Byte) {sent received : List Byte}
    (built : hdlcFrameData control (some payload) payload.length = .ok sent)
    (damaged : Damaged sent received) (differ : sent ≠ received)
    (burst : Burst 16 (messageBits (List.zipWith (· ^^^ ·) sent received))) :
    (hdlcGetDataWithState hdlcState (some received)).ret = .error .eio := by
  rw [hdlcFrameData_some] at built
  obtain rfl := Except.ok.inj built
  obtain ⟨body, rfl, inside⟩ := Damaged.frame damaged
  have quiet := inside.quiet (sentBody_quiet control payload)
  have lengths : (sentBody control payload).length = body.length := inside.length_eq
  have long := (sentBody_spec control payload).1.1
  have carried : frameOctets control payload = hdlcCode.octets (sentBody control payload) :=
    (octets_stuff _ _).symm
  have differ' : hdlcCode.octets (sentBody control payload) ≠ hdlcCode.octets body := by
    intro same
    apply differ
    unfold frameBytes
    rw [eq_of_run_unescape_eq hdlcCode inside.aligned false same]
  have burst' : Burst 16 (messageBits (List.zipWith (· ^^^ ·)
      (hdlcCode.octets (sentBody control payload)) (hdlcCode.octets body))) := by
    refine burst.sublist ?_
    refine (sublist_zipWith_octets hdlcCode (· ^^^ ·) mask_xor_mask inside.aligned false).trans ?_
    rw [frameBytes, List.cons_append, List.cons_append, List.zipWith_cons_cons,
      List.zipWith_append lengths]
    exact (List.sublist_append_left _ _).cons _
  have residue : frameFcs body ≠ fcsGoodValue := by
    intro good
    have fooled := foldl_calcFcs_ne_of_burst fcsInitValue
      (length_run_unescape_eq hdlcCode inside.aligned false) differ' burst'
    exact fooled ((congrArg _ carried.symm).trans ((frameOctets_good control payload).trans good.symm))
  have nonempty : body ≠ [] := List.ne_nil_of_length_pos (by omega)
  obtain ⟨count, call⟩ := call_frame nonempty quiet
  rw [call, if_neg fun accepted => residue accepted.2]

/-- Sixteen bits from the payload into the check, with the first and the last of them changed. -/
theorem burst_detected_check :
    (hdlcGetDataWithState hdlcState (some [0x7E, 0xFF, 0x10, 0x20, 0xA5, 0xA5, 0x7E])).ret =
      .error .eio :=
  burst_detected ⟨.iFrame, 0⟩ [0x21]
    (show hdlcFrameData _ _ 1 = .ok [0x7E, 0xFF, 0x10, 0x21, 0x25, 0xA5, 0x7E] by decide +kernel)
    (.cons (by decide) (.cons (by decide) (.cons (by decide) (.cons (by decide)
      (.cons (by decide) (.cons (by decide) (.cons (by decide) .nil)))))))
    (by decide) (by decide +kernel)

end HdlcMarquee
