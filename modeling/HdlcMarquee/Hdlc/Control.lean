/-
**Octets with a meaning (`hdlc/hdlc.h`, `hdlc/hdlc.c` lines 1–14 and 44–103).**

The flag, the escape and the address; the control field and its two translations. The translation
to a control octet is undone by the one from it (`hdlcGetControlType_hdlcFrameControlType`), and
never produces an octet that has to be escaped (`hdlcFrameControlType_free`).
-/

import HdlcMarquee.Generic.Framing
import HdlcMarquee.Hdlc.Fcs

namespace HdlcMarquee

open Generic

/-- `HDLC_FLAG_SEQUENCE`, the start and end flag. -/
def hdlcFlagSequence : Byte := 0x7E

/-- `HDLC_CONTROL_ESCAPE`. -/
def hdlcControlEscape : Byte := 0x7D

/-- `HDLC_ALL_STATION_ADDR`. -/
def hdlcAllStationAddr : Byte := 0xFF

/-- `hdlc_frame_t`, the supported frame types. -/
inductive HdlcFrameT
  | iFrame
  | sFrame
  | sFrameNack
  deriving DecidableEq, Repr

/-- `hdlc_control_t`; `seq_no` is a bit field of three bits. -/
structure HdlcControlT where
  frame : HdlcFrameT
  seqNo : BitVec 3
  deriving DecidableEq, Repr

/-! ### Bit positions and types of the control octet -/

/-- `HDLC_CONTROL_S_OR_U_FRAME_BIT`. -/
def hdlcControlSOrUFrameBit : Nat := 0

/-- `HDLC_CONTROL_SEND_SEQ_NO_BIT`. -/
def hdlcControlSendSeqNoBit : Nat := 1

/-- `HDLC_CONTROL_S_FRAME_TYPE_BIT`. -/
def hdlcControlSFrameTypeBit : Nat := 2

/-- `HDLC_CONTROL_POLL_BIT`. -/
def hdlcControlPollBit : Nat := 4

/-- `HDLC_CONTROL_RECV_SEQ_NO_BIT`. -/
def hdlcControlRecvSeqNoBit : Nat := 5

/-- `HDLC_CONTROL_TYPE_RECEIVE_READY`. -/
def hdlcControlTypeReceiveReady : Byte := 0

/-- `HDLC_CONTROL_TYPE_REJECT`. -/
def hdlcControlTypeReject : Byte := 2

/-- `hdlc_get_control_type`; storing into `seq_no` keeps the low three bits. -/
def hdlcGetControlType (control : Byte) : HdlcControlT :=
  if control &&& (1#8 <<< hdlcControlSOrUFrameBit) ≠ 0 then
    { frame :=
        if (control >>> hdlcControlSFrameTypeBit) &&& 0x3 = hdlcControlTypeReceiveReady then .sFrame
        -- Receive Not Ready, Selective Reject and U-frames count as a reject
        else .sFrameNack
      seqNo := (control >>> hdlcControlRecvSeqNoBit).setWidth 3 }
  else
    { frame := .iFrame
      seqNo := (control >>> hdlcControlSendSeqNoBit).setWidth 3 }

/-- `hdlc_frame_control_type`. -/
def hdlcFrameControlType (control : HdlcControlT) : Byte :=
  match control.frame with
  | .iFrame =>
    (control.seqNo.setWidth 8 <<< hdlcControlSendSeqNoBit) ||| (1#8 <<< hdlcControlPollBit)
  | .sFrame =>
    (control.seqNo.setWidth 8 <<< hdlcControlRecvSeqNoBit) ||| (1#8 <<< hdlcControlSOrUFrameBit)
  | .sFrameNack =>
    (control.seqNo.setWidth 8 <<< hdlcControlRecvSeqNoBit) |||
      (hdlcControlTypeReject <<< hdlcControlSFrameTypeBit) ||| (1#8 <<< hdlcControlSOrUFrameBit)

/-- **The control octet round trip.** -/
theorem hdlcGetControlType_hdlcFrameControlType (control : HdlcControlT) :
    hdlcGetControlType (hdlcFrameControlType control) = control := by
  have each : ∀ seqNo : BitVec 3, ∀ frame ∈ [HdlcFrameT.iFrame, .sFrame, .sFrameNack],
      hdlcGetControlType (hdlcFrameControlType ⟨frame, seqNo⟩) = ⟨frame, seqNo⟩ := by decide
  obtain ⟨frame, seqNo⟩ := control
  exact each seqNo frame (by cases frame <;> decide)

/-! ### Byte stuffing -/

/-- The byte stuffing of HDLC. -/
def hdlcCode : Code Byte where
  flag := hdlcFlagSequence
  esc := hdlcControlEscape
  mask octet := octet ^^^ 0x20
  flag_ne_esc := by decide
  mask_mask octet := by rw [BitVec.xor_assoc, BitVec.xor_self, BitVec.xor_zero]
  mask_flag := by decide
  mask_esc := by decide

@[simp] theorem hdlcCode_flag : hdlcCode.flag = hdlcFlagSequence := rfl

@[simp] theorem hdlcCode_esc : hdlcCode.esc = hdlcControlEscape := rfl

/-- The control octet is sent as it is. -/
theorem hdlcFrameControlType_free (control : HdlcControlT) :
    hdlcFrameControlType control ≠ hdlcFlagSequence ∧
      hdlcFrameControlType control ≠ hdlcControlEscape := by
  have each : ∀ seqNo : BitVec 3, ∀ frame ∈ [HdlcFrameT.iFrame, .sFrame, .sFrameNack],
      hdlcFrameControlType ⟨frame, seqNo⟩ ≠ hdlcFlagSequence ∧
        hdlcFrameControlType ⟨frame, seqNo⟩ ≠ hdlcControlEscape := by decide
  obtain ⟨frame, seqNo⟩ := control
  exact each seqNo frame (by cases frame <;> decide)

/-- The all-station address is sent as it is. -/
theorem hdlcAllStationAddr_free :
    hdlcAllStationAddr ≠ hdlcFlagSequence ∧ hdlcAllStationAddr ≠ hdlcControlEscape := by decide

end HdlcMarquee
