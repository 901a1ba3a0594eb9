/-
**Framing into the caller's buffer.**

`hdlc_get_raw_frame` takes the size of the buffer, but its copy of it is only the place where
`hdlc_frame_data` leaves the length of the frame, and it always returns 0. It respects the buffer
exactly when the frame fits (`respects_iff`), and how long the frame is depends on its contents.
-/

import HdlcMarquee.Client.Model
import HdlcMarquee.Hdlc.FrameLength

namespace HdlcMarquee

/-- The payload that the client frames: what stands at the address of `data_i_frame`. -/
def Client.payload (client : Client) (layout : Layout) : List Byte :=
  (List.range client.lenDataIFrame).map (client.memory layout)

theorem hdlcGetRawFrame_eq (client : Client) (frame : HdlcControlT) (layout : Layout) :
    hdlcGetRawFrame client frame layout = .ok (frameBytes frame (client.payload layout)) := by
  unfold hdlcGetRawFrame
  by_cases supervisory : frame.frame = .sFrame ∨ frame.frame = .sFrameNack
  · have other : frame.frame ≠ .iFrame := by
      rcases supervisory with kind | kind <;> rw [kind] <;> decide
    have unused : frameBytes frame [] = frameBytes frame (client.payload layout) := by
      simp only [frameBytes, sentBody, frameOctets, checkedOctets, if_neg other]
    rw [if_pos supervisory, hdlcFrameData_eq frame none 0 (fun null => Nat.lt_irrefl 0 null.2), ← unused]
    rfl
  · have length : client.lenDataIFrame = (client.payload layout).length := by
      unfold Client.payload
      rw [List.length_map, List.length_range]
    rw [if_neg supervisory, ← Client.payload, length, hdlcFrameData_some]

/-- A `hdlc_get_raw_frame` call on a buffer of `lenBuffer` bytes: the return value, and the bytes stored
from `buffer[0]` on. A negative result of `hdlc_frame_data` is printed, not returned. -/
def hdlcGetRawFrameInto (client : Client) (frame : HdlcControlT) (_lenBuffer : Nat)
    (layout : Layout) : Int × List Byte :=
  match hdlcGetRawFrame client frame layout with
  | .ok bytes => (0, bytes)
  | .error _ => (0, [])

/-- All stores lie in the buffer, and a frame that does not fit is reported. -/
def Respects (client : Client) (frame : HdlcControlT) (lenBuffer : Nat) (layout : Layout) : Prop :=
  let call := hdlcGetRawFrameInto client frame lenBuffer layout
  (∀ index, index < call.2.length → index < lenBuffer) ∧
    ∀ bytes, hdlcGetRawFrame client frame layout = .ok bytes → lenBuffer < bytes.length → call.1 < 0

/-- **The buffer is respected exactly when the frame fits.** -/
theorem respects_iff (client : Client) (frame : HdlcControlT) (lenBuffer : Nat) (layout : Layout) :
    Respects client frame lenBuffer layout ↔
      frameLength frame (client.payload layout) ≤ lenBuffer := by
  unfold Respects hdlcGetRawFrameInto
  rw [hdlcGetRawFrame_eq]
  dsimp only
  rw [length_frameBytes]
  constructor
  · rintro ⟨inside, _⟩
    by_contra longer
    exact Nat.lt_irrefl lenBuffer (inside lenBuffer (Nat.not_le.mp longer))
  · intro fits
    refine ⟨fun index stored => stored.trans_le fits, fun bytes built longer => ?_⟩
    rw [← Except.ok.inj built, length_frameBytes] at longer
    exact absurd fits (Nat.not_le.mpr longer)

/-- The payload `7E` overruns a buffer of seven bytes, which takes any octet that needs no escape. -/
theorem not_respects_seven_bytes :
    ¬ ∀ (client : Client) (data : Nat → Byte) (dataLen : Nat) (frame : HdlcControlT)
      (lenBuffer : Nat) (layout : Layout),
      (hdlcSendData client data dataLen).2 = (.ok (), some frame) →
      Respects (hdlcSendData client data dataLen).1 frame lenBuffer layout := by
  intro respects
  have inside := (respects { zeroedClient with state := .readyState } (fun _ => 0x7E) 1 ⟨.iFrame, 0⟩ 7
    ⟨2, by decide, fun _ => 0⟩ rfl).1 7
  exact absurd (inside (by decide +kernel)) (by decide)

end HdlcMarquee
