/-
**The encoder (`hdlc/hdlc.c` lines 44–53 and 212–261).**

`hdlcFrameData` builds a frame by appending to the bytes written so far, with the check carried
along. `hdlcFrameData_some`: what it writes is the stuffing, between two flags, of the frame's octets
(`frameOctets`): the address, the control octet, the payload of an I-frame, and the inverted check.
The octets of every frame have the good residue (`frameOctets_good`), and two octets complete a message
to that residue only if they are the ones that the encoder appends (`residue_iff_recompute`).
-/

import HdlcMarquee.Hdlc.GetData

namespace HdlcMarquee

open Generic

/-- `hdlc_escape_value`, appending to the bytes at `dest[0 .. *dest_index)`. -/
def hdlcEscapeValue (value : Byte) (dest : List Byte) : List Byte :=
  if value = hdlcFlagSequence ∨ value = hdlcControlEscape then
    dest ++ [hdlcControlEscape] ++ [value ^^^ 0x20]
  else dest ++ [value]

/-- The loop over the payload: the check and the bytes written. -/
def framePayload (src : List Byte) (start : BitVec 16 × List Byte) : BitVec 16 × List Byte :=
  src.foldl (fun before octet => (calcFcs before.1 octet, hdlcEscapeValue octet before.2)) start

/-- `hdlc_frame_data`: the bytes `dest[0 .. *dest_len)` of a call that returns 0. `src` is none for a
null pointer; `control`, `dest` and `dest_len` are addresses of objects in every call of the
repository. -/
def hdlcFrameData (control : HdlcControlT) (src : Option (List Byte)) (srcLen : Nat) :
    Except Errno (List Byte) :=
  if src = none ∧ 0 < srcLen then .error .einval
  else
    let dest := [hdlcFlagSequence]
    let fcs := calcFcs fcsInitValue hdlcAllStationAddr
    let dest := hdlcEscapeValue hdlcAllStationAddr dest
    let value := hdlcFrameControlType control
    let fcs := calcFcs fcs value
    let dest := hdlcEscapeValue value dest
    let (fcs, dest) :=
      if control.frame = .iFrame then framePayload ((src.getD []).take srcLen) (fcs, dest)
      else (fcs, dest)
    let fcs := fcs ^^^ fcsInvertMask
    let dest := hdlcEscapeValue (((fcs >>> 0) &&& 0xFF).setWidth 8) dest
    let dest := hdlcEscapeValue (((fcs >>> 8) &&& 0xFF).setWidth 8) dest
    .ok (dest ++ [hdlcFlagSequence])

/-! ### The frame it builds -/

/-- The octets of a frame that the check covers. -/
def checkedOctets (control : HdlcControlT) (payload : List Byte) : List Byte :=
  hdlcAllStationAddr :: hdlcFrameControlType control ::
    if control.frame = .iFrame then payload else []

/-- The octets of a frame before stuffing. -/
def frameOctets (control : HdlcControlT) (payload : List Byte) : List Byte :=
  checkedOctets control payload ++
    fcsOctets ((checkedOctets control payload).foldl calcFcs fcsInitValue ^^^ fcsInvertMask)

/-- The raw body of a frame. -/
def sentBody (control : HdlcControlT) (payload : List Byte) : List Byte :=
  hdlcCode.stuff (frameOctets control payload)

/-- The bytes of a frame on the line. -/
def frameBytes (control : HdlcControlT) (payload : List Byte) : List Byte :=
  hdlcFlagSequence :: sentBody control payload ++ [hdlcFlagSequence]

theorem hdlcEscapeValue_eq (value : Byte) (dest : List Byte) :
    hdlcEscapeValue value dest = dest ++ hdlcCode.escape value := by
  by_cases reserved : value = hdlcFlagSequence ∨ value = hdlcControlEscape
  · rw [hdlcEscapeValue, if_pos reserved, Code.escape, if_pos (by simpa using reserved),
      List.append_assoc]
    rfl
  · unfold hdlcEscapeValue
    rw [if_neg reserved, Code.escape, if_neg (by simpa using reserved)]

theorem framePayload_eq (src : List Byte) (fcs : BitVec 16) (dest : List Byte) :
    framePayload src (fcs, dest) = (src.foldl calcFcs fcs, dest ++ hdlcCode.stuff src) := by
  induction src generalizing fcs dest with
  | nil => simp [framePayload]
  | cons octet rest ih =>
    rw [framePayload, List.foldl_cons, ← framePayload, ih, hdlcEscapeValue_eq, stuff_cons,
      List.foldl_cons, List.append_assoc]

/-- Masking with `0xFF` before storing into an octet changes nothing. -/
theorem setWidth_and_255 (value : BitVec 16) :
    (value &&& 0xFF).setWidth 8 = (value.setWidth 8 : Byte) := by
  apply BitVec.eq_of_getLsbD_eq
  intro position inside
  have set : (0xFF : BitVec 16).getLsbD position = true := by
    revert inside position
    decide
  rw [BitVec.getLsbD_setWidth, BitVec.getLsbD_setWidth, BitVec.getLsbD_and]
  exact congrArg _ (by rw [set, Bool.and_true])

/-- **The encoder writes the stuffed octets of the frame between two flags.** -/
theorem hdlcFrameData_eq (control : HdlcControlT) (src : Option (List Byte)) (srcLen : Nat)
    (valid : ¬ (src = none ∧ 0 < srcLen)) :
    hdlcFrameData control src srcLen = .ok (frameBytes control ((src.getD []).take srcLen)) := by
  unfold hdlcFrameData
  rw [if_neg valid, frameBytes, sentBody, frameOctets, checkedOctets]
  generalize (src.getD []).take srcLen = payload
  simp only [hdlcEscapeValue_eq, setWidth_and_255, BitVec.ushiftRight_zero]
  by_cases information : control.frame = .iFrame
  · simp only [information, if_true, framePayload_eq, fcsOctets, stuff_append, stuff_cons, stuff_nil,
      List.foldl_cons, List.append_assoc, List.append_nil, List.cons_append, List.nil_append]
  · simp only [information, if_false, fcsOctets, stuff_cons, stuff_nil,
      List.foldl_cons, List.foldl_nil, List.append_assoc, List.append_nil, List.cons_append,
      List.nil_append]

theorem hdlcFrameData_some (control : HdlcControlT) (payload : List Byte) :
    hdlcFrameData control (some payload) payload.length = .ok (frameBytes control payload) := by
  rw [hdlcFrameData_eq control _ _ (by simp)]
  simp

/-- **The bytes of an I-frame determine its payload.** -/
theorem frameBytes_inj {seqNo : BitVec 3} {payload payload' : List Byte}
    (same : frameBytes ⟨.iFrame, seqNo⟩ payload = frameBytes ⟨.iFrame, seqNo⟩ payload') :
    payload = payload' := by
  have bodies : sentBody ⟨.iFrame, seqNo⟩ payload = sentBody ⟨.iFrame, seqNo⟩ payload' :=
    (List.append_inj' (List.cons.inj same).2 rfl).1
  have octets : frameOctets ⟨.iFrame, seqNo⟩ payload = frameOctets ⟨.iFrame, seqNo⟩ payload' := by
    have carried := congrArg hdlcCode.octets bodies
    rwa [sentBody, sentBody, octets_stuff, octets_stuff] at carried
  have checked : checkedOctets ⟨.iFrame, seqNo⟩ payload = checkedOctets ⟨.iFrame, seqNo⟩ payload' :=
    (List.append_inj' octets rfl).1
  exact (List.cons.inj (List.cons.inj checked).2).2

/-- **Every frame has the good residue.** -/
theorem frameOctets_good (control : HdlcControlT) (payload : List Byte) :
    (frameOctets control payload).foldl calcFcs fcsInitValue = fcsGoodValue := by
  unfold frameOctets
  rw [List.foldl_append]
  exact (foldl_calcFcs_good_iff _ _ _).mpr rfl

/-! ### The residue test -/

theorem append_eq_frameOctets_iff (control : HdlcControlT) (payload : List Byte) (low high : Byte) :
    checkedOctets control payload ++ [low, high] = frameOctets control payload ↔
      (checkedOctets control payload ++ [low, high]).foldl calcFcs fcsInitValue = fcsGoodValue := by
  rw [List.foldl_append, foldl_calcFcs_good_iff, frameOctets, List.append_cancel_left_eq]

/-- **The residue test is recompute-and-compare.** Two octets behind a message lead to the good
residue exactly when they are the low and the high octet of its inverted check, and behind what the
check of a frame covers exactly when they are the two octets that the encoder appends. -/
theorem residue_iff_recompute (low high : Byte) :
    (∀ message : List Byte,
      (message ++ [low, high]).foldl calcFcs fcsInitValue = fcsGoodValue ↔
        low = (message.foldl calcFcs fcsInitValue ^^^ fcsInvertMask).setWidth 8 ∧
          high = ((message.foldl calcFcs fcsInitValue ^^^ fcsInvertMask) >>> 8).setWidth 8) ∧
    ∀ (control : HdlcControlT) (payload : List Byte),
      (checkedOctets control payload ++ [low, high]).foldl calcFcs fcsInitValue = fcsGoodValue ↔
        hdlcFrameData control (some payload) payload.length =
          .ok (hdlcFlagSequence :: hdlcCode.stuff (checkedOctets control payload ++ [low, high]) ++
            [hdlcFlagSequence]) := by
  refine ⟨fun message => ?_, fun control payload => ?_⟩
  · rw [List.foldl_append, foldl_calcFcs_good_iff, fcsOctets]
    simp only [List.cons.injEq, and_true]
  · rw [hdlcFrameData_some, ← append_eq_frameOctets_iff, frameBytes, sentBody]
    constructor
    · intro appended
      rw [appended]
    · intro sent
      -- equal frames carry equal octets
      have stuffed := (List.append_inj' (List.cons.inj (Except.ok.inj sent)).2 rfl).1
      rw [← octets_stuff hdlcCode (frameOctets control payload), stuffed, octets_stuff]

end HdlcMarquee
