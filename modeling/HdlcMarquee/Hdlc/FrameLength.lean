/-
**The frames of the encoder, and how long they are.**

Two flags, the address, the control octet and the check take six bytes; every octet of the payload
takes one, and every octet of the payload and of the check that has to be escaped takes one more
(`length_frameBytes`). The check depends on the whole payload, so the length does.
`hdlcFrameData_wellFormed`: between its flags a frame holds no other, every escape is followed by a
masked octet, and unescaping gives back what was framed.
-/

import HdlcMarquee.Hdlc.RoundTrip

namespace HdlcMarquee

open Generic

/-- The octets of a frame behind its control octet: the payload of an I-frame, and the check. -/
def carriedOctets (control : HdlcControlT) (payload : List Byte) : List Byte :=
  deliverable control payload ++
    fcsOctets ((checkedOctets control payload).foldl calcFcs fcsInitValue ^^^ fcsInvertMask)

/-- Six bytes, the payload, and the escapes. -/
def frameLength (control : HdlcControlT) (payload : List Byte) : Nat :=
  6 + (deliverable control payload).length + hdlcCode.reserved (carriedOctets control payload)

/-- **The length of a frame on the line.** -/
theorem length_frameBytes (control : HdlcControlT) (payload : List Byte) :
    (frameBytes control payload).length = frameLength control payload := by
  have check : ∀ fcs : BitVec 16, (fcsOctets fcs).length = 2 := fun _ => rfl
  unfold frameBytes frameLength
  rw [sentBody_eq, ← carriedOctets, List.length_append, List.length_cons, List.length_cons,
    List.length_cons, length_stuff, List.length_singleton, carriedOctets, List.length_append, check]
  omega

/-- The length that the encoder reports. -/
theorem length_hdlcFrameData {control : HdlcControlT} {payload frame : List Byte}
    (built : hdlcFrameData control (some payload) payload.length = .ok frame) :
    frame.length = frameLength control payload := by
  rw [hdlcFrameData_some] at built
  rw [← Except.ok.inj built, length_frameBytes]

/-! ### Well-formed frames -/

/-- What the line carries for a control field and a payload. -/
structure WellFormed (control : HdlcControlT) (payload frame : List Byte) : Prop where
  flags : ∃ body, frame = hdlcFlagSequence :: body ++ [hdlcFlagSequence] ∧
    hdlcFlagSequence ∉ body ∧
    hdlcCode.octets body = hdlcAllStationAddr :: hdlcFrameControlType control ::
      (deliverable control payload ++
        fcsOctets ((checkedOctets control payload).foldl calcFcs fcsInitValue ^^^ fcsInvertMask))
  escapes : ∀ index : Nat, frame[index]? = some hdlcControlEscape →
    frame[index + 1]? = some 0x5D ∨ frame[index + 1]? = some 0x5E
  length : frame.length = 6 + (deliverable control payload).length +
    (carriedOctets control payload).countP fun octet => octet = 0x7E ∨ octet = 0x7D
  bounded : frame.length ≤ 2 * (deliverable control payload).length + 8

theorem frameOctets_eq (control : HdlcControlT) (payload : List Byte) :
    frameOctets control payload =
      hdlcAllStationAddr :: hdlcFrameControlType control :: carriedOctets control payload := rfl

theorem frameBytes_behind_esc (control : HdlcControlT) (payload : List Byte) {index : Nat}
    (escape : (frameBytes control payload)[index]? = some hdlcControlEscape) :
    (frameBytes control payload)[index + 1]? = some 0x5D ∨
      (frameBytes control payload)[index + 1]? = some 0x5E := by
  unfold frameBytes at escape ⊢
  cases index with
  | zero => exact absurd (Option.some.inj escape) (by decide)
  | succ index =>
    rw [List.cons_append, List.getElem?_cons_succ] at escape ⊢
    rcases Nat.lt_or_ge index (sentBody control payload).length with inside | outside
    · rw [List.getElem?_append_left inside] at escape
      have masked : (sentBody control payload)[index + 1]? = some 0x5E ∨
          (sentBody control payload)[index + 1]? = some 0x5D :=
        stuff_behind_esc hdlcCode (frameOctets control payload) escape
      have next : index + 1 < (sentBody control payload).length := by
        rcases masked with flag | esc
        · exact (List.getElem?_eq_some_iff.mp flag).1
        · exact (List.getElem?_eq_some_iff.mp esc).1
      rw [List.getElem?_append_left next]
      exact masked.symm
    · -- the last byte is the flag
      rw [List.getElem?_append_right outside] at escape
      have flag := List.mem_of_getElem? escape
      rw [List.mem_singleton] at flag
      exact absurd flag (by decide)

theorem wellFormed_frameBytes (control : HdlcControlT) (payload : List Byte) :
    WellFormed control payload (frameBytes control payload) where
  flags := by
    refine ⟨sentBody control payload, rfl, sentBody_quiet control payload, ?_⟩
    rw [sentBody, octets_stuff, frameOctets_eq, carriedOctets]
  escapes _ := frameBytes_behind_esc control payload
  length := length_frameBytes control payload
  bounded := by
    have escapes := reserved_le hdlcCode (carriedOctets control payload)
    have carried : (carriedOctets control payload).length =
        (deliverable control payload).length + 2 := by
      rw [carriedOctets, List.length_append]
      rfl
    rw [length_frameBytes, frameLength]
    omega

/-- **The encoder emits a well-formed frame of known length**, for every control field and every
payload; a payload without octets may be a null pointer. -/
theorem hdlcFrameData_wellFormed (control : HdlcControlT) (payload : List Byte) :
    (∃ frame, hdlcFrameData control (some payload) payload.length = .ok frame ∧
      WellFormed control payload frame) ∧
    ∃ frame, hdlcFrameData control none 0 = .ok frame ∧ WellFormed control [] frame := by
  refine ⟨⟨_, hdlcFrameData_some control payload, wellFormed_frameBytes control payload⟩, ?_⟩
  exact ⟨_, hdlcFrameData_eq control none 0 (by simp), wellFormed_frameBytes control []⟩

end HdlcMarquee
