/-
**What the client delivers.**

On an accepted I-frame, `hdlc_decode_recived_raw_data` delivers the fourth byte of the buffer and the
length 1; the array `recive`, which holds the payload, is not read. `leaves_payload_iff`: behind any
noise and any number of flags, the payload is delivered exactly when it is a single octet and the
fourth byte of the buffer happens to equal it.
-/

import HdlcMarquee.Hdlc.RoundTrip
import HdlcMarquee.Client.Decoding

namespace HdlcMarquee

open Generic

/-- The fourth byte of a buffer that has one. -/
theorem fourth_eq {call : DecodeCall} {buffer : List Byte} (passed : call.buffer = some buffer)
    {octet : Byte} (inside : buffer[3]? = some octet) : call.fourth = octet := by
  rw [DecodeCall.fourth, passed, Option.getD_some, inside, Option.getD_some]

/-- A frame of the index that the client waits for is decoded: the fourth byte of the buffer is
delivered. -/
theorem hdlcDecodeAccepted_iFrame {client : Client} {seqNo : BitVec 3}
    (current : seqNo.setWidth 8 = client.currentIndexFrame) (globals : Globals) (fourth : Byte) :
    hdlcDecodeAccepted globals client (.of ⟨.iFrame, seqNo⟩) fourth =
      (.ok (), { client with connectingFrameTimeout := globals.connectingFrameTimeoutBf },
        some (fourth, 1)) := by
  have same : (RecvControl.of ⟨.iFrame, seqNo⟩).seqNo.setWidth 8 = client.currentIndexFrame := current
  unfold hdlcDecodeAccepted
  rw [if_neg (not_not_intro same)]
  rfl

/-- A call succeeds and leaves the payload and its length, whatever the caller's array held. -/
def Leaves (payload : List Byte) (decoded : Decoded) : Prop :=
  decoded.ret = .ok () ∧ ∃ octet length, decoded.delivered = some (octet, length) ∧
    length = payload.length ∧ ∀ recivedData : Nat → Byte,
      (List.range payload.length).map (Function.update recivedData 0 octet) = payload

/-- A single octet is left exactly when it is the payload. -/
theorem leaves_iff {payload : List Byte} {decoded : Decoded} {octet : Byte}
    (succeeds : decoded.ret = .ok ()) (single : decoded.delivered = some (octet, 1)) :
    Leaves payload decoded ↔ payload = [octet] := by
  constructor
  · rintro ⟨_, octet', length, delivered, sized, left⟩
    rw [single] at delivered
    cases delivered
    have read := left fun _ => 0
    rw [← sized] at read
    exact read.symm
  · rintro rfl
    exact ⟨succeeds, octet, 1, single, rfl, fun recivedData => rfl⟩

section Buffer

variable (bf : Int) {client : Client} {seqNo : BitVec 3} {payload noise : List Byte} {flags : Nat}
  {call : DecodeCall}

/-- The I-frame that the client waits for, behind noise and flags: the call succeeds, and delivers
the fourth byte of the buffer. -/
theorem decode_noise (current : seqNo.setWidth 8 = client.currentIndexFrame)
    (quiet : hdlcFlagSequence ∉ noise)
    (passed : call.buffer = some (noise ++ List.replicate (flags + 1) hdlcFlagSequence ++
      (sentBody ⟨.iFrame, seqNo⟩ payload ++ [hdlcFlagSequence]))) :
    (hdlcDecodeRecivedRawData ⟨bf, hdlcState⟩ client call).ret = .ok () ∧
      (hdlcDecodeRecivedRawData ⟨bf, hdlcState⟩ client call).delivered = some (call.fourth, 1) := by
  obtain ⟨accepted, found, _⟩ := sentBody_spec ⟨.iFrame, seqNo⟩ payload
  have nonempty : sentBody ⟨.iFrame, seqNo⟩ payload ≠ [] :=
    List.ne_nil_of_length_pos (le_trans (by decide) accepted.1)
  have completes := bodies_frame quiet nonempty (sentBody_quiet ⟨.iFrame, seqNo⟩ payload) flags
  generalize noise ++ List.replicate (flags + 1) hdlcFlagSequence ++
    (sentBody ⟨.iFrame, seqNo⟩ payload ++ [hdlcFlagSequence]) = buffer at completes passed
  have none : bodies [] = [] := rfl
  have whole : received [] buffer = sentBody ⟨.iFrame, seqNo⟩ payload :=
    received_completes none completes
  have control : call.recvControl.putAll (bufferStores [] buffer) = .of ⟨.iFrame, seqNo⟩ := by
    have inBuffer : (position []).body.length ≤ 1 := Nat.zero_le _
    rw [putAll_bufferStores, if_pos inBuffer, whole]
    exact congrArg (fun control => (control.map RecvControl.of).getD call.recvControl) found
  have decoded := decode_completes bf client passed none completes
  dsimp only at decoded
  rw [if_pos accepted, control, hdlcDecodeAccepted_iFrame current] at decoded
  have start : (⟨bf, hdlcState⟩ : Globals) = globalsAt bf [] := rfl
  rw [start, decoded]
  exact ⟨rfl, rfl⟩

/-- A buffer with a frame in it has a fourth byte. -/
theorem buffer_fourth (passed : call.buffer = some (noise ++ List.replicate (flags + 1)
      hdlcFlagSequence ++ (sentBody ⟨.iFrame, seqNo⟩ payload ++ [hdlcFlagSequence]))) :
    (call.buffer.getD [])[3]? = some call.fourth := by
  have long := (sentBody_spec ⟨.iFrame, seqNo⟩ payload).1.1
  generalize line : noise ++ List.replicate (flags + 1) hdlcFlagSequence ++
    (sentBody ⟨.iFrame, seqNo⟩ payload ++ [hdlcFlagSequence]) = buffer at passed
  have inside : 3 < buffer.length := by
    rw [← line, List.length_append, List.length_append, List.length_append, List.length_replicate,
      List.length_singleton]
    omega
  rw [fourth_eq passed (List.getElem?_eq_getElem inside), passed, Option.getD_some,
    List.getElem?_eq_getElem inside]

end Buffer

/-- **The payload is delivered exactly when it is one octet and the fourth byte of the buffer.** -/
theorem leaves_payload_iff (bf : Int) {client : Client} {seqNo : BitVec 3} {payload rest : List Byte}
    (current : seqNo.setWidth 8 = client.currentIndexFrame)
    (built : hdlcFrameData ⟨.iFrame, seqNo⟩ (some payload) payload.length =
      .ok (hdlcFlagSequence :: rest))
    {noise : List Byte} (quiet : hdlcFlagSequence ∉ noise) (flags : Nat) {call : DecodeCall}
    (passed : call.buffer =
      some (noise ++ List.replicate (flags + 1) hdlcFlagSequence ++ rest)) :
    Leaves payload (hdlcDecodeRecivedRawData ⟨bf, hdlcState⟩ client call) ↔
      payload.length = 1 ∧ (call.buffer.getD [])[3]? = payload.head? := by
  rw [hdlcFrameData_some] at built
  obtain rfl : sentBody ⟨.iFrame, seqNo⟩ payload ++ [hdlcFlagSequence] = rest :=
    (List.cons.inj (Except.ok.inj built)).2
  obtain ⟨succeeds, single⟩ := decode_noise bf current quiet passed
  rw [leaves_iff succeeds single, buffer_fourth passed]
  constructor
  · rintro rfl
    exact ⟨rfl, rfl⟩
  · rintro ⟨one, head⟩
    obtain ⟨octet, rfl⟩ := List.length_eq_one_iff.mp one
    rw [Option.some.inj head]

/-- One octet that needs no escape, at the start of the buffer. -/
theorem leaves_one_octet :
    Leaves [0x21] (hdlcDecodeRecivedRawData ⟨200, hdlcState⟩ zeroedClient
      ⟨some [0x7E, 0xFF, 0x10, 0x21, 0x25, 0xA5, 0x7E], ⟨none, 7⟩, fun _ => 0⟩) :=
  (leaves_payload_iff 200 rfl
    (show hdlcFrameData ⟨.iFrame, 0⟩ (some [0x21]) 1 =
      .ok (hdlcFlagSequence :: [0xFF, 0x10, 0x21, 0x25, 0xA5, 0x7E]) by decide +kernel)
    List.not_mem_nil 0 rfl).mpr ⟨rfl, rfl⟩

/-- Of the payload `5, 6` one octet is delivered. -/
theorem not_leaves_two_octets :
    ¬ ∀ (bf : Int) (client : Client) (seqNo : BitVec 3) (payload rest : List Byte),
      seqNo.setWidth 8 = client.currentIndexFrame →
      hdlcFrameData ⟨.iFrame, seqNo⟩ (some payload) payload.length =
        .ok (hdlcFlagSequence :: rest) →
      ∀ noise : List Byte, hdlcFlagSequence ∉ noise → ∀ (flags : Nat) (call : DecodeCall),
      call.buffer = some (noise ++ List.replicate (flags + 1) hdlcFlagSequence ++ rest) →
      Leaves payload (hdlcDecodeRecivedRawData ⟨bf, hdlcState⟩ client call) := by
  intro leaves
  obtain ⟨_, octet, length, delivered, sized, _⟩ := leaves 200 zeroedClient 0 [0x05, 0x06]
    (sentBody ⟨.iFrame, 0⟩ [0x05, 0x06] ++ [hdlcFlagSequence]) rfl (by decide +kernel) []
    List.not_mem_nil 0 ⟨some _, ⟨none, 7⟩, fun _ => 0⟩ rfl
  have one : (hdlcDecodeRecivedRawData ⟨200, hdlcState⟩ zeroedClient
      ⟨some ([] ++ List.replicate (0 + 1) hdlcFlagSequence ++
        (sentBody ⟨.iFrame, 0⟩ [0x05, 0x06] ++ [hdlcFlagSequence])), ⟨none, 7⟩,
          fun _ => 0⟩).delivered = some (0x05, 1) := by
    decide +kernel
  rw [one] at delivered
  cases delivered
  exact absurd sized (by decide)

end HdlcMarquee
