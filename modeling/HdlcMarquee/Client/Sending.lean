/-
**What the client sends.**

`hdlc_send_data` stores the first octet of the payload as the pointer `data_i_frame`, and
`hdlc_get_raw_frame` frames the octets from the address of that field on. `transmits_iff`: the frame
is that of the payload exactly when every octet behind the first happens to be the one that stands in
memory there, so in particular for every payload of a single octet.
-/

import HdlcMarquee.Client.Model

namespace HdlcMarquee

/-- The frame of a payload, sent in two calls: the first succeeds, and the second stores what
`hdlc_frame_data` makes of an I-frame with the payload. -/
def Transmits (client : Client) (data : Nat → Byte) (dataLen : Nat) (layout : Layout) : Prop :=
  ∃ frame, (hdlcSendData client data dataLen).2 = (.ok (), some frame) ∧
    hdlcGetRawFrame (hdlcSendData client data dataLen).1 frame layout =
      hdlcFrameData ⟨.iFrame, 0⟩ (some ((List.range dataLen).map data)) dataLen

/-- The octets that stand in memory behind the first octet of a payload of this length: the high
octets of the pointer, the length, and whatever follows. -/
def octetsBehind (dataLen : Nat) (layout : Layout) (place : Nat) : Byte :=
  if place < layout.sizeofPointer then 0
  else if place < 2 * layout.sizeofPointer then octetAt dataLen (place - layout.sizeofPointer)
  else layout.behind (place - 2 * layout.sizeofPointer)

/-- The client behind a send that succeeds. -/
theorem hdlcSendData_ready {client : Client} (ready : client.state = .readyState)
    (data : Nat → Byte) {dataLen : Nat} (fits : dataLen ≤ sizeDataBuffers) :
    (hdlcSendData client data dataLen).2 = (.ok (), some ⟨.iFrame, 0⟩) ∧
      (hdlcSendData client data dataLen).1.dataIFrame = (data 0).toNat ∧
      (hdlcSendData client data dataLen).1.lenDataIFrame = dataLen := by
  unfold hdlcSendData
  rw [if_neg (not_not_intro ready), if_neg (Nat.not_lt.mpr fits)]
  exact ⟨rfl, rfl, rfl⟩

/-- An octet stored as a pointer: itself, then zeros. -/
theorem octetAt_octet (octet : Byte) (place : Nat) :
    octetAt octet.toNat place = if place = 0 then octet else 0 := by
  unfold octetAt
  split
  · rename_i first
    rw [first, pow_zero, Nat.div_one, BitVec.ofNat_toNat, BitVec.setWidth_eq]
  · rename_i later
    have small : octet.toNat < 256 ^ place :=
      octet.isLt.trans_le (Nat.le_self_pow later 256)
    rw [Nat.div_eq_of_lt small]
    rfl

/-- What a successful send leaves at the address of `data_i_frame`. -/
theorem memory_hdlcSendData {client : Client} (ready : client.state = .readyState)
    (data : Nat → Byte) {dataLen : Nat} (fits : dataLen ≤ sizeDataBuffers) (layout : Layout)
    (place : Nat) :
    (hdlcSendData client data dataLen).1.memory layout place =
      if place = 0 then data 0 else octetsBehind dataLen layout place := by
  obtain ⟨_, pointer, length⟩ := hdlcSendData_ready ready data fits
  unfold Client.memory octetsBehind
  rw [pointer, length, octetAt_octet]
  by_cases first : place = 0
  · rw [if_pos first, if_pos first, if_pos (first.trans_lt layout.positive)]
  · rw [if_neg first, if_neg first]

/-- **The payload is transmitted exactly when memory happens to hold it.** -/
theorem transmits_iff {client : Client} (ready : client.state = .readyState) (data : Nat → Byte)
    {dataLen : Nat} (fits : dataLen ≤ sizeDataBuffers) (layout : Layout) :
    Transmits client data dataLen layout ↔
      ∀ place, 0 < place → place < dataLen → data place = octetsBehind dataLen layout place := by
  have holds := memory_hdlcSendData ready data fits layout
  obtain ⟨answers, _, length⟩ := hdlcSendData_ready ready data fits
  have framed : ∀ octets : Nat → Byte, hdlcFrameData ⟨.iFrame, 0⟩
      (some ((List.range dataLen).map octets)) dataLen =
        .ok (frameBytes ⟨.iFrame, 0⟩ ((List.range dataLen).map octets)) := by
    intro octets
    have sized := hdlcFrameData_some ⟨.iFrame, 0⟩ ((List.range dataLen).map octets)
    rwa [List.length_map, List.length_range] at sized
  have sends : hdlcGetRawFrame (hdlcSendData client data dataLen).1 ⟨.iFrame, 0⟩ layout =
      .ok (frameBytes ⟨.iFrame, 0⟩
        ((List.range dataLen).map ((hdlcSendData client data dataLen).1.memory layout))) := by
    unfold hdlcGetRawFrame
    rw [if_neg (by decide), length, framed]
  constructor
  · rintro ⟨frame, answered, sent⟩ place positive inside
    obtain rfl : (⟨.iFrame, 0⟩ : HdlcControlT) = frame :=
      Option.some.inj (Prod.ext_iff.mp (answers.symm.trans answered)).2
    rw [sends, framed] at sent
    have same := frameBytes_inj (Except.ok.inj sent)
    have octet := List.map_inj_left.mp same place (List.mem_range.mpr inside)
    rw [← octet, holds, if_neg (Nat.ne_of_gt positive)]
  · intro agrees
    refine ⟨⟨.iFrame, 0⟩, answers, ?_⟩
    rw [sends, framed]
    refine congrArg (fun octets => Except.ok (frameBytes ⟨.iFrame, 0⟩ octets))
      (List.map_inj_left.mpr fun place inside => ?_)
    rw [holds]
    split
    · rename_i first
      rw [first]
    · rename_i later
      exact (agrees place (Nat.pos_of_ne_zero later) (List.mem_range.mp inside)).symm

/-- A second octet that is zero is transmitted. -/
theorem transmits_two_octets :
    Transmits { zeroedClient with state := .readyState } (fun place => if place = 0 then 5 else 0) 2
      ⟨2, by decide, fun _ => 0xAA⟩ :=
  (transmits_iff rfl _ (by decide) _).mpr fun place positive inside => by
    obtain rfl : place = 1 := by omega
    rfl

/-- Of the payload `1, 2` the octets `1, 0` are sent. -/
theorem not_transmits_two_octets :
    ¬ ∀ (client : Client) (data : Nat → Byte) (dataLen : Nat) (layout : Layout),
      client.state = .readyState → 1 ≤ dataLen → dataLen ≤ sizeDataBuffers →
      Transmits client data dataLen layout := by
  intro transmits
  obtain ⟨frame, answered, sent⟩ := transmits { zeroedClient with state := .readyState }
    (fun place => BitVec.ofNat 8 (place + 1)) 2 ⟨2, by decide, fun _ => 0xAA⟩ rfl (by decide)
    (by decide)
  obtain rfl : (⟨.iFrame, 0⟩ : HdlcControlT) = frame := Option.some.inj (Prod.ext_iff.mp answered).2
  revert sent
  decide +kernel

end HdlcMarquee
