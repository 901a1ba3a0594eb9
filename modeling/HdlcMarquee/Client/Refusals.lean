/-
**Refused calls and a closed link.**

* `stays_closed_iff`: a client that is disconnecting stays so, and refuses every payload, exactly until
  it is initialised or connects again, or a decode call completes an acknowledgement with the number
  that it waits for: the branch on a received frame does not look at the state.
* `refused_keeps_iff`: a call that fails leaves the client as it was, unless it is a send that finds
  the client ready and the payload too long, whose state is set before the length is looked at.
-/

import HdlcMarquee.Client.Runs

namespace HdlcMarquee

open Generic

/-! ### A closed link -/

/-- The client is disconnecting, and refuses every payload. -/
def Closed (client : Client) : Prop :=
  client.state = .disconnecting ∧
    ∀ data dataLen, (hdlcSendData client data dataLen).2.1 = .error .errInvalidState

/-- A client that is disconnecting refuses every payload. -/
theorem closed_iff (client : Client) : Closed client ↔ client.state = .disconnecting := by
  refine and_iff_left_of_imp fun disconnecting data dataLen => ?_
  have refused : hdlcSendData client data dataLen = (client, .error .errInvalidState, none) :=
    if_pos (by rw [disconnecting]; decide)
  rw [refused]

/-- What opens a closed link behind a run: an initialisation, a connect, and a decode call that
completes an acknowledgement with the number 0 that a connected client waits for. -/
def Reopens (before : List ClientOp) : ClientOp → Prop
  | .init _ => True
  | .op .connect => True
  | .op (.decode call) => Expected .sFrame before call
  | .op _ => False

/-- What a decode call does to a closed link. -/
theorem closed_decode_iff (bf : Int) {before : List ClientOp} {client : Client}
    (indexed : Indexed (connectedBy before) client) (closed : client.state = .disconnecting)
    (call : DecodeCall) :
    (hdlcDecodeRecivedRawData (globalsAt bf (fedBy before)) client call).client.state =
        .disconnecting ↔ ¬ Expected .sFrame before call := by
  rw [decode_client bf (bodies_fedBy before), ← waited_iff indexed]
  cases heard (fedBy before) call with
  | error errno => simp [respond, closed]
  | ok control =>
    rw [respond, hdlcDecodeAccepted_state, closed]
    by_cases acknowledges : control.frame = some .sFrame
    · by_cases current : control.seqNo.setWidth 8 = client.currentIndexFrame
      · simp [acknowledges, current]
      · simp [acknowledges, current]
    · simp [acknowledges]

/-- **What one operation does to a closed link.** -/
theorem closed_operate_iff (bf : Int) (client : Client) (connectingFrameTimeout : Int)
    (before : List ClientOp) (op : ClientOp)
    (closed : (reached bf client connectingFrameTimeout before).2.state = .disconnecting) :
    (reached bf client connectingFrameTimeout (before ++ [op])).2.state = .disconnecting ↔
      ¬ Reopens before op := by
  rw [reached_snoc]
  cases op with
  | init connectingFrameTimeout => simp [operate, initHdlcClient, Reopens]
  | op op =>
    cases op with
    | connect => simp [operate, clientStep, hdlcConnect, Reopens]
    | sendData data dataLen =>
      have refused : (operate (reached bf client connectingFrameTimeout before)
          (.op (.sendData data dataLen))).1.2 =
          (reached bf client connectingFrameTimeout before).2 :=
        congrArg Prod.fst (if_pos (by rw [closed]; decide))
      rw [refused, closed]
      exact iff_of_true rfl not_false
    | getRawFrame frame layout => exact iff_of_true closed not_false
    | decode call =>
      have indexed := reached_indexed bf client connectingFrameTimeout before
      have decoded := closed_decode_iff (reloadOf connectingFrameTimeout before) indexed closed call
      rw [← reached_globals bf client connectingFrameTimeout before] at decoded
      exact decoded
    | timeoutHandler deltaTime => exact iff_of_true closed not_false

/-- A call that fails leaves the client as it was, and a client that was ready can send the next
payload. -/
def RefusedKeeps (world : Globals × Client) : Op → Prop
  | .sendData data dataLen =>
    let sent := hdlcSendData world.2 data dataLen
    sent.2.1 ≠ .ok () → sent.1 = world.2 ∧
      (world.2.state = .readyState → ∀ next nextLen, nextLen ≤ sizeDataBuffers →
        (hdlcSendData sent.1 next nextLen).2.1 = .ok ())
  | .decode call =>
    let decoded := hdlcDecodeRecivedRawData world.1 world.2 call
    decoded.ret = .error (.getData .enomsg) ∨ decoded.ret = .error (.getData .eio) →
      decoded.client = world.2
  | _ => True

/-- The send of a payload that is too long, by a client that is ready. -/
def TooLong (world : Globals × Client) : Op → Prop
  | .sendData _ dataLen => world.2.state = .readyState ∧ sizeDataBuffers < dataLen
  | _ => False

/-- What the parser refuses leaves the client. -/
theorem decode_refused_keeps (globals : Globals) (client : Client) (call : DecodeCall)
    {errno : Errno}
    (refused : (hdlcDecodeRecivedRawData globals client call).ret = .error (.getData errno)) :
    (hdlcDecodeRecivedRawData globals client call).client = client := by
  unfold hdlcDecodeRecivedRawData at refused ⊢
  dsimp only at refused ⊢
  split at refused
  · rfl
  · rw [hdlcDecodeAccepted_answer] at refused
    split at refused <;> cases refused

/-- **A call that fails leaves the client as it was**, exactly unless it sends a payload that is too
long and finds the client ready. -/
theorem refused_keeps_iff (world : Globals × Client) (op : Op) :
    RefusedKeeps world op ↔ ¬ TooLong world op := by
  cases op with
  | sendData data dataLen =>
    unfold RefusedKeeps TooLong
    dsimp only
    rcases hdlcSendData_cases world.2 data dataLen with
      ⟨closed, refused⟩ | ⟨ready, long, sends⟩ | ⟨ready, fits, sends, _⟩
    · rw [refused]
      exact iff_of_true (fun _ => ⟨rfl, fun ready => absurd ready closed⟩) fun tooLong =>
        closed tooLong.1
    · rw [sends]
      refine iff_of_false (fun keeps => ?_) (not_not_intro ⟨ready, long⟩)
      have same := congrArg Client.state (keeps nofun).1
      rw [ready] at same
      cases same
    · rw [sends]
      exact iff_of_true (fun failed => absurd rfl failed) fun tooLong =>
        absurd tooLong.2 (Nat.not_lt.mpr fits)
  | decode call =>
    refine iff_of_true ?_ not_false
    rintro (quiet | damaged)
    · exact decode_refused_keeps world.1 world.2 call quiet
    · exact decode_refused_keeps world.1 world.2 call damaged
  | connect => exact iff_of_true trivial not_false
  | getRawFrame frame layout => exact iff_of_true trivial not_false
  | timeoutHandler deltaTime => exact iff_of_true trivial not_false

/-- A payload of 65 octets is refused, and the client is no longer ready. -/
theorem not_refused_keeps :
    ¬ ∀ (bf : Int) (client : Client) (connectingFrameTimeout : Int) (before : List ClientOp) (op : Op),
      RefusedKeeps (reached bf client connectingFrameTimeout before) op := by
  intro keeps
  have kept := keeps 0 zeroedClient 200
    [.op .connect, .op (.decode ⟨some [0x7E, 0xFF, 0x01, 0x0E, 0xE1, 0x7E], ⟨none, 0⟩, fun _ => 0⟩)]
    (.sendData (fun _ => 0) 65) (by decide +kernel)
  have same := congrArg Client.state kept.1
  revert same
  decide +kernel

end HdlcMarquee
