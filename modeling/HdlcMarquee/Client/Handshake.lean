/-
**The handshake of the client, over whole runs.**

A run is a list of operations on one client, with any arguments and any contents of uninitialised
memory; every operation leaves one event (`clientStep`). `clientStep_effect` says once what an
operation can do to the state and the index that the client waits for, and the invariant of the
handshake follows from it alone.

* `handshake_safe`: a client is ready, and a send succeeds, only behind an acknowledgement that is
  younger than the last connect, the last send that found the client ready and the last reject.
  Before the first connect the client waits for index 20, which no three bits can spell.
-/

import HdlcMarquee.Client.Model
import HdlcMarquee.Generic.Machine

namespace HdlcMarquee

open Generic

/-! ### Operations and their events -/

/-- An operation on a client that has been initialised. -/
inductive Op
  | connect
  | sendData (data : Nat → Byte) (dataLen : Nat)
  | getRawFrame (frame : HdlcControlT) (layout : Layout)
  | decode (call : DecodeCall)
  | timeoutHandler (deltaTime : Int)

/-- What an operation leaves behind for the caller; a send also records the state it found, and a
decode the index that the client waited for. -/
inductive Event
  | connect (frame : HdlcControlT)
  | sendData (found : HDLCState) (ret : Except Err Unit) (frame : Option HdlcControlT)
  | getRawFrame (bytes : Except Errno (List Byte))
  | decode (index : BitVec 8) (recvControl : RecvControl) (ret : Except Err Unit)
      (delivered : Option (Byte × Nat))
  | timeoutHandler (ret : Except Err Unit)
  deriving DecidableEq

/-- One operation of a run. -/
def clientStep (world : Globals × Client) : Op → (Globals × Client) × List Event
  | .connect =>
    let (client, frame) := hdlcConnect world.2
    ((world.1, client), [.connect frame])
  | .sendData data dataLen =>
    let (client, ret, frame) := hdlcSendData world.2 data dataLen
    ((world.1, client), [.sendData world.2.state ret frame])
  | .getRawFrame frame layout => (world, [.getRawFrame (hdlcGetRawFrame world.2 frame layout)])
  | .decode call =>
    let decoded := hdlcDecodeRecivedRawData world.1 world.2 call
    ((decoded.globals, decoded.client),
      [.decode world.2.currentIndexFrame decoded.recvControl decoded.ret decoded.delivered])
  | .timeoutHandler deltaTime =>
    let (client, ret) := hdlcTimeoutHandler world.2 deltaTime
    ((world.1, client), [.timeoutHandler ret])

/-- The events that end what was acknowledged before them: a connect, a send that found the client
ready, and a reject. -/
def Event.Closes : Event → Prop
  | .connect _ => True
  | .sendData found _ _ => found = .readyState
  | .decode _ _ ret _ => ret = .error .errInvalidSeqNumberFrame
  | .getRawFrame _ => False
  | .timeoutHandler _ => False

/-- What an operation can do to the state of a client and to the index that it waits for. -/
inductive Effect (before after : Client) : Event → Prop
  | connects {frame : HdlcControlT} (state : after.state = .connecting) :
      Effect before after (.connect frame)
  | sends {ret : Except Err Unit} {frame : Option HdlcControlT} (ready : before.state = .readyState)
      (state : after.state = .reciving) : Effect before after (.sendData .readyState ret frame)
  | rejects {recvControl : RecvControl} (state : after.state = .disconnecting)
      (index : after.currentIndexFrame = before.currentIndexFrame) :
      Effect before after (.decode before.currentIndexFrame recvControl
        (.error .errInvalidSeqNumberFrame) none)
  | acknowledges {recvControl : RecvControl} (frame : recvControl.frame = some .sFrame)
      (current : recvControl.seqNo.setWidth 8 = before.currentIndexFrame)
      (state : after.state = .readyState)
      (index : after.currentIndexFrame = before.currentIndexFrame) :
      Effect before after (.decode before.currentIndexFrame recvControl (.ok ()) none)
  | keeps {event : Event} (idle : ¬ event.Closes) (state : after.state = before.state)
      (index : after.currentIndexFrame = before.currentIndexFrame) : Effect before after event

/-- The branch on an accepted frame. -/
theorem hdlcDecodeAccepted_effect (globals : Globals) (client : Client) (recvControl : RecvControl)
    (fourth : Byte) :
    Effect client (hdlcDecodeAccepted globals client recvControl fourth).2.1
      (.decode client.currentIndexFrame recvControl
        (hdlcDecodeAccepted globals client recvControl fourth).1
        (hdlcDecodeAccepted globals client recvControl fourth).2.2) := by
  unfold hdlcDecodeAccepted
  by_cases current : recvControl.seqNo.setWidth 8 = client.currentIndexFrame
  · rw [if_neg (not_not_intro current)]
    dsimp only
    split
    · rename_i supervisory
      exact .acknowledges supervisory current rfl rfl
    · exact .keeps (fun closes => by cases closes) rfl rfl
    · exact .rejects rfl rfl
    · exact .keeps (fun closes => by cases closes) rfl rfl
  · rw [if_pos current]
    exact .rejects rfl rfl

/-- **What one operation can do.** -/
theorem clientStep_effect (world : Globals × Client) (op : Op) :
    ∃ event, (clientStep world op).2 = [event] ∧ Effect world.2 (clientStep world op).1.2 event := by
  cases op with
  | connect => exact ⟨_, rfl, .connects rfl⟩
  | sendData data dataLen =>
    refine ⟨_, rfl, ?_⟩
    by_cases ready : world.2.state = .readyState
    · rw [ready]
      refine .sends ready ?_
      simp only [clientStep, hdlcSendData, if_neg (not_not_intro ready)]
      split <;> rfl
    · have refused : hdlcSendData world.2 data dataLen =
          (world.2, .error .errInvalidState, none) := if_pos ready
      refine .keeps ready ?_ ?_
      · simp only [clientStep, refused]
      · simp only [clientStep, refused]
  | getRawFrame frame layout => exact ⟨_, rfl, .keeps id rfl rfl⟩
  | decode call =>
    refine ⟨_, rfl, ?_⟩
    simp only [clientStep, hdlcDecodeRecivedRawData]
    split
    · exact .keeps (fun closes => by cases closes) rfl rfl
    · exact hdlcDecodeAccepted_effect _ _ _ _
  | timeoutHandler deltaTime => exact ⟨_, rfl, .keeps id rfl rfl⟩

/-! ### The invariant -/

/-- The events contain a connect, behind it an acknowledgement of the index, and nothing behind the
acknowledgement that ends it. -/
def Acknowledged (index : BitVec 8) (events : List Event) : Prop :=
  ∃ earlier recvControl later, events =
      earlier ++ .decode index recvControl (.ok ()) none :: later ∧
    recvControl.frame = some .sFrame ∧ recvControl.seqNo.setWidth 8 = index ∧
    (∃ frame, .connect frame ∈ earlier) ∧ ∀ event ∈ later, ¬ event.Closes

theorem Acknowledged.snoc {index : BitVec 8} {events : List Event}
    (acknowledged : Acknowledged index events) {event : Event} (idle : ¬ event.Closes) :
    Acknowledged index (events ++ [event]) := by
  obtain ⟨earlier, recvControl, later, rfl, frame, current, connected, since⟩ := acknowledged
  refine ⟨earlier, recvControl, later ++ [event], by simp, frame, current, connected, ?_⟩
  intro other member
  rcases List.mem_append.mp member with old | new
  · exact since other old
  · rw [List.mem_singleton.mp new]
    exact idle

/-- No three bits spell 20. -/
theorem setWidth_ne_20 (seqNo : BitVec 3) : (seqNo.setWidth 8 : BitVec 8) ≠ 20 := by
  revert seqNo
  decide

/-- The invariant of the handshake. -/
structure Safe (client : Client) (events : List Event) : Prop where
  ready : client.state = .readyState → Acknowledged client.currentIndexFrame events
  unconnected : (∀ frame, .connect frame ∉ events) →
    client.state ≠ .readyState ∧ client.currentIndexFrame = 20

/-- **Every effect keeps the invariant.** -/
theorem Safe.effect {before after : Client} {events : List Event} {event : Event}
    (safe : Safe before events) (effect : Effect before after event) :
    Safe after (events ++ [event]) := by
  have earlier : (∀ frame, .connect frame ∉ events ++ [event]) → ∀ frame, .connect frame ∉ events :=
    fun never frame member => never frame (List.mem_append_left _ member)
  cases effect with
  | @connects frame state =>
    refine ⟨fun ready => ?_, fun never => ?_⟩
    · rw [state] at ready
      cases ready
    · exact absurd (List.mem_append_right _ (List.mem_singleton_self _)) (never frame)
  | sends ready state =>
    refine ⟨fun ready' => ?_, fun never => ?_⟩
    · rw [state] at ready'
      cases ready'
    · exact absurd ready (safe.unconnected (earlier never)).1
  | rejects state index =>
    refine ⟨fun ready => ?_, fun never => ?_⟩
    · rw [state] at ready
      cases ready
    · rw [state, index]
      exact ⟨by decide, (safe.unconnected (earlier never)).2⟩
  | @acknowledges recvControl frame current state index =>
    have connected : ∃ frame, Event.connect frame ∈ events := by
      by_contra never
      rw [not_exists] at never
      exact setWidth_ne_20 _ (current.trans (safe.unconnected never).2)
    refine ⟨fun _ => ?_, fun never => ?_⟩
    · rw [index]
      exact ⟨events, recvControl, [], rfl, frame, current, connected, fun _ none => by cases none⟩
    · obtain ⟨frame, member⟩ := connected
      exact absurd member (earlier never frame)
  | keeps idle state index =>
    refine ⟨fun ready => ?_, fun never => ?_⟩
    · rw [state] at ready
      rw [index]
      exact (safe.ready ready).snoc idle
    · rw [state, index]
      exact safe.unconnected (earlier never)

/-- The invariant holds in every run. -/
theorem safe_run (globals : Globals) (client : Client) (connectingFrameTimeout : Int)
    (ops : List Op) :
    Safe (run clientStep (initHdlcClient globals client connectingFrameTimeout) ops).1.2
      (run clientStep (initHdlcClient globals client connectingFrameTimeout) ops).2 := by
  refine run_invariant clientStep (fun world events => Safe world.2 events) ?_ ops
    (initHdlcClient globals client connectingFrameTimeout) [] ⟨?_, ?_⟩
  · intro world events op safe
    obtain ⟨event, made, effect⟩ := clientStep_effect world op
    rw [made]
    exact safe.effect effect
  · intro ready
    cases ready
  · intro never
    exact ⟨(fun ready => by cases ready), rfl⟩

/-- **Handshake safety.** In every run of an initialised client, the state is ready, and a send
succeeds, only behind an acknowledgement of the current index that follows a connect and is younger
than everything that ends one. -/
theorem handshake_safe (globals : Globals) (client : Client) (connectingFrameTimeout : Int)
    (ops : List Op) :
    let ran := run clientStep (initHdlcClient globals client connectingFrameTimeout) ops
    (ran.1.2.state = .readyState → Acknowledged ran.1.2.currentIndexFrame ran.2) ∧
      ∀ data dataLen, (hdlcSendData ran.1.2 data dataLen).2.1 = .ok () →
        Acknowledged ran.1.2.currentIndexFrame ran.2 := by
  intro ran
  have safe := safe_run globals client connectingFrameTimeout ops
  refine ⟨safe.ready, fun data dataLen sent => safe.ready ?_⟩
  by_contra closed
  unfold hdlcSendData at sent
  rw [if_pos closed] at sent
  cases sent

/-- A connect and its acknowledgement make a client ready. -/
example : (run clientStep (initHdlcClient ⟨0, hdlcState⟩ zeroedClient 200)
    [.connect, .decode ⟨some [0x7E, 0xFF, 0x01, 0x0E, 0xE1, 0x7E], ⟨none, 7⟩,
      fun _ => 0⟩]).1.2.state = .readyState := by
  decide +kernel

end HdlcMarquee
