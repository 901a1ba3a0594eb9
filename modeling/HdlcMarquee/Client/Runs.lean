/-
**Whole runs of one client, from the start of the program.**

A run here may also initialise the client again. What the parser and the reload value hold after it is
a function of the calls made, whatever they did to the client (`run_operate_globals`); what a decode
call does to the client depends on the line only through the control field it finds, or the error
(`heard`, `decode_heard`); and the index that the client waits for says whether it has connected
(`reached_indexed`).
-/

import HdlcMarquee.Client.Decoding
import HdlcMarquee.Client.Handshake

namespace HdlcMarquee

open Generic

/-! ### Runs -/

/-- An operation of a run. -/
inductive ClientOp
  | init (connectingFrameTimeout : Int)
  | op (op : Op)

/-- One operation. -/
def operate (world : Globals × Client) : ClientOp → (Globals × Client) × List Event
  | .init connectingFrameTimeout => (initHdlcClient world.1 world.2 connectingFrameTimeout, [])
  | .op op => clientStep world op

/-- The `hdlc_decode_recived_raw_data` call that an operation is, if it is one. -/
def ClientOp.decodeCall : ClientOp → Option DecodeCall
  | .op (.decode call) => some call
  | _ => none

/-- The bytes since the last completed frame, behind a run. -/
def fedBy (ops : List ClientOp) : List Byte :=
  (run bufferStep [] (ops.filterMap ClientOp.decodeCall)).1

/-- The reload value behind an operation. -/
def ClientOp.reload (bf : Int) : ClientOp → Int
  | .init connectingFrameTimeout => connectingFrameTimeout
  | .op _ => bf

/-- The timeout of the last `init_hdlc_client` call, or the value before the run. -/
def reloadOf (bf : Int) (ops : List ClientOp) : Int := ops.foldl ClientOp.reload bf

/-- Whether the client is connected behind an operation. -/
def ClientOp.connects (connected : Bool) : ClientOp → Bool
  | .init _ => false
  | .op .connect => true
  | .op _ => connected

/-- Whether the last `init_hdlc_client` or `hdlc_connect` call of a run is a connect. -/
def connectedBy (ops : List ClientOp) : Bool := ops.foldl ClientOp.connects false

/-- The world behind a run that begins by initialising the client. -/
def reached (bf : Int) (client : Client) (connectingFrameTimeout : Int) (ops : List ClientOp) :
    Globals × Client :=
  (run operate (initHdlcClient ⟨bf, hdlcState⟩ client connectingFrameTimeout) ops).1

theorem reached_snoc (bf : Int) (client : Client) (connectingFrameTimeout : Int)
    (ops : List ClientOp) (op : ClientOp) :
    reached bf client connectingFrameTimeout (ops ++ [op]) =
      (operate (reached bf client connectingFrameTimeout ops) op).1 := by
  unfold reached
  rw [run_append, run_singleton]

theorem fedBy_snoc (ops : List ClientOp) (op : ClientOp) :
    fedBy (ops ++ [op]) =
      (op.decodeCall.map fun call => (bufferStep (fedBy ops) call).1).getD (fedBy ops) := by
  unfold fedBy
  rw [List.filterMap_append, run_append]
  cases decodes : op.decodeCall with
  | none => rw [List.filterMap_cons_none decodes]; rfl
  | some call => rw [List.filterMap_cons_some decodes]; rfl

theorem reloadOf_snoc (bf : Int) (ops : List ClientOp) (op : ClientOp) :
    reloadOf bf (ops ++ [op]) = op.reload (reloadOf bf ops) := by
  unfold reloadOf
  rw [List.foldl_append]
  rfl

theorem connectedBy_snoc (ops : List ClientOp) (op : ClientOp) :
    connectedBy (ops ++ [op]) = op.connects (connectedBy ops) := by
  unfold connectedBy
  rw [List.foldl_append]
  rfl

/-- Between two operations nothing is complete. -/
theorem bodies_fedBy (ops : List ClientOp) : bodies (fedBy ops) = [] := by
  induction ops using List.reverseRecOn with
  | nil => rfl
  | append_singleton ops op ih =>
    rw [fedBy_snoc]
    cases op.decodeCall with
    | none => exact ih
    | some call => exact bodies_bufferStep ih call

/-! ### The globals -/

/-- Only a decode call moves the parser, and only an initialisation sets the reload value. -/
theorem operate_globals (bf : Int) {fed : List Byte} (before : bodies fed = []) (client : Client)
    (op : ClientOp) :
    (operate (globalsAt bf fed, client) op).1.1 =
      globalsAt (op.reload bf)
        ((op.decodeCall.map fun call => (bufferStep fed call).1).getD fed) := by
  cases op with
  | init connectingFrameTimeout => rfl
  | op op =>
    cases op with
    | decode call => exact decode_globals bf client before call
    | _ => rfl

/-- **The globals behind a run** are a function of its calls. -/
theorem run_operate_globals (bf : Int) (client : Client) (ops : List ClientOp) :
    (run operate (⟨bf, hdlcState⟩, client) ops).1.1 = globalsAt (reloadOf bf ops) (fedBy ops) := by
  induction ops using List.reverseRecOn with
  | nil => rfl
  | append_singleton ops op ih =>
    rw [run_append, run_singleton, fedBy_snoc, reloadOf_snoc]
    generalize run operate (⟨bf, hdlcState⟩, client) ops = ran at ih
    obtain ⟨⟨globals, client'⟩, events⟩ := ran
    obtain rfl : globals = globalsAt (reloadOf bf ops) (fedBy ops) := ih
    exact operate_globals _ (bodies_fedBy ops) client' op

theorem reached_globals (bf : Int) (client : Client) (connectingFrameTimeout : Int)
    (ops : List ClientOp) :
    (reached bf client connectingFrameTimeout ops).1 =
      globalsAt (reloadOf connectingFrameTimeout ops) (fedBy ops) :=
  run_operate_globals connectingFrameTimeout _ ops

/-! ### What a decode call hears -/

/-- The control field that a call finds in `recv_control` when its buffer completes a body: that of
the body, if the control octet is in the buffer and not an escape. -/
def foundControl (fed body : List Byte) (recvControl : RecvControl) : RecvControl :=
  if (position fed).body.length ≤ 1 then ((controlOf body).map RecvControl.of).getD recvControl
  else recvControl

/-- What a call hears behind bytes that complete no frame: the control field of a good frame, or the
error of the parser. -/
def heard (fed : List Byte) (call : DecodeCall) : Except Errno RecvControl :=
  match call.buffer with
  | none => .error .einval
  | some buffer =>
    match bodies (fed ++ buffer) with
    | [] => .error .enomsg
    | body :: _ =>
      if Accepted body then .ok (foundControl fed body call.recvControl) else .error .eio

/-- What a call makes of what it hears: the return value, the client, and what it delivers. -/
def respond (bf : Int) (client : Client) (call : DecodeCall) :
    Except Errno RecvControl → Except Err Unit × Client × Option (Byte × Nat)
  | .error errno => (.error (.getData errno), client, none)
  | .ok control => hdlcDecodeAccepted (globalsAt bf []) client control call.fourth

section Respond

variable (bf : Int) {fed : List Byte} (before : bodies fed = []) (client : Client) (call : DecodeCall)
include before

/-- **What a call does to the client** depends on the line only through what it hears. -/
theorem decode_heard :
    ((hdlcDecodeRecivedRawData (globalsAt bf fed) client call).ret,
      (hdlcDecodeRecivedRawData (globalsAt bf fed) client call).client,
      (hdlcDecodeRecivedRawData (globalsAt bf fed) client call).delivered) =
      respond bf client call (heard fed call) := by
  cases passed : call.buffer with
  | none =>
    rw [decode_null client passed (globalsAt bf fed)]
    simp only [heard, passed, respond]
  | some buffer =>
    cases completes : bodies (fed ++ buffer) with
    | nil =>
      rw [decode_waits bf client passed before completes]
      simp only [heard, passed, completes, respond]
    | cons body more =>
      have control : call.recvControl.putAll (bufferStores fed buffer) =
          foundControl fed body call.recvControl := by
        rw [putAll_bufferStores, received_completes before completes]
        rfl
      rw [decode_completes bf client passed before completes, control]
      by_cases accepted : Accepted body
      · simp only [heard, passed, completes, respond, if_pos accepted]
      · simp only [heard, passed, completes, respond, if_neg accepted]

theorem decode_ret :
    (hdlcDecodeRecivedRawData (globalsAt bf fed) client call).ret =
      (respond bf client call (heard fed call)).1 :=
  congrArg Prod.fst (decode_heard bf before client call)

theorem decode_client :
    (hdlcDecodeRecivedRawData (globalsAt bf fed) client call).client =
      (respond bf client call (heard fed call)).2.1 :=
  congrArg (fun result => result.2.1) (decode_heard bf before client call)

theorem decode_delivered :
    (hdlcDecodeRecivedRawData (globalsAt bf fed) client call).delivered =
      (respond bf client call (heard fed call)).2.2 :=
  congrArg (fun result => result.2.2) (decode_heard bf before client call)

end Respond

/-- What hears a good frame has completed it. -/
theorem bufferStep_of_heard {fed : List Byte} {call : DecodeCall} {control : RecvControl}
    (hears : heard fed call = .ok control) : (bufferStep fed call).1 = [] := by
  cases passed : call.buffer with
  | none =>
    simp only [heard, passed] at hears
    cases hears
  | some buffer =>
    rw [bufferStep_some passed]
    cases completes : bodies (fed ++ buffer) with
    | nil =>
      simp only [heard, passed, completes] at hears
      cases hears
    | cons body more => rw [frameStep_completes completes]

/-- **Only the frame in progress matters** for what a call hears. -/
theorem heard_inProgress {fed fed' : List Byte} (before : bodies fed = []) (before' : bodies fed' = [])
    (same : (position fed).inProgress = (position fed').inProgress) (call : DecodeCall) :
    heard fed call = heard fed' call := by
  have found : foundControl fed = foundControl fed' := by
    funext body recvControl
    unfold foundControl
    rw [body_eq_inProgress, body_eq_inProgress, same]
  cases passed : call.buffer with
  | none => simp only [heard, passed]
  | some buffer =>
    have completed : bodies (fed ++ buffer) = bodies (fed' ++ buffer) := by
      rw [bodies_append, bodies_append, before, before', run_inProgress buffer same]
    simp only [heard, passed, completed, found]

/-! ### The index -/

theorem decode_index (globals : Globals) (client : Client) (call : DecodeCall) :
    (hdlcDecodeRecivedRawData globals client call).client.currentIndexFrame =
      client.currentIndexFrame := by
  unfold hdlcDecodeRecivedRawData
  dsimp only
  split
  · rfl
  · exact hdlcDecodeAccepted_index _ _ _ _

/-- **What a send can do**: refuse, find the payload too long, or accept it. -/
theorem hdlcSendData_cases (client : Client) (data : Nat → Byte) (dataLen : Nat) :
    (client.state ≠ .readyState ∧
      hdlcSendData client data dataLen = (client, .error .errInvalidState, none)) ∨
    (client.state = .readyState ∧ sizeDataBuffers < dataLen ∧
      hdlcSendData client data dataLen =
        ({ client with state := .reciving }, .error .errInvalidDataSize, none)) ∨
    (client.state = .readyState ∧ dataLen ≤ sizeDataBuffers ∧
      (hdlcSendData client data dataLen).2 = (.ok (), some ⟨.iFrame, 0⟩) ∧
      (hdlcSendData client data dataLen).1.state = .reciving ∧
      (hdlcSendData client data dataLen).1.currentIndexFrame = 0) := by
  by_cases ready : client.state = .readyState
  · right
    unfold hdlcSendData
    rw [if_neg (not_not_intro ready)]
    by_cases long : sizeDataBuffers < dataLen
    · exact Or.inl ⟨ready, long, if_pos long⟩
    · dsimp only
      rw [if_neg long]
      exact Or.inr ⟨ready, Nat.not_lt.mp long, rfl, rfl, rfl⟩
  · exact Or.inl ⟨ready, if_pos ready⟩

/-- A client is idle or ready only with the index that goes with it. -/
structure Indexed (connected : Bool) (client : Client) : Prop where
  index : client.currentIndexFrame = if connected then 0 else 20
  initialised : client.state ≠ .uninitializedState
  idle : client.state = .idleState → connected = false
  ready : client.state = .readyState → connected = true

/-- A decode call keeps the state, closes the link, or opens it behind a connect. -/
theorem decode_state (globals : Globals) (client : Client) (call : DecodeCall) :
    (hdlcDecodeRecivedRawData globals client call).client.state = client.state ∨
      (hdlcDecodeRecivedRawData globals client call).client.state = .disconnecting ∨
      (hdlcDecodeRecivedRawData globals client call).client.state = .readyState ∧
        client.currentIndexFrame ≠ 20 := by
  obtain ⟨event, made, effect⟩ := clientStep_effect (globals, client) (.decode call)
  cases effect with
  | connects => cases made
  | sends => cases made
  | rejects state => exact Or.inr (Or.inl state)
  | acknowledges frame current state =>
    exact Or.inr (Or.inr ⟨state, fun unconnected => setWidth_ne_20 _ (current.trans unconnected)⟩)
  | keeps idle state => exact Or.inl state

theorem Indexed.decode {connected : Bool} {client : Client} (indexed : Indexed connected client)
    (globals : Globals) (call : DecodeCall) :
    Indexed connected (hdlcDecodeRecivedRawData globals client call).client := by
  have index := (decode_index globals client call).trans indexed.index
  rcases decode_state globals client call with same | closed | ⟨opened, asked⟩
  · refine ⟨index, ?_, ?_, ?_⟩ <;> rw [same]
    · exact indexed.initialised
    · exact indexed.idle
    · exact indexed.ready
  · refine ⟨index, ?_, ?_, ?_⟩ <;> rw [closed] <;> exact nofun
  · have connected' : connected = true := by
      by_contra unconnected
      rw [indexed.index, if_neg unconnected] at asked
      exact asked rfl
    refine ⟨index, ?_, ?_, fun _ => connected'⟩ <;> rw [opened] <;> exact nofun

/-- **Every operation keeps the index in step with the connection.** -/
theorem Indexed.operate {ops : List ClientOp} {world : Globals × Client}
    (indexed : Indexed (connectedBy ops) world.2) (op : ClientOp) :
    Indexed (connectedBy (ops ++ [op])) (operate world op).1.2 := by
  rw [connectedBy_snoc]
  generalize connectedBy ops = connected at indexed
  cases op with
  | init connectingFrameTimeout => exact ⟨rfl, nofun, fun _ => rfl, nofun⟩
  | op op =>
    cases op with
    | connect => exact ⟨rfl, nofun, nofun, fun _ => rfl⟩
    | sendData data dataLen =>
      have keeps : ClientOp.connects connected (.op (.sendData data dataLen)) = connected := rfl
      rw [keeps]
      unfold HdlcMarquee.operate clientStep
      dsimp only
      rcases hdlcSendData_cases world.2 data dataLen with
        ⟨_, refused⟩ | ⟨ready, _, long⟩ | ⟨ready, _, _, state, index⟩
      · rw [refused]
        exact indexed
      · rw [long]
        exact ⟨indexed.index, nofun, nofun, fun _ => indexed.ready ready⟩
      · have connected' : connected = true := indexed.ready ready
        refine ⟨?_, ?_, ?_, fun _ => connected'⟩
        · rw [if_pos connected']
          exact index
        · exact fun other => by cases state.symm.trans other
        · exact fun other => by cases state.symm.trans other
    | getRawFrame frame layout => exact indexed
    | decode call => exact indexed.decode world.1 call
    | timeoutHandler deltaTime =>
      exact ⟨indexed.index, indexed.initialised, indexed.idle, indexed.ready⟩

/-- The index behind a run. -/
theorem reached_indexed (bf : Int) (client : Client) (connectingFrameTimeout : Int)
    (ops : List ClientOp) :
    Indexed (connectedBy ops) (reached bf client connectingFrameTimeout ops).2 := by
  induction ops using List.reverseRecOn with
  | nil => exact ⟨rfl, nofun, fun _ => rfl, nofun⟩
  | append_singleton ops op ih =>
    rw [reached_snoc]
    exact ih.operate op

/-- Behind a run, a call hears a good frame of a type with the number 0 that a connected client waits
for. -/
def Expected (frame : HdlcFrameT) (before : List ClientOp) (call : DecodeCall) : Prop :=
  connectedBy before = true ∧
    ∃ control, heard (fedBy before) call = .ok control ∧ control.frame = some frame ∧
      control.seqNo = 0

instance (frame : HdlcFrameT) (before : List ClientOp) (call : DecodeCall) :
    Decidable (Expected frame before call) :=
  match hears : heard (fedBy before) call with
  | .ok control =>
    decidable_of_iff (connectedBy before = true ∧ control.frame = some frame ∧ control.seqNo = 0)
      (by simp [Expected, hears])
  | .error errno => .isFalse (by simp [Expected, hears])

theorem setWidth_eq_zero (seqNo : BitVec 3) : (seqNo.setWidth 8 : BitVec 8) = 0 ↔ seqNo = 0 := by
  revert seqNo
  decide

/-- The number that a client waits for is 0 behind a connect, and none before it. -/
theorem current_iff {connected : Bool} {client : Client} (indexed : Indexed connected client)
    (seqNo : BitVec 3) :
    seqNo.setWidth 8 = client.currentIndexFrame ↔ connected = true ∧ seqNo = 0 := by
  rw [indexed.index]
  cases connected with
  | true => simpa using setWidth_eq_zero seqNo
  | false => simpa using setWidth_ne_20 seqNo

theorem waited_iff {before : List ClientOp} {client : Client}
    (indexed : Indexed (connectedBy before) client) (frame : HdlcFrameT) (call : DecodeCall) :
    (∃ control, heard (fedBy before) call = .ok control ∧ control.frame = some frame ∧
        control.seqNo.setWidth 8 = client.currentIndexFrame) ↔
      Expected frame before call := by
  simp only [current_iff indexed]
  unfold Expected
  constructor
  · rintro ⟨control, hears, type, connected, number⟩
    exact ⟨connected, control, hears, type, number⟩
  · rintro ⟨connected, control, hears, type, number⟩
    exact ⟨control, hears, type, connected, number⟩

end HdlcMarquee
