/-
**Two clients on a line.**

Each side has a parser and a client of its own, and may do anything that a client can do, in any order
and at any time; it transmits the frames whose control fields the client has handed to it, as often as it
likes. The line loses, repeats and reorders frames and adds noise without flags; it damages frames only
between their flags, and only in ways that the frame check notices; and it brings the beginning and the end
of a frame in one buffer, as the gap that `UART_receive` waits for makes it do. A flag that is lost or hit,
and a frame that is cut, would leave a part of a frame in the parser; they are left out.

* `link_safe`: whatever the order of the steps, a side is ready only when both have connected, it delivers
  only what the other side has sent on an open link, and a link is closed only when one of the sides has
  been spoken to before it connected.
* `link_opens`: from every state of such a link, two connects and the exchange of their frames open it.
-/

import HdlcMarquee.Client.Runs
import HdlcMarquee.Client.RawFrame

namespace HdlcMarquee

open Generic

/-! ### What the line brings -/

/-- A buffer that arrives, behind noise without flags: nothing else, a frame that is damaged between its
flags so that the check fails, or one of the frames that were transmitted. Both flags of the frame are in
the buffer, and what follows it there may be anything. -/
inductive Arrival
  | idle (noise : List Byte) (quiet : hdlcFlagSequence ∉ noise)
  | damaged (noise : List Byte) (quiet : hdlcFlagSequence ∉ noise) (body : List Byte)
      (bodyQuiet : hdlcFlagSequence ∉ body) (bad : body ≠ [] ∧ ¬ Accepted body) (rest : List Byte)
  | frame (noise : List Byte) (quiet : hdlcFlagSequence ∉ noise) (number : Nat) (rest : List Byte)

/-- The bytes of the buffer; the frame is given by its place among those transmitted. -/
def Arrival.buffer (transmitted : List (List Byte)) : Arrival → Option (List Byte)
  | .idle noise _ => some noise
  | .damaged noise _ body _ _ rest =>
    some (noise ++ hdlcFlagSequence :: (body ++ hdlcFlagSequence :: rest))
  | .frame noise _ number rest => transmitted[number]?.map fun bytes => noise ++ (bytes ++ rest)

/-- The first frame of a buffer, behind noise and whatever follows it. -/
theorem bodies_first {noise body : List Byte} (quiet : hdlcFlagSequence ∉ noise) (nonempty : body ≠ [])
    (bodyQuiet : hdlcFlagSequence ∉ body) (flags : Nat) (rest : List Byte) :
    ∃ more, bodies (noise ++ List.replicate (flags + 1) hdlcFlagSequence ++ (body ++ [hdlcFlagSequence]) ++
      rest) = body :: more := by
  rw [bodies_append, bodies_frame quiet nonempty bodyQuiet flags]
  exact ⟨_, rfl⟩

/-- A frame of the encoder is heard with its own control field, behind noise and flags. -/
theorem heard_sent {fed buffer noise : List Byte} {flags : Nat} {control : HdlcControlT}
    {payload rest : List Byte} (quiet : hdlcFlagSequence ∉ noise)
    (fresh : (position fed).body = [])
    (line : fed ++ buffer = noise ++ List.replicate (flags + 1) hdlcFlagSequence ++
      (sentBody control payload ++ [hdlcFlagSequence]) ++ rest)
    {call : DecodeCall} (passed : call.buffer = some buffer) :
    heard fed call = .ok (.of control) := by
  obtain ⟨accepted, found, _⟩ := sentBody_spec control payload
  have nonempty : sentBody control payload ≠ [] :=
    List.ne_nil_of_length_pos (le_trans (by decide) accepted.1)
  obtain ⟨more, completes⟩ := bodies_first quiet nonempty (sentBody_quiet control payload) flags rest
  have behind : (position fed).body.length ≤ 1 := by
    rw [fresh]
    exact Nat.zero_le _
  simp only [heard, passed, line, completes, if_pos accepted, foundControl, if_pos behind, found]
  rfl

/-- A frame of the encoder is heard by a parser that hunts for a flag. -/
theorem heard_frame {fed noise : List Byte} (hunting : hdlcFlagSequence ∉ fed ++ noise)
    (control : HdlcControlT) (payload rest : List Byte) {call : DecodeCall}
    (passed : call.buffer = some (noise ++ (frameBytes control payload ++ rest))) :
    heard fed call = .ok (.of control) := by
  have quiet : hdlcFlagSequence ∉ fed := fun member => hunting (List.mem_append_left _ member)
  have fresh : (position fed).body = [] := by
    rw [position, run_hunting quiet]
    rfl
  have bytes : fed ++ (noise ++ (frameBytes control payload ++ rest)) = fed ++ noise ++
      List.replicate (0 + 1) hdlcFlagSequence ++ (sentBody control payload ++ [hdlcFlagSequence]) ++
        rest := by
    simp [frameBytes]
  exact heard_sent hunting fresh bytes passed

/-- **What an arrival is heard as**: an error, or the control field of a frame that was transmitted; behind
it the parser hunts for a flag again. -/
theorem heard_arrival {fed : List Byte} (hunting : hdlcFlagSequence ∉ fed)
    {transmitted : List (List Byte)} {vouched : HdlcControlT → Prop}
    (genuine : ∀ bytes ∈ transmitted, ∃ control payload,
      vouched control ∧ bytes = frameBytes control payload)
    (arrival : Arrival) {call : DecodeCall} (arrives : arrival.buffer transmitted = call.buffer)
    (some : call.buffer ≠ none) :
    hdlcFlagSequence ∉ (bufferStep fed call).1 ∧
      ((∃ errno, heard fed call = .error errno) ∨
        ∃ control, vouched control ∧ heard fed call = .ok (.of control)) := by
  have joined {noise : List Byte} (quiet : hdlcFlagSequence ∉ noise) : hdlcFlagSequence ∉ fed ++ noise := by
    rw [List.mem_append, not_or]
    exact ⟨hunting, quiet⟩
  cases arrival with
  | idle noise quiet =>
    have passed : call.buffer = Option.some noise := arrives.symm
    have waits := bodies_noise (joined quiet)
    rw [bufferStep_some passed, frameStep_waits waits]
    refine ⟨joined quiet, .inl ⟨.enomsg, ?_⟩⟩
    simp only [heard, passed, waits]
  | damaged noise quiet body bodyQuiet bad rest =>
    have passed : call.buffer =
        Option.some (noise ++ hdlcFlagSequence :: (body ++ hdlcFlagSequence :: rest)) := arrives.symm
    have cut : fed ++ (noise ++ hdlcFlagSequence :: (body ++ hdlcFlagSequence :: rest)) = fed ++ noise ++
        List.replicate (0 + 1) hdlcFlagSequence ++ (body ++ [hdlcFlagSequence]) ++ rest := by
      simp
    obtain ⟨more, completes⟩ := bodies_first (joined quiet) bad.1 bodyQuiet 0 rest
    rw [← cut] at completes
    rw [bufferStep_some passed, frameStep_completes completes]
    refine ⟨List.not_mem_nil, .inl ⟨.eio, ?_⟩⟩
    simp only [heard, passed, completes, if_neg bad.2]
  | frame noise quiet number rest =>
    cases found : transmitted[number]? with
    | none =>
      rw [← arrives, Arrival.buffer, found] at some
      exact absurd rfl some
    | some bytes =>
      obtain ⟨control, payload, vouches, rfl⟩ := genuine bytes (List.mem_of_getElem? found)
      have passed : call.buffer = Option.some (noise ++ (frameBytes control payload ++ rest)) := by
        rw [← arrives, Arrival.buffer, found]
        rfl
      have hears := heard_frame (joined quiet) control payload rest passed
      rw [bufferStep_of_heard hears]
      exact ⟨List.not_mem_nil, .inr ⟨control, vouches, hears⟩⟩

/-! ### The link -/

inductive Side
  | near
  | far
  deriving DecidableEq

def Side.other : Side → Side
  | .near => .far
  | .far => .near

/-- One side: its parser and its client, the control fields that the client has handed to the caller, and
the frames that the caller has transmitted. -/
structure Party where
  world : Globals × Client
  handed : List HdlcControlT
  transmitted : List (List Byte)

/-- What a side can do. It transmits by the place of a control field among those handed to it. -/
inductive LinkOp
  | init (connectingFrameTimeout : Int)
  | connect
  | sendData (data : Nat → Byte) (dataLen : Nat)
  | timeoutHandler (deltaTime : Int)
  | transmit (number : Nat) (layout : Layout)
  | receive (arrival : Arrival) (recvControl : RecvControl) (behind : Nat → Byte)

/-- The operation on the client. There is none if no such control field has been handed out, or no such
frame has been transmitted on the other side. -/
def LinkOp.clientOp (line : List (List Byte)) (party : Party) : LinkOp → Option ClientOp
  | .init connectingFrameTimeout => some (.init connectingFrameTimeout)
  | .connect => some (.op .connect)
  | .sendData data dataLen => some (.op (.sendData data dataLen))
  | .timeoutHandler deltaTime => some (.op (.timeoutHandler deltaTime))
  | .transmit number layout => party.handed[number]?.map fun control => .op (.getRawFrame control layout)
  | .receive arrival recvControl behind =>
    (arrival.buffer line).map fun buffer => .op (.decode ⟨some buffer, recvControl, behind⟩)

/-- The control fields that an operation hands to the caller: the last is the reject that the decoder has
prepared in `frame_rej`. -/
def handedBy (client : Client) : Event → List HdlcControlT
  | .connect frame => [frame]
  | .sendData _ _ frame => frame.toList
  | .decode _ _ (.error .errInvalidSeqNumberFrame) _ => [client.frameRej]
  | _ => []

def transmittedBy : Event → List (List Byte)
  | .getRawFrame (.ok bytes) => [bytes]
  | _ => []

/-- One operation of a side. -/
def Party.perform (party : Party) (op : ClientOp) : Party × List Event :=
  let (world, events) := operate party.world op
  (⟨world, party.handed ++ events.flatMap (handedBy world.2),
    party.transmitted ++ events.flatMap transmittedBy⟩, events)

abbrev Link := Side → Party

/-- One step of the link: what a side does. -/
def linkStep (link : Link) (turn : Side × LinkOp) : Link × List (Side × Event) :=
  match turn.2.clientOp (link turn.1.other).transmitted (link turn.1) with
  | none => (link, [])
  | some op =>
    let (party, events) := (link turn.1).perform op
    (Function.update link turn.1 party, events.map (Prod.mk turn.1))

theorem linkStep_does {link : Link} {side : Side} {op : LinkOp} {clientOp : ClientOp}
    (does : op.clientOp (link side.other).transmitted (link side) = some clientOp) :
    linkStep link (side, op) = (Function.update link side ((link side).perform clientOp).1,
      ((link side).perform clientOp).2.map (Prod.mk side)) := by
  unfold linkStep
  dsimp only
  rw [does]

/-- The link behind some turns. -/
def Link.after (link : Link) (turns : List (Side × LinkOp)) : Link := (run linkStep link turns).1

theorem after_append (link : Link) (first second : List (Side × LinkOp)) :
    link.after (first ++ second) = (link.after first).after second := by
  unfold Link.after
  rw [run_append]

/-- Both sides behind `init_hdlc_client`. -/
def linkStart (bf : Side → Int) (client : Side → Client) (connectingFrameTimeout : Side → Int) : Link :=
  fun side => ⟨initHdlcClient ⟨bf side, hdlcState⟩ (client side) (connectingFrameTimeout side), [], []⟩

/-! ### What a side can do -/

/-- An event that opens, sends and delivers nothing. -/
def Event.Idle : Event → Prop
  | .sendData _ (.error _) none | .decode _ _ (.error (.getData _)) none | .timeoutHandler _ => True
  | _ => False

/-- **What an operation does**, when the control fields that are heard and those that are transmitted are
known. -/
inductive Turn (heard own : HdlcControlT → Prop) (before after : Client) : List Event → Prop
  | starts (state : after.state = .idleState) (index : after.currentIndexFrame = 20) :
      Turn heard own before after []
  | connects (state : after.state = .connecting) (index : after.currentIndexFrame = 0) :
      Turn heard own before after [.connect ⟨.sFrame, 0⟩]
  | sends (ready : before.state = .readyState) (state : after.state = .reciving)
      (index : after.currentIndexFrame = 0) :
      Turn heard own before after [.sendData .readyState (.ok ()) (some ⟨.iFrame, 0⟩)]
  | transmits {control : HdlcControlT} {payload : List Byte} (issued : own control)
      (same : after = before) :
      Turn heard own before after [.getRawFrame (.ok (frameBytes control payload))]
  | rejects {recvControl : RecvControl} {control : HdlcControlT} (vouched : heard control)
      (refused : control.seqNo.setWidth 8 = before.currentIndexFrame → control.frame = .sFrameNack)
      (state : after.state = .disconnecting) (index : after.currentIndexFrame = before.currentIndexFrame)
      (prepared : after.frameRej = ⟨.sFrameNack, 0⟩) :
      Turn heard own before after
        [.decode before.currentIndexFrame recvControl (.error .errInvalidSeqNumberFrame) none]
  | acknowledges {index : BitVec 8} {recvControl : RecvControl} {control : HdlcControlT}
      (vouched : heard control) (kind : control.frame = .sFrame)
      (current : control.seqNo.setWidth 8 = before.currentIndexFrame) (state : after.state = .readyState)
      (same : after.currentIndexFrame = before.currentIndexFrame) :
      Turn heard own before after [.decode index recvControl (.ok ()) none]
  | delivers {index : BitVec 8} {recvControl : RecvControl} {control : HdlcControlT}
      {delivered : Byte × Nat} (vouched : heard control) (kind : control.frame = .iFrame)
      (state : after.state = before.state) (same : after.currentIndexFrame = before.currentIndexFrame) :
      Turn heard own before after [.decode index recvControl (.ok ()) (some delivered)]
  | idles {event : Event} (idle : event.Idle)
      (state : after.state = before.state ∨ after.state = .reciving)
      (same : after.currentIndexFrame = before.currentIndexFrame) : Turn heard own before after [event]

/-- The branch on an accepted frame. -/
theorem hdlcDecodeAccepted_turn {heard : HdlcControlT → Prop} (own : HdlcControlT → Prop)
    (globals : Globals) (client : Client) {control : HdlcControlT} (vouched : heard control)
    (recvControl : RecvControl) (fourth : Byte) :
    Turn heard own client (hdlcDecodeAccepted globals client (.of control) fourth).2.1
      [.decode client.currentIndexFrame recvControl
        (hdlcDecodeAccepted globals client (.of control) fourth).1
        (hdlcDecodeAccepted globals client (.of control) fourth).2.2] := by
  obtain ⟨frame, seqNo⟩ := control
  unfold hdlcDecodeAccepted RecvControl.of
  by_cases current : seqNo.setWidth 8 = client.currentIndexFrame
  · rw [if_neg (not_not_intro current)]
    cases frame with
    | iFrame => exact .delivers vouched rfl rfl rfl
    | sFrame => exact .acknowledges vouched rfl current rfl rfl
    | sFrameNack => exact .rejects vouched (fun _ => rfl) rfl rfl rfl
  · rw [if_pos current]
    exact .rejects vouched (fun same => absurd same current) rfl rfl rfl

/-- **Every step of a side** that the parser is ready for is such an operation, and leaves the parser ready
for the next one. -/
theorem clientOp_turn {heard own : HdlcControlT → Prop} {line : List (List Byte)} {party : Party}
    (genuine : ∀ bytes ∈ line, ∃ control payload, heard control ∧ bytes = frameBytes control payload)
    (issued : ∀ control ∈ party.handed, own control) {bf : Int} {fed : List Byte}
    (hunting : hdlcFlagSequence ∉ fed) (parser : party.world.1 = globalsAt bf fed) {op : LinkOp}
    {clientOp : ClientOp} (does : op.clientOp line party = some clientOp) :
    Turn heard own party.world.2 (operate party.world clientOp).1.2 (operate party.world clientOp).2 ∧
      ∃ bf fed, hdlcFlagSequence ∉ fed ∧ (operate party.world clientOp).1.1 = globalsAt bf fed := by
  obtain ⟨⟨globals, client⟩, handed, transmitted⟩ := party
  obtain rfl : globals = globalsAt bf fed := parser
  cases op with
  | init connectingFrameTimeout =>
    cases does
    exact ⟨.starts rfl rfl, connectingFrameTimeout, fed, hunting, rfl⟩
  | connect =>
    cases does
    exact ⟨.connects rfl rfl, bf, fed, hunting, rfl⟩
  | sendData data dataLen =>
    cases does
    refine ⟨?_, bf, fed, hunting, rfl⟩
    unfold operate clientStep
    dsimp only
    rcases hdlcSendData_cases client data dataLen with
      ⟨_, refused⟩ | ⟨ready, _, long⟩ | ⟨ready, _, sent, state, index⟩
    · rw [refused]
      exact .idles trivial (.inl rfl) rfl
    · rw [long]
      exact .idles trivial (.inr rfl) rfl
    · rw [congrArg Prod.fst sent, congrArg Prod.snd sent, ready]
      exact .sends ready state index
  | timeoutHandler deltaTime =>
    cases does
    exact ⟨.idles trivial (.inl rfl) rfl, bf, fed, hunting, rfl⟩
  | transmit number layout =>
    obtain ⟨control, found, rfl⟩ := Option.map_eq_some_iff.mp does
    refine ⟨?_, bf, fed, hunting, rfl⟩
    unfold operate clientStep
    dsimp only
    rw [hdlcGetRawFrame_eq]
    exact .transmits (issued control (List.mem_of_getElem? found)) rfl
  | receive arrival recvControl behind =>
    obtain ⟨buffer, arrives, rfl⟩ := Option.map_eq_some_iff.mp does
    let call : DecodeCall := ⟨some buffer, recvControl, behind⟩
    have before : bodies fed = [] := bodies_noise hunting
    obtain ⟨behind, hears⟩ := heard_arrival hunting genuine arrival
      (show arrival.buffer line = call.buffer from arrives) nofun
    have decoded := decode_heard bf before client call
    refine ⟨?_, bf, _, behind, decode_globals bf client before call⟩
    unfold operate clientStep
    dsimp only
    generalize hdlcDecodeRecivedRawData (globalsAt bf fed) client call = result at decoded
    obtain ⟨ret, globals, client', recvControl', stores, delivered⟩ := result
    rcases hears with ⟨errno, hears⟩ | ⟨control, vouched, hears⟩
    · rw [hears] at decoded
      cases decoded
      exact .idles trivial (.inl rfl) rfl
    · rw [hears] at decoded
      have accepted := hdlcDecodeAccepted_turn own (globalsAt bf []) client vouched recvControl'
        call.fourth
      rw [respond] at decoded
      rw [← decoded] at accepted
      exact accepted

/-! ### The invariant -/

section Past

variable (past : List (Side × Event)) (side : Side)

def HasConnected : Prop := ∃ frame, (side, .connect frame) ∈ past

def HasSent : Prop := ∃ frame, (side, .sendData .readyState (.ok ()) frame) ∈ past

def HasDelivered : Prop :=
  ∃ index recvControl ret delivered, (side, .decode index recvControl ret (some delivered)) ∈ past

/-- A side has been spoken to before it connected: it was still waiting for index 20. -/
def SpokenToEarly : Prop :=
  ∃ side recvControl, (side, .decode 20 recvControl (.error .errInvalidSeqNumberFrame) none) ∈ past

/-- What stands behind a control field that a side hands out or transmits. -/
def Vouched (control : HdlcControlT) : Prop :=
  control.seqNo = 0 ∧
    match control.frame with
    | .sFrame => HasConnected past side
    | .iFrame => HasSent past side
    | .sFrameNack => SpokenToEarly past

/-- The invariant of one side. -/
structure PartySafe (party : Party) : Prop where
  parser : ∃ bf fed, hdlcFlagSequence ∉ fed ∧ party.world.1 = globalsAt bf fed
  index : party.world.2.currentIndexFrame = 20 ∨
    party.world.2.currentIndexFrame = 0 ∧ HasConnected past side
  ready : party.world.2.state = .readyState → ∀ side, HasConnected past side
  closed : party.world.2.state = .disconnecting → SpokenToEarly past
  handed : ∀ control ∈ party.handed, Vouched past side control
  transmitted : ∀ bytes ∈ party.transmitted,
    ∃ control payload, Vouched past side control ∧ bytes = frameBytes control payload

/-- The invariant of the link. -/
structure LinkSafe (link : Link) : Prop where
  party : ∀ side, PartySafe past side (link side)
  sent : ∀ side, HasSent past side → ∀ side, HasConnected past side
  delivered : ∀ side, HasDelivered past side → HasSent past side.other

end Past

section Later

variable {past : List (Side × Event)} {side : Side} (more : List (Side × Event))

theorem HasConnected.later (connected : HasConnected past side) : HasConnected (past ++ more) side :=
  connected.imp fun _ member => List.mem_append_left _ member

theorem HasSent.later (sent : HasSent past side) : HasSent (past ++ more) side :=
  sent.imp fun _ member => List.mem_append_left _ member

theorem SpokenToEarly.later (early : SpokenToEarly past) : SpokenToEarly (past ++ more) := by
  obtain ⟨side, recvControl, member⟩ := early
  exact ⟨side, recvControl, List.mem_append_left _ member⟩

theorem Vouched.later {control : HdlcControlT} (vouched : Vouched past side control) :
    Vouched (past ++ more) side control := by
  obtain ⟨frame, seqNo⟩ := control
  refine ⟨vouched.1, ?_⟩
  cases frame with
  | iFrame => exact HasSent.later more vouched.2
  | sFrame => exact HasConnected.later more vouched.2
  | sFrameNack => exact SpokenToEarly.later more vouched.2

/-- What others do leaves a side as it is. -/
theorem PartySafe.later {party : Party} (safe : PartySafe past side party) :
    PartySafe (past ++ more) side party where
  parser := safe.parser
  index := safe.index.imp_right fun connected => ⟨connected.1, connected.2.later more⟩
  ready := fun ready side => (safe.ready ready side).later more
  closed := fun closed => (safe.closed closed).later more
  handed := fun control member => (safe.handed control member).later more
  transmitted := fun bytes member => by
    obtain ⟨control, payload, vouched, built⟩ := safe.transmitted bytes member
    exact ⟨control, payload, vouched.later more, built⟩

end Later

/-- What a side has to show of an operation: where it leaves the parser and the client, and what stands
behind everything that it newly hands out and transmits. -/
theorem PartySafe.perform {past : List (Side × Event)} {side : Side} {party : Party}
    (safe : PartySafe past side party) {op : ClientOp} {after : Client} {events : List Event}
    (client : (operate party.world op).1.2 = after) (made : (operate party.world op).2 = events)
    (parser : ∃ bf fed, hdlcFlagSequence ∉ fed ∧ (operate party.world op).1.1 = globalsAt bf fed)
    (index : after.currentIndexFrame = 20 ∨
      after.currentIndexFrame = 0 ∧ HasConnected (past ++ events.map (Prod.mk side)) side)
    (ready : after.state = .readyState → ∀ side', HasConnected (past ++ events.map (Prod.mk side)) side')
    (closed : after.state = .disconnecting → SpokenToEarly (past ++ events.map (Prod.mk side)))
    (handed : ∀ control ∈ events.flatMap (handedBy after),
      Vouched (past ++ events.map (Prod.mk side)) side control)
    (transmitted : ∀ bytes ∈ events.flatMap transmittedBy, ∃ control payload,
      Vouched (past ++ events.map (Prod.mk side)) side control ∧ bytes = frameBytes control payload) :
    PartySafe (past ++ events.map (Prod.mk side)) side (party.perform op).1 := by
  subst client made
  have kept := safe.later ((operate party.world op).2.map (Prod.mk side))
  refine ⟨parser, index, ready, closed, fun control member => ?_, fun bytes member => ?_⟩
  · rcases List.mem_append.mp member with old | new
    · exact kept.handed control old
    · exact handed control new
  · rcases List.mem_append.mp member with old | new
    · exact kept.transmitted bytes old
    · exact transmitted bytes new

/-- A side that refuses a frame has been spoken to early, or it is connected and refuses the other side's
reject. -/
theorem PartySafe.refuses {past : List (Side × Event)} {side : Side} {party : Party}
    (safe : PartySafe past side party) {control : HdlcControlT} (vouched : Vouched past side.other control)
    (refused : control.seqNo.setWidth 8 = party.world.2.currentIndexFrame → control.frame = .sFrameNack)
    (recvControl : RecvControl) :
    SpokenToEarly (past ++ [(side, .decode party.world.2.currentIndexFrame recvControl
      (.error .errInvalidSeqNumberFrame) none)]) := by
  rcases safe.index with unconnected | ⟨connected, _⟩
  · rw [unconnected]
    exact ⟨side, recvControl, List.mem_append_right _ List.mem_cons_self⟩
  · have number : control.seqNo.setWidth 8 = party.world.2.currentIndexFrame := by
      rw [vouched.1, connected]
      rfl
    have other := vouched.2
    rw [refused number] at other
    exact SpokenToEarly.later _ other

/-- A side that takes an S-frame for the answer has connected, and so has the other one. -/
theorem PartySafe.acknowledges {past : List (Side × Event)} {side : Side} {party : Party}
    (safe : PartySafe past side party) {control : HdlcControlT} (vouched : Vouched past side.other control)
    (kind : control.frame = .sFrame) (current : control.seqNo.setWidth 8 = party.world.2.currentIndexFrame)
    (side' : Side) : HasConnected past side' := by
  have other := vouched.2
  rw [kind] at other
  have number : (0 : BitVec 3).setWidth 8 = party.world.2.currentIndexFrame := by
    rw [← vouched.1, current]
  have connected : HasConnected past side := by
    rcases safe.index with unconnected | ⟨_, connected⟩
    · rw [unconnected] at number
      cases number
    · exact connected
  cases side <;> cases side' <;> assumption

/-- **An operation keeps the invariant of the side that does it.** -/
theorem PartySafe.turn {past : List (Side × Event)} {side : Side} {party : Party}
    (safe : PartySafe past side party) {op : ClientOp} {events : List Event}
    (made : (operate party.world op).2 = events)
    (turn : Turn (Vouched past side.other) (Vouched past side) party.world.2
      (operate party.world op).1.2 events)
    (parser : ∃ bf fed, hdlcFlagSequence ∉ fed ∧ (operate party.world op).1.1 = globalsAt bf fed) :
    PartySafe (past ++ events.map (Prod.mk side)) side (party.perform op).1 := by
  have kept := safe.later (events.map (Prod.mk side))
  generalize client : (operate party.world op).1.2 = after at turn
  have silent : ∀ control ∈ ([] : List HdlcControlT),
      Vouched (past ++ events.map (Prod.mk side)) side control := List.forall_mem_nil _
  have quiet : ∀ bytes ∈ ([] : List (List Byte)), ∃ control payload,
      Vouched (past ++ events.map (Prod.mk side)) side control ∧ bytes = frameBytes control payload :=
    List.forall_mem_nil _
  have latest {event : Event} (last : events = [event]) :
      (side, event) ∈ past ++ events.map (Prod.mk side) := by
    rw [last]
    exact List.mem_append_right _ List.mem_cons_self
  cases turn with
  | starts state index =>
    exact safe.perform client made parser (.inl index) (fun ready => nomatch state.symm.trans ready)
      (fun closed => nomatch state.symm.trans closed) silent quiet
  | connects state index =>
    have connected : HasConnected (past ++ [(side, .connect ⟨.sFrame, 0⟩)]) side := ⟨_, latest rfl⟩
    exact safe.perform client made parser (.inr ⟨index, connected⟩)
      (fun ready => nomatch state.symm.trans ready) (fun closed => nomatch state.symm.trans closed)
      (List.forall_mem_singleton.mpr ⟨rfl, connected⟩) quiet
  | sends ready state index =>
    have sent : HasSent (past ++ [(side, .sendData .readyState (.ok ()) (some ⟨.iFrame, 0⟩))]) side :=
      ⟨_, latest rfl⟩
    exact safe.perform client made parser (.inr ⟨index, kept.ready ready side⟩)
      (fun ready => nomatch state.symm.trans ready) (fun closed => nomatch state.symm.trans closed)
      (List.forall_mem_singleton.mpr ⟨rfl, sent⟩) quiet
  | @transmits control payload issued same =>
    subst same
    exact safe.perform client made parser kept.index kept.ready kept.closed silent
      (List.forall_mem_singleton.mpr ⟨control, payload, issued.later _, rfl⟩)
  | @rejects recvControl control vouched refused state index prepared =>
    have early := safe.refuses vouched refused recvControl
    refine safe.perform client made parser (index.symm ▸ kept.index)
      (fun ready => nomatch state.symm.trans ready) (fun _ => early) ?_ quiet
    exact List.forall_mem_singleton.mpr (prepared.symm ▸ ⟨rfl, early⟩)
  | @acknowledges index recvControl control vouched kind current state same =>
    have both := safe.acknowledges vouched kind current
    exact safe.perform client made parser (same.symm ▸ kept.index) (fun _ side' => (both side').later _)
      (fun closed => nomatch state.symm.trans closed) silent quiet
  | delivers vouched kind state same =>
    exact safe.perform client made parser (same.symm ▸ kept.index) (state.symm ▸ kept.ready)
      (state.symm ▸ kept.closed) silent quiet
  | @idles event idle state same =>
    have nothing : [event].flatMap (handedBy after) = [] ∧ [event].flatMap transmittedBy = [] := by
      unfold Event.Idle at idle
      split at idle
      · exact ⟨rfl, rfl⟩
      · exact ⟨rfl, rfl⟩
      · exact ⟨rfl, rfl⟩
      · exact idle.elim
    have here (now : HDLCState) (is : after.state = now) (other : now ≠ .reciving) :
        party.world.2.state = now :=
      (state.resolve_right fun opened => other (is.symm.trans opened)).symm.trans is
    exact safe.perform client made parser (same.symm ▸ kept.index)
      (fun ready => kept.ready (here _ ready nofun)) (fun closed => kept.closed (here _ closed nofun))
      (nothing.1.symm ▸ silent) (nothing.2.symm ▸ quiet)

/-- An operation that sends is made on an open link, and one that delivers hears what the other side has
sent. -/
theorem LinkSafe.turn {past : List (Side × Event)} {link : Link} (safe : LinkSafe past link) {side : Side}
    {after : Client} {events : List Event}
    (turn : Turn (Vouched past side.other) (Vouched past side) (link side).world.2 after events) :
    (HasSent (events.map (Prod.mk side)) side → ∀ side, HasConnected past side) ∧
      (HasDelivered (events.map (Prod.mk side)) side → HasSent past side.other) := by
  constructor
  · rintro ⟨frame, member⟩
    cases turn with
    | sends ready => exact (safe.party side).ready ready
    | @idles event idle =>
      obtain rfl : .sendData .readyState (.ok ()) frame = event := by simpa using member
      cases idle
    | _ => simp at member
  · rintro ⟨index, recvControl, ret, octet, member⟩
    cases turn with
    | delivers vouched kind =>
      have other := vouched.2
      rw [kind] at other
      exact other
    | @idles event idle =>
      obtain rfl : .decode index recvControl ret (some octet) = event := by simpa using member
      simp [Event.Idle] at idle
    | _ => simp at member

/-- **Every step keeps the invariant.** -/
theorem LinkSafe.step {past : List (Side × Event)} {link : Link} (safe : LinkSafe past link)
    (turn : Side × LinkOp) :
    LinkSafe (past ++ (linkStep link turn).2) (linkStep link turn).1 := by
  obtain ⟨side, op⟩ := turn
  cases does : op.clientOp (link side.other).transmitted (link side) with
  | none =>
    unfold linkStep
    rw [does, List.append_nil]
    exact safe
  | some clientOp =>
    obtain ⟨bf, fed, hunting, parser⟩ := (safe.party side).parser
    obtain ⟨turn, parser⟩ := clientOp_turn (safe.party side.other).transmitted (safe.party side).handed
      hunting parser does
    obtain ⟨sends, delivers⟩ := safe.turn turn
    rw [linkStep_does does]
    dsimp only
    refine ⟨fun side' => ?_, fun side' sent side'' => ?_, fun side' delivered => ?_⟩
    · by_cases same : side' = side
      · subst same
        rw [Function.update_self]
        exact (safe.party side').turn rfl turn parser
      · rw [Function.update_of_ne same]
        exact (safe.party side').later _
    · refine HasConnected.later _ ?_
      obtain ⟨frame, member⟩ := sent
      rcases List.mem_append.mp member with old | new
      · exact safe.sent side' ⟨frame, old⟩ side''
      · obtain ⟨event, member, same⟩ := List.mem_map.mp new
        cases same
        exact sends ⟨frame, new⟩ side''
    · refine HasSent.later _ ?_
      obtain ⟨index, recvControl, ret, octet, member⟩ := delivered
      rcases List.mem_append.mp member with old | new
      · exact safe.delivered side' ⟨index, recvControl, ret, octet, old⟩
      · obtain ⟨event, member, same⟩ := List.mem_map.mp new
        cases same
        exact delivers ⟨index, recvControl, ret, octet, new⟩

theorem linkStart_safe (bf : Side → Int) (client : Side → Client) (connectingFrameTimeout : Side → Int) :
    LinkSafe [] (linkStart bf client connectingFrameTimeout) where
  party side := ⟨⟨connectingFrameTimeout side, [], List.not_mem_nil, rfl⟩, .inl rfl, nofun, nofun,
    List.forall_mem_nil _, List.forall_mem_nil _⟩
  sent := fun _ ⟨_, member⟩ => nomatch member
  delivered := fun _ ⟨_, _, _, _, member⟩ => nomatch member

/-- **Safety of the link.** Whatever the two sides do, in any order, over a line that loses, repeats and
reorders frames and damages them noticeably between their flags, each in one buffer: a side is ready only if
both have connected; it delivers only if the other side has sent, and that only if both have connected; and
a side is disconnecting only if one of them was spoken to before it connected. -/
theorem link_safe (bf : Side → Int) (client : Side → Client) (connectingFrameTimeout : Side → Int)
    (turns : List (Side × LinkOp)) :
    let ran := run linkStep (linkStart bf client connectingFrameTimeout) turns
    ∀ side, ((ran.1 side).world.2.state = .readyState → ∀ side', HasConnected ran.2 side') ∧
      (HasDelivered ran.2 side → HasSent ran.2 side.other ∧ ∀ side', HasConnected ran.2 side') ∧
      ((ran.1 side).world.2.state = .disconnecting → SpokenToEarly ran.2) := by
  intro ran side
  have safe : LinkSafe ran.2 ran.1 :=
    run_invariant linkStep (fun link past => LinkSafe past link)
      (fun _ _ turn safe => safe.step turn) turns _ [] (linkStart_safe bf client connectingFrameTimeout)
  refine ⟨(safe.party side).ready, fun delivered => ?_, (safe.party side).closed⟩
  have sent := safe.delivered side delivered
  exact ⟨sent, safe.sent _ sent⟩

/-! ### Opening the link -/

/-- A side connects and transmits the frame that this hands to it. -/
def ask (layout : Layout) (party : Party) (side : Side) : List (Side × LinkOp) :=
  [(side, .connect), (side, .transmit party.handed.length layout)]

/-- A side receives a frame of the other side. -/
def hear (recvControl : RecvControl) (behind : Nat → Byte) (other : Party) (side : Side) :
    List (Side × LinkOp) :=
  [(side, .receive (.frame [] List.not_mem_nil other.transmitted.length []) recvControl behind)]

/-- A side that has asked. -/
def Party.asked (party : Party) (layout : Layout) : Party where
  world := (party.world.1, (hdlcConnect party.world.2).1)
  handed := party.handed ++ [⟨.sFrame, 0⟩]
  transmitted := party.transmitted ++
    [frameBytes ⟨.sFrame, 0⟩ ((hdlcConnect party.world.2).1.payload layout)]

theorem after_ask (layout : Layout) (link : Link) (side : Side) :
    link.after (ask layout (link side) side) = Function.update link side ((link side).asked layout) := by
  let connecting : Party := ((link side).perform (.op .connect)).1
  have connects : (linkStep link (side, .connect)).1 = Function.update link side connecting :=
    congrArg Prod.fst (linkStep_does rfl)
  have handed : connecting.handed[(link side).handed.length]? = some ⟨.sFrame, 0⟩ :=
    List.getElem?_concat_length
  have transmits := congrArg Prod.fst (linkStep_does (show LinkOp.clientOp
      (Function.update link side connecting side.other).transmitted
      (Function.update link side connecting side)
      (.transmit (link side).handed.length layout) = some (.op (.getRawFrame ⟨.sFrame, 0⟩ layout)) by
    rw [Function.update_self, LinkOp.clientOp, handed]
    rfl))
  rw [Function.update_self, Function.update_idem] at transmits
  unfold Link.after ask
  rw [run_cons, run_singleton, connects]
  refine transmits.trans (congrArg (Function.update link side) ?_)
  unfold Party.perform operate clientStep
  dsimp only
  rw [hdlcGetRawFrame_eq]
  exact congrArg₂ (Party.mk _) (List.append_nil _) (congrArg (· ++ [_]) (List.append_nil _))

/-- **A side that has asked is opened** by the frame of the other side's connect. -/
theorem after_hear (recvControl : RecvControl) (behind : Nat → Byte) {link : Link} {side : Side}
    {other : Party} {bf : Int} {fed payload : List Byte} (hunting : hdlcFlagSequence ∉ fed)
    (parser : (link side).world.1 = globalsAt bf fed) (index : (link side).world.2.currentIndexFrame = 0)
    (transmitted : (link side.other).transmitted[other.transmitted.length]? =
      some (frameBytes ⟨.sFrame, 0⟩ payload)) :
    (link.after (hear recvControl behind other side) side).world.2.state = .readyState ∧
      (link.after (hear recvControl behind other side) side).transmitted = (link side).transmitted ∧
      link.after (hear recvControl behind other side) side.other = link side.other := by
  let call : DecodeCall := ⟨some (frameBytes ⟨.sFrame, 0⟩ payload ++ []), recvControl, behind⟩
  have hears : heard fed call = .ok (.of ⟨.sFrame, 0⟩) :=
    heard_frame (by rwa [List.append_nil]) ⟨.sFrame, 0⟩ payload [] rfl
  have decoded := decode_client bf (bodies_noise hunting) (link side).world.2 call
  rw [hears, respond] at decoded
  have opened := hdlcDecodeAccepted_state (globalsAt bf []) (link side).world.2 (.of ⟨.sFrame, 0⟩)
    call.fourth
  rw [index] at opened
  have distinct : side.other ≠ side := by cases side <;> decide
  have receives := linkStep_does (show LinkOp.clientOp (link side.other).transmitted (link side)
      (.receive (.frame [] List.not_mem_nil other.transmitted.length []) recvControl behind) =
        some (.op (.decode call)) by
    rw [LinkOp.clientOp, Arrival.buffer, transmitted]
    rfl)
  unfold Link.after hear
  rw [run_singleton, receives]
  dsimp only
  rw [Function.update_self, Function.update_of_ne distinct]
  refine ⟨?_, List.append_nil _, rfl⟩
  unfold Party.perform operate clientStep
  dsimp only
  rw [parser]
  exact (congrArg Client.state decoded).trans opened

/-- The turns that open a link. -/
def openingTurns (layout : Layout) (recvControl : RecvControl) (behind : Nat → Byte) (link : Link) :
    List (Side × LinkOp) :=
  ask layout (link .near) .near ++ ask layout (link .far) .far ++
    (hear recvControl behind (link .far) .near ++ hear recvControl behind (link .near) .far)

/-- **The link can always be opened.** Wherever it has come to over such a line, when both sides connect and
each hears the other's frame, both are ready. -/
theorem link_opens (bf : Side → Int) (client : Side → Client) (connectingFrameTimeout : Side → Int)
    (turns : List (Side × LinkOp)) (layout : Layout) (recvControl : RecvControl) (behind : Nat → Byte) :
    let link := (linkStart bf client connectingFrameTimeout).after turns
    ∀ side, (link.after (openingTurns layout recvControl behind link) side).world.2.state =
      .readyState := by
  intro link
  have safe : LinkSafe _ link :=
    run_invariant linkStep (fun link past => LinkSafe past link)
      (fun _ _ turn safe => safe.step turn) turns _ [] (linkStart_safe bf client connectingFrameTimeout)
  obtain ⟨nearBf, nearFed, nearHunting, nearParser⟩ := (safe.party .near).parser
  obtain ⟨farBf, farFed, farHunting, farParser⟩ := (safe.party .far).parser
  let asked : Link := Function.update (Function.update link .near ((link .near).asked layout)) .far
    ((link .far).asked layout)
  have both : link.after (ask layout (link .near) .near ++ ask layout (link .far) .far) = asked := by
    rw [after_append, after_ask]
    exact after_ask layout (Function.update link .near ((link .near).asked layout)) .far
  obtain ⟨nearReady, nearTransmitted, farKept⟩ := after_hear recvControl behind nearHunting
    (show (asked .near).world.1 = _ from nearParser) rfl
    (show (asked Side.near.other).transmitted[(link .far).transmitted.length]? = _ from
      List.getElem?_concat_length)
  generalize heardNear : asked.after (hear recvControl behind (link .far) .near) = link' at *
  have farKept : link' .far = (link .far).asked layout := farKept
  obtain ⟨farReady, -, nearKept⟩ := after_hear recvControl behind farHunting
    (show (link' .far).world.1 = _ by rw [farKept]; exact farParser) (by rw [farKept]; rfl)
    (show (link' Side.far.other).transmitted[(link .near).transmitted.length]? = _ from
      (congrArg (·[(link .near).transmitted.length]?) nearTransmitted).trans List.getElem?_concat_length)
  unfold openingTurns
  rw [after_append, both, after_append, heardNear]
  intro side
  cases side with
  | near => exact (congrArg (fun party => party.world.2.state) nearKept).trans nearReady
  | far => exact farReady

end HdlcMarquee
