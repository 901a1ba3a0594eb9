/-
**How the stream is cut into buffers.**

The client hands every buffer to the parser once. What follows the first frame of a buffer is never
read; `recv_control` is written only if the control octet is in the buffer that completes the frame;
and the delivered octet is the fourth of that buffer. A cutting of a stream of frames is harmless if
none of this shows (`Whole`): then every frame is acted on once, with its own control field
(`run_decode_whole`), and two such cuttings cannot be told apart (`cuttings_agree`).
-/

import HdlcMarquee.Client.Delivery

namespace HdlcMarquee

open Generic

/-! ### Acting on an accepted frame -/

/-- The control field that a call acted on, if the parser accepted a frame. -/
def Decoded.acted (decoded : Decoded) : Option RecvControl :=
  match decoded.ret with
  | .error (.getData _) => none
  | _ => some decoded.recvControl

theorem hdlcDecodeAccepted_ret (globals : Globals) (client : Client) (recvControl : RecvControl)
    (fourth : Byte) :
    (hdlcDecodeAccepted globals client recvControl fourth).1 = .ok () ∨
      (hdlcDecodeAccepted globals client recvControl fourth).1 =
        .error .errInvalidSeqNumberFrame := by
  unfold hdlcDecodeAccepted
  dsimp only
  split
  · exact Or.inr rfl
  · split
    · exact Or.inl rfl
    · exact Or.inl rfl
    · exact Or.inr rfl
    · exact Or.inl rfl

/-- The fourth byte of the buffer matters for the I-frame that the client waits for only. -/
theorem hdlcDecodeAccepted_fourth (globals : Globals) (client : Client) (recvControl : RecvControl)
    {fourth fourth' : Byte}
    (same : recvControl.frame = some .iFrame →
      recvControl.seqNo.setWidth 8 = client.currentIndexFrame → fourth = fourth') :
    hdlcDecodeAccepted globals client recvControl fourth =
      hdlcDecodeAccepted globals client recvControl fourth' := by
  unfold hdlcDecodeAccepted
  by_cases current : recvControl.seqNo.setWidth 8 = client.currentIndexFrame
  · rw [if_neg (not_not_intro current), if_neg (not_not_intro current)]
    split
    · rfl
    · rename_i information
      rw [same information current]
    · rfl
    · rfl
  · rw [if_pos current, if_pos current]

/-- What the client makes of a frame that it receives in a buffer of its own: the client, and what
is delivered. -/
def actStep (bf : Int) (client : Client) (sent : SentFrame) : Client × List (Byte × Nat) :=
  let acted := hdlcDecodeAccepted (globalsAt bf []) client (.of sent.control)
    (sent.bytes[3]?.getD 0)
  (acted.2.1, acted.2.2.toList)

/-! ### Harmless cuttings -/

/-- A buffer that completes a frame ends with it, begins no later than at its control octet, and for
the I-frame that the client waits for has the frame's fourth byte as its own. -/
def Whole (index : BitVec 8) (fed buffer : List Byte) : Prop :=
  ∀ body ∈ (frameStep fed buffer).2,
    fed ++ buffer = hdlcFlagSequence :: body ++ [hdlcFlagSequence] ∧
      (position fed).body.length ≤ 1 ∧
      ∀ seqNo, controlOf body = some ⟨.iFrame, seqNo⟩ → seqNo.setWidth 8 = index →
        buffer[3]? = (fed ++ buffer)[3]?

instance (index : BitVec 8) (fed buffer : List Byte) : Decidable (Whole index fed buffer) :=
  inferInstanceAs (Decidable (∀ body ∈ (frameStep fed buffer).2, _ ∧ _ ∧ ∀ _, _ → _ → _))

theorem bodies_sent (sent : SentFrame) (rest : List Byte) :
    ∃ more, bodies (sent.bytes ++ rest) = sentBody sent.control sent.payload :: more := by
  have nonempty : sentBody sent.control sent.payload ≠ [] :=
    List.ne_nil_of_length_pos (le_trans (by decide) (sentBody_spec _ _).1.1)
  unfold bodies
  rw [sent.bytes_eq, run_append, run_flag_frame nonempty (sentBody_quiet _ _)]
  exact ⟨_, rfl⟩

/-- **A frame in a harmless buffer** is acted on as if it came alone. -/
theorem decode_sent {fed buffer : List Byte} (bf : Int) (client : Client) {call : DecodeCall}
    (passed : call.buffer = some buffer) (before : bodies fed = []) {sent : SentFrame}
    (ends : fed ++ buffer = sent.bytes) (whole : Whole client.currentIndexFrame fed buffer) :
    (hdlcDecodeRecivedRawData (globalsAt bf fed) client call).globals = globalsAt bf [] ∧
      (hdlcDecodeRecivedRawData (globalsAt bf fed) client call).client =
        (actStep bf client sent).1 ∧
      (hdlcDecodeRecivedRawData (globalsAt bf fed) client call).delivered.toList =
        (actStep bf client sent).2 ∧
      (hdlcDecodeRecivedRawData (globalsAt bf fed) client call).acted = some (.of sent.control) := by
  obtain ⟨accepted, found, _⟩ := sentBody_spec sent.control sent.payload
  obtain ⟨more, completes⟩ := bodies_sent sent []
  rw [List.append_nil, ← ends] at completes
  have member : sentBody sent.control sent.payload ∈ (frameStep fed buffer).2 := by
    rw [frameStep_completes completes]
    exact List.mem_singleton_self _
  obtain ⟨_, early, aligned⟩ := whole _ member
  have control : call.recvControl.putAll (bufferStores fed buffer) = .of sent.control := by
    rw [putAll_bufferStores, if_pos early, received_completes before completes, found]
    rfl
  have fourth : hdlcDecodeAccepted (globalsAt bf []) client (.of sent.control) call.fourth =
      hdlcDecodeAccepted (globalsAt bf []) client (.of sent.control) (sent.bytes[3]?.getD 0) := by
    refine hdlcDecodeAccepted_fourth _ _ _ fun information current => ?_
    have kind : sent.control.frame = .iFrame := Option.some.inj information
    have seen := aligned sent.control.seqNo (by rw [found, ← kind]) current
    have inside : 3 < sent.bytes.length := by
      have long := accepted.1
      rw [sent.bytes_eq, List.length_append, List.length_cons, List.length_singleton]
      omega
    rw [ends, List.getElem?_eq_getElem inside] at seen
    rw [fourth_eq passed seen, List.getElem?_eq_getElem inside, Option.getD_some]
  rw [decode_completes bf client passed before completes, if_pos accepted, control, fourth]
  refine ⟨rfl, rfl, rfl, ?_⟩
  unfold Decoded.acted
  rcases hdlcDecodeAccepted_ret (globalsAt bf []) client (.of sent.control)
    (sent.bytes[3]?.getD 0) with ok | rejected
  · simp only [ok]
  · simp only [rejected]

/-- The bytes that the calls of a run bring. -/
def brought (calls : List DecodeCall) : List Byte := (calls.filterMap DecodeCall.buffer).flatten

/-- The bytes of a stream of frames. -/
def stream (frames : List SentFrame) : List Byte := frames.flatMap SentFrame.bytes

theorem brought_none {call : DecodeCall} (null : call.buffer = none) (rest : List DecodeCall) :
    brought (call :: rest) = brought rest := by
  unfold brought
  rw [List.filterMap_cons_none null]

theorem brought_some {call : DecodeCall} {buffer : List Byte} (passed : call.buffer = some buffer)
    (rest : List DecodeCall) : brought (call :: rest) = buffer ++ brought rest := by
  unfold brought
  rw [List.filterMap_cons_some passed, List.flatten_cons]

/-- The bytes of a stream that complete nothing and have nothing behind them are none. -/
theorem stream_quiet {fed : List Byte} (waits : bodies fed = []) {frames : List SentFrame}
    (cut : fed = stream frames) : fed = [] ∧ frames = [] := by
  cases frames with
  | nil => exact ⟨cut, rfl⟩
  | cons sent frames =>
    obtain ⟨more, completes⟩ := bodies_sent sent (stream frames)
    rw [show fed = sent.bytes ++ stream frames from cut, completes] at waits
    cases waits

/-- Bytes that begin a stream and end with their first frame are the first frame of the stream. -/
theorem stream_first {fed body later : List Byte} {more : List (List Byte)}
    (completes : bodies fed = body :: more)
    (ends : fed = hdlcFlagSequence :: body ++ [hdlcFlagSequence]) {frames : List SentFrame}
    (cut : fed ++ later = stream frames) :
    ∃ sent frames', frames = sent :: frames' ∧ fed = sent.bytes ∧ later = stream frames' := by
  cases frames with
  | nil =>
    rw [ends] at cut
    cases cut
  | cons sent frames =>
    obtain ⟨more', first⟩ := bodies_sent sent (stream frames)
    have stream' : stream (sent :: frames) = sent.bytes ++ stream frames := rfl
    rw [stream'] at cut
    -- the first body of the bytes is the first body of the stream
    have same : body = sentBody sent.control sent.payload := by
      have completed := bodies_append fed later
      rw [cut, first, completes] at completed
      exact (List.cons.inj completed).1.symm
    have whole : fed = sent.bytes := by rw [ends, same, sent.bytes_eq]
    rw [whole] at cut
    exact ⟨sent, frames, rfl, whole, List.append_cancel_left cut⟩

/-- Two cuttings of a stream lead to the same globals and the same client, the same octets are
delivered, and both act on every frame once, in order, with its control field. -/
def CuttingsAgree (bf : Int) (client : Client) (frames : List SentFrame)
    (calls calls' : List DecodeCall) : Prop :=
  let first := run decodeStep (⟨bf, hdlcState⟩, client) calls
  let second := run decodeStep (⟨bf, hdlcState⟩, client) calls'
  first.1 = second.1 ∧
    first.2.filterMap (·.2.delivered) = second.2.filterMap (·.2.delivered) ∧
    first.2.filterMap (·.2.acted) = frames.map (fun sent => .of sent.control) ∧
    second.2.filterMap (·.2.acted) = frames.map (fun sent => .of sent.control)

/-- What a run delivers, and what it acts on, call by call. -/
theorem run_decode_cons (world : Globals × Client) (call : DecodeCall) (rest : List DecodeCall) :
    let decoded := hdlcDecodeRecivedRawData world.1 world.2 call
    let later := run decodeStep (decoded.globals, decoded.client) rest
    (run decodeStep world (call :: rest)).1 = later.1 ∧
      (run decodeStep world (call :: rest)).2.filterMap (·.2.delivered) =
        decoded.delivered.toList ++ later.2.filterMap (·.2.delivered) ∧
      (run decodeStep world (call :: rest)).2.filterMap (·.2.acted) =
        decoded.acted.toList ++ later.2.filterMap (·.2.acted) := by
  have single : ∀ {β : Type} (f : DecodeCall × Decoded → Option β) (made : DecodeCall × Decoded),
      [made].filterMap f = (f made).toList := by
    intro β f made
    cases found : f made with
    | none => exact List.filterMap_cons_none found
    | some value => exact List.filterMap_cons_some found
  rw [run_cons, List.filterMap_append, List.filterMap_append]
  exact ⟨rfl, congrArg (· ++ _) (single _ _), congrArg (· ++ _) (single _ _)⟩

/-- **A harmless cutting** acts on every frame of the stream once, in order, as if each came alone. -/
theorem run_decode_whole (bf : Int) (calls : List DecodeCall) :
    ∀ (fed : List Byte) (client : Client) (frames : List SentFrame), bodies fed = [] →
      fed ++ brought calls = stream frames →
      (∀ pair ∈ (run bufferStep fed calls).2, Whole client.currentIndexFrame pair.1 pair.2) →
      (run decodeStep (globalsAt bf fed, client) calls).1 =
          (globalsAt bf [], (run (actStep bf) client frames).1) ∧
        (run decodeStep (globalsAt bf fed, client) calls).2.filterMap (·.2.delivered) =
          (run (actStep bf) client frames).2 ∧
        (run decodeStep (globalsAt bf fed, client) calls).2.filterMap (·.2.acted) =
          frames.map fun sent => .of sent.control := by
  induction calls with
  | nil =>
    intro fed client frames before cut whole
    have all : fed = stream frames := by
      rw [← cut]
      exact (List.append_nil fed).symm
    obtain ⟨rfl, rfl⟩ := stream_quiet before all
    exact ⟨rfl, rfl, rfl⟩
  | cons call rest ih =>
    intro fed client frames before cut whole
    rw [run_cons] at whole
    obtain ⟨here, later⟩ := List.forall_mem_append.mp whole
    obtain ⟨last, delivers, acts⟩ := run_decode_cons (globalsAt bf fed, client) call rest
    rw [last, delivers, acts]
    cases passed : call.buffer with
    | none =>
      rw [brought_none passed] at cut
      rw [bufferStep_none passed] at later
      rw [decode_null client passed]
      exact ih fed client frames before cut later
    | some buffer =>
      rw [brought_some passed, ← List.append_assoc] at cut
      rw [bufferStep_some passed] at here later
      cases complete : bodies (fed ++ buffer) with
      | nil =>
        rw [frameStep_waits complete] at later
        rw [decode_waits bf client passed before complete]
        exact ih (fed ++ buffer) client frames complete cut later
      | cons body more =>
        have whole' : Whole client.currentIndexFrame fed buffer := here _ (List.mem_singleton_self _)
        have completed : body ∈ (frameStep fed buffer).2 := by
          rw [frameStep_completes complete]
          exact List.mem_singleton_self _
        obtain ⟨sent, frames, rfl, ends, cut'⟩ :=
          stream_first complete (whole' body completed).1 cut
        rw [frameStep_completes complete] at later
        obtain ⟨globals, acted, delivered, control⟩ :=
          decode_sent bf client passed before ends whole'
        have index : (actStep bf client sent).1.currentIndexFrame = client.currentIndexFrame :=
          hdlcDecodeAccepted_index _ _ _ _
        rw [← index] at later
        obtain ⟨reached, gives, does⟩ := ih [] (actStep bf client sent).1 frames rfl cut' later
        rw [globals, acted, delivered, control, reached, gives, does, run_cons]
        exact ⟨rfl, rfl, rfl⟩

/-- **Harmless cuttings cannot be told apart.** -/
theorem cuttings_agree (bf : Int) (client : Client) (frames : List SentFrame)
    {calls calls' : List DecodeCall}
    (cut : brought calls = stream frames) (cut' : brought calls' = stream frames)
    (whole : ∀ pair ∈ (run bufferStep [] calls).2, Whole client.currentIndexFrame pair.1 pair.2)
    (whole' : ∀ pair ∈ (run bufferStep [] calls').2, Whole client.currentIndexFrame pair.1 pair.2) :
    CuttingsAgree bf client frames calls calls' := by
  have none : bodies [] = [] := rfl
  obtain ⟨reached, delivered, acted⟩ := run_decode_whole bf calls [] client frames none cut whole
  obtain ⟨reached', delivered', acted'⟩ :=
    run_decode_whole bf calls' [] client frames none cut' whole'
  exact ⟨reached.trans reached'.symm, delivered.trans delivered'.symm, acted, acted'⟩

/-- A reply and an I-frame, each in a buffer of its own, or the reply cut behind its address. -/
theorem cuttings_agree_reply :
    CuttingsAgree 200 zeroedClient
      [⟨0, ⟨.sFrame, 0⟩, [], _, hdlcFrameData_some _ _⟩,
        ⟨0, ⟨.iFrame, 0⟩, [0x21], _, hdlcFrameData_some _ _⟩]
      [⟨some [0x7E, 0xFF, 0x01, 0x0E, 0xE1, 0x7E], ⟨none, 0⟩, fun _ => 0⟩,
        ⟨some [0x7E, 0xFF, 0x10, 0x21, 0x25, 0xA5, 0x7E], ⟨none, 0⟩, fun _ => 0⟩]
      [⟨some [0x7E, 0xFF], ⟨some .sFrameNack, 5⟩, fun _ => 0⟩, ⟨none, ⟨none, 0⟩, fun _ => 0⟩,
        ⟨some [0x01, 0x0E, 0xE1, 0x7E], ⟨some .iFrame, 3⟩, fun _ => 1⟩,
        ⟨some [0x7E, 0xFF, 0x10, 0x21, 0x25, 0xA5, 0x7E], ⟨none, 0⟩, fun _ => 0⟩] :=
  cuttings_agree 200 zeroedClient _ (by decide +kernel) (by decide +kernel) (by decide +kernel)
    (by decide +kernel)

/-- An acknowledgement and a reject: in one buffer the reject is lost. -/
theorem not_cuttings_agree :
    ¬ ∀ (bf : Int) (client : Client) (frames : List SentFrame) (calls calls' : List DecodeCall),
      brought calls = stream frames → brought calls' = stream frames →
      CuttingsAgree bf client frames calls calls' := by
  intro agree
  obtain ⟨same, _⟩ := agree 200 zeroedClient
    [⟨0, ⟨.sFrame, 0⟩, [], _, hdlcFrameData_some _ _⟩,
      ⟨0, ⟨.sFrameNack, 0⟩, [], _, hdlcFrameData_some _ _⟩]
    [⟨some (frameBytes ⟨.sFrame, 0⟩ [] ++ frameBytes ⟨.sFrameNack, 0⟩ []), ⟨none, 0⟩, fun _ => 0⟩]
    [⟨some (frameBytes ⟨.sFrame, 0⟩ []), ⟨none, 0⟩, fun _ => 0⟩,
      ⟨some (frameBytes ⟨.sFrameNack, 0⟩ []), ⟨none, 0⟩, fun _ => 0⟩]
    (by decide +kernel) (by decide +kernel)
  revert same
  decide +kernel

end HdlcMarquee
