/-
**The connect loop of the sketch (`main` of `sketch_sep19a.ino`).**

A poll receives into `buffer_recive`, counts the timeout down by one, and decodes what was received
with null output pointers. Every error of the decoder ends the program, so the loop goes on only as
long as every poll completes a good frame; the countdown never reaches zero, since a poll that leaves
the loop running reloads it.

The sketch calls `hdlc_get_raw_frame` with three arguments; such a function is declared and nowhere
defined. What it puts into the buffer is left open, and it is taken to leave the client alone, as the
function of four arguments does. Each of its calls in the loop is recorded, with the `UART_send` behind it.

* `connects_iff`: the loop runs until a poll and ends connected behind it exactly when the polls before
  complete frames that are taken for nothing at all, and that poll an acknowledgement.
* `connectLoop_sends`: the loop sends once if it ends with a refused frame, and otherwise never.
-/

import HdlcMarquee.Client.Runs
import HdlcMarquee.Hdlc.Acceptance

namespace HdlcMarquee

open Generic

/-! ### The loop -/

/-- What a poll finds: `buffer_recive` behind `UART_receive`, and the memory that the decoder finds. -/
structure Poll where
  received : List Byte
  recvControl : RecvControl
  behind : Nat → Byte

/-- The arguments of its decode call. -/
def Poll.call (poll : Poll) : DecodeCall := ⟨some poll.received, poll.recvControl, poll.behind⟩

/-- Where `main` is: in the loop, behind it with `flag_connection` set, ended with an error, or
nowhere, when a null pointer has been stored through. -/
inductive ConnectLoop
  | running (world : Globals × Client)
  | connected (world : Globals × Client)
  | returned (err : Err)
  | undefined
  deriving DecidableEq

/-- `init_hdlc_client` and `hdlc_connect`, in front of the loop. -/
def connectStart (globals : Globals) (client : Client) : Globals × Client :=
  let (globals, client) := initHdlcClient globals client 200
  (globals, (hdlcConnect client).1)

/-- `hdlc_get_raw_frame(&hdlc, buffer, size)` and `UART_send(buffer, size)`, with the client at the call. -/
structure UartSend where
  client : Client
  size : Nat
  deriving DecidableEq

/-- `sizeof buffer`. -/
def sizeofBuffer : Nat := 10

/-- `sizeof buffer_rej`: ten pointers of two octets each. -/
def sizeofBufferRej : Nat := 20

/-- The body of the loop, and what it sends. -/
def connectPoll : ConnectLoop → Poll → ConnectLoop × List UartSend
  | .running (globals, client), poll =>
    let (client, err) := hdlcTimeoutHandler client 1
    if err = .error .errFrameTimeOut then (.running (globals, client), [⟨client, sizeofBuffer⟩])
    else
      let decoded := hdlcDecodeRecivedRawData globals client poll.call
      if decoded.delivered ≠ none then (.undefined, [])
      else
        match decoded.ret with
        | .error .errInvalidSeqNumberFrame =>
          (.returned .errInvalidSeqNumberFrame, [⟨decoded.client, sizeofBufferRej⟩])
        | .error err => (.returned err, [])
        | .ok () =>
          let world := (decoded.globals, decoded.client)
          (if decoded.client.state = .readyState then .connected world else .running world, [])
  | left, _ => (left, [])

/-! ### What a poll does -/

/-- A poll completes an acknowledgement with the number 0. -/
def Poll.Acknowledges (poll : Poll) : Prop :=
  ∃ control, heard [] poll.call = .ok control ∧ control.frame = some .sFrame ∧ control.seqNo = 0

/-- A poll completes a good frame that is taken for the number 0 and for no type of frame: its control
octet is not found, and `recv_control` holds no enumerator. -/
def Poll.Passes (poll : Poll) : Prop :=
  ∃ control, heard [] poll.call = .ok control ∧ control.frame = none ∧ control.seqNo = 0

variable (bf : Int) (client : Client)

/-- The client that gives up: a poll has been counted, and the reject is prepared. -/
def refusing : Client :=
  { (connectStart ⟨bf, hdlcState⟩ client).2 with
    connectingFrameTimeout := 199, state := .disconnecting, frameRej := ⟨.sFrameNack, 0⟩ }

/-- **One poll of a loop that has just begun**, from what it hears. -/
theorem connectPoll_start (poll : Poll) :
    connectPoll (.running (connectStart ⟨bf, hdlcState⟩ client)) poll =
      match heard [] poll.call with
      | .error errno => (.returned (.getData errno), [])
      | .ok control =>
        if control.seqNo = 0 ∧ control.frame ≠ some .sFrameNack then
          match control.frame with
          | some .sFrame =>
            (.connected ((connectStart ⟨bf, hdlcState⟩ client).1,
              { (connectStart ⟨bf, hdlcState⟩ client).2 with state := .readyState }), [])
          | some .iFrame => (.undefined, [])
          | _ => (.running (connectStart ⟨bf, hdlcState⟩ client), [])
        else (.returned .errInvalidSeqNumberFrame, [⟨refusing bf client, sizeofBufferRej⟩]) := by
  have start : connectStart ⟨bf, hdlcState⟩ client =
      (globalsAt 200 [], (connectStart ⟨bf, hdlcState⟩ client).2) := rfl
  have nothing : bodies [] = [] := rfl
  have decoded := decode_heard 200 nothing
    (hdlcTimeoutHandler (connectStart ⟨bf, hdlcState⟩ client).2 1).1 poll.call
  have globals := decode_globals 200
    (hdlcTimeoutHandler (connectStart ⟨bf, hdlcState⟩ client).2 1).1 nothing poll.call
  have running : (hdlcTimeoutHandler (connectStart ⟨bf, hdlcState⟩ client).2 1).2 = .ok () := rfl
  rw [start]
  unfold connectPoll
  dsimp only at decoded ⊢
  rw [running, if_neg (by decide)]
  generalize hdlcDecodeRecivedRawData (globalsAt 200 [])
    (hdlcTimeoutHandler (connectStart ⟨bf, hdlcState⟩ client).2 1).1 poll.call = result at *
  obtain ⟨ret, globals, client', recvControl, stores, delivered⟩ := result
  cases hears : heard [] poll.call with
  | error errno =>
    rw [hears] at decoded
    cases decoded
    rfl
  | ok control =>
    rw [hears] at decoded
    rw [bufferStep_of_heard hears] at globals
    dsimp only at decoded globals ⊢
    subst globals
    obtain ⟨frame, seqNo⟩ := control
    by_cases number : seqNo = 0
    · subst number
      rcases frame with _ | _ | _ | _ <;> cases decoded <;> rfl
    · have refused : (ret, client', delivered) =
          (.error .errInvalidSeqNumberFrame, refusing bf client, none) :=
        decoded.trans (if_pos fun same => number ((setWidth_eq_zero seqNo).mp same))
      cases refused
      have bad : ¬ (seqNo = 0 ∧ frame ≠ some .sFrameNack) := fun both => number both.1
      rw [if_neg bad]
      rfl

/-- What a poll leaves running is as it was. -/
theorem connectPoll_running_iff (poll : Poll) (world : Globals × Client) :
    (connectPoll (.running (connectStart ⟨bf, hdlcState⟩ client)) poll).1 = .running world ↔
      poll.Passes ∧ connectStart ⟨bf, hdlcState⟩ client = world := by
  rw [connectPoll_start]
  unfold Poll.Passes
  cases heard [] poll.call with
  | error errno => simp
  | ok control =>
    obtain ⟨frame, seqNo⟩ := control
    simp only [Except.ok.injEq, exists_eq_left']
    by_cases number : seqNo = 0
    · rcases frame with _ | _ | _ | _ <;> simp [number]
    · rw [if_neg fun both => number both.1]
      exact iff_of_false nofun fun passes => number passes.1.2

/-- A poll ends the loop connected if it completes an acknowledgement. -/
theorem connectPoll_connected_iff (poll : Poll) :
    (∃ world, (connectPoll (.running (connectStart ⟨bf, hdlcState⟩ client)) poll).1 =
        .connected world ∧ world.2.state = .readyState) ↔ poll.Acknowledges := by
  rw [connectPoll_start]
  unfold Poll.Acknowledges
  cases heard [] poll.call with
  | error errno => simp
  | ok control =>
    obtain ⟨frame, seqNo⟩ := control
    simp only [Except.ok.injEq, exists_eq_left']
    by_cases number : seqNo = 0
    · rcases frame with _ | _ | _ | _ <;> simp [number]
    · rw [if_neg fun both => number both.1]
      refine iff_of_false ?_ fun acknowledges => number acknowledges.2
      rintro ⟨world, same, -⟩
      cases same

/-- **The loop runs on** exactly as long as every poll passes, and then nothing has changed. -/
theorem run_connectPoll_running_iff (polls : List Poll) (world : Globals × Client) :
    (run connectPoll (.running (connectStart ⟨bf, hdlcState⟩ client)) polls).1 =
        .running world ↔
      (∀ poll ∈ polls, poll.Passes) ∧ connectStart ⟨bf, hdlcState⟩ client = world := by
  induction polls using List.reverseRecOn generalizing world with
  | nil => simp
  | append_singleton polls poll ih =>
    rw [run_append, run_singleton, List.forall_mem_append, List.forall_mem_singleton]
    cases here : (run connectPoll (.running (connectStart ⟨bf, hdlcState⟩ client)) polls).1 with
    | running before =>
      obtain ⟨passed, rfl⟩ := (ih before).mp here
      rw [connectPoll_running_iff, and_iff_right passed]
    | _ =>
      -- the loop has been left, and one of the polls before did not pass
      have left := fun passed => here.symm.trans ((ih _).mpr ⟨passed, rfl⟩)
      exact iff_of_false nofun fun passed => nomatch left passed.1.1

/-- The loop is still running when a poll is made, and ends connected behind it, with the client
ready. -/
def ConnectsAt (earlier : List Poll) (reply : Poll) : Prop :=
  let start : ConnectLoop := .running (connectStart ⟨bf, hdlcState⟩ client)
  (∃ world, (run connectPoll start earlier).1 = .running world) ∧
    ∃ world, (run connectPoll start (earlier ++ [reply])).1 = .connected world ∧
      world.2.state = .readyState

/-- **The loop connects at a poll** exactly when the polls before have passed and that poll completes
an acknowledgement. -/
theorem connects_iff (earlier : List Poll) (reply : Poll) :
    ConnectsAt bf client earlier reply ↔
      (∀ poll ∈ earlier, poll.Passes) ∧ reply.Acknowledges := by
  have continues := run_connectPoll_running_iff bf client earlier
  unfold ConnectsAt
  dsimp only
  rw [run_append, run_singleton]
  constructor
  · rintro ⟨⟨world, running⟩, connected⟩
    obtain ⟨passed, rfl⟩ := (continues world).mp running
    rw [running] at connected
    exact ⟨passed, (connectPoll_connected_iff bf client reply).mp connected⟩
  · rintro ⟨passed, acknowledges⟩
    have running := (continues _).mpr ⟨passed, rfl⟩
    rw [running]
    exact ⟨⟨_, rfl⟩, (connectPoll_connected_iff bf client reply).mpr acknowledges⟩

/-! ### What the loop sends -/

/-- **What one poll sends**: the buffer for the reject, when it ends the loop with a refused frame. -/
theorem connectPoll_start_sends (poll : Poll) :
    (connectPoll (.running (connectStart ⟨bf, hdlcState⟩ client)) poll).2 =
      if (connectPoll (.running (connectStart ⟨bf, hdlcState⟩ client)) poll).1 =
          .returned .errInvalidSeqNumberFrame then [⟨refusing bf client, sizeofBufferRej⟩] else [] := by
  have made := connectPoll_start bf client poll
  generalize connectPoll (.running (connectStart ⟨bf, hdlcState⟩ client)) poll = result at made ⊢
  cases hears : heard [] poll.call with
  | error errno =>
    rw [hears] at made
    subst made
    rfl
  | ok control =>
    obtain ⟨frame, seqNo⟩ := control
    rw [hears] at made
    dsimp only at made
    by_cases taken : seqNo = 0 ∧ frame ≠ some .sFrameNack
    · rw [if_pos taken] at made
      rcases frame with _ | _ | _ | _ <;> subst made <;> rfl
    · rw [if_neg taken] at made
      subst made
      rfl

/-- **The loop never sends its own frame again.** Whatever the polls bring, it never finds its time run out:
it sends the buffer for the reject if it ends with a refused frame, and otherwise nothing. -/
theorem connectLoop_sends (polls : List Poll) :
    (run connectPoll (.running (connectStart ⟨bf, hdlcState⟩ client)) polls).2 =
      if (run connectPoll (.running (connectStart ⟨bf, hdlcState⟩ client)) polls).1 =
          .returned .errInvalidSeqNumberFrame then [⟨refusing bf client, sizeofBufferRej⟩] else [] := by
  induction polls using List.reverseRecOn with
  | nil => exact (if_neg nofun).symm
  | append_singleton polls poll ih =>
    have before := run_connectPoll_running_iff bf client polls
    rw [run_append, run_singleton]
    generalize run connectPoll (.running (connectStart ⟨bf, hdlcState⟩ client)) polls = ran at *
    obtain ⟨here, sent⟩ := ran
    dsimp only at ih before ⊢
    cases here with
    | running world =>
      obtain ⟨_, rfl⟩ := (before world).mp rfl
      rw [ih, if_neg nofun, List.nil_append]
      exact connectPoll_start_sends bf client poll
    | _ =>
      -- the loop has been left
      rw [ih]
      exact List.append_nil _

/-! ### The reply -/

/-- The first frame that a poll completes is a whole S-frame with the number 0. -/
def Poll.Replies (poll : Poll) : Prop :=
  ∃ octets body more, bodies poll.received = body :: more ∧ Stuffed hdlcCode octets body ∧
    4 ≤ octets.length ∧ octets.foldl calcFcs fcsInitValue = fcsGoodValue ∧
    octets[1]?.map hdlcGetControlType = some ⟨.sFrame, 0⟩

/-- Such an S-frame is an acknowledgement if its address and its control octet are sent as they are. -/
theorem acknowledges_of_plain {poll : Poll} {octets body : List Byte} {more : List (List Byte)}
    (completes : bodies poll.received = body :: more) (stuffed : Stuffed hdlcCode octets body)
    (long : 4 ≤ octets.length) (good : octets.foldl calcFcs fcsInitValue = fcsGoodValue)
    (supervisory : octets[1]?.map hdlcGetControlType = some ⟨.sFrame, 0⟩) (plain : Plain body) :
    poll.Acknowledges := by
  have accepted : Accepted body :=
    ⟨le_trans (by decide) (long.trans stuffed.length_le), by rw [frameFcs, stuffed.octets_eq, good]⟩
  obtain ⟨first, second, octets', body', rfl, rfl, notEsc, notEsc', rest⟩ :=
    plain_stuffed stuffed (le_trans (by decide) long) plain
  have type : hdlcGetControlType second = ⟨.sFrame, 0⟩ := Option.some.inj supervisory
  refine ⟨.of ⟨.sFrame, 0⟩, ?_, rfl, rfl⟩
  simp only [heard, Poll.call, List.nil_append, completes, if_pos accepted]
  have found : foundControl [] (first :: second :: body') poll.recvControl = _ := if_pos (by decide)
  rw [found, (plain_body notEsc notEsc' rest).1, type]
  rfl

/-- A poll, behind those before it, completes a good frame with a wrong number or a reject. -/
def Poll.Objects (before : List Poll) (poll : Poll) : Prop :=
  ∃ control, heard (run bufferStep [] (before.map Poll.call)).1 poll.call = .ok control ∧
    (control.seqNo ≠ 0 ∨ control.frame = some .sFrameNack)

/-- One poll of an idle line ends the program before the reply comes. -/
theorem not_connects :
    ¬ ∀ (bf : Int) (client : Client) (earlier : List Poll) (reply : Poll),
      reply.Replies →
      (∀ before poll after, earlier = before ++ poll :: after → ¬ Poll.Objects before poll) →
      ConnectsAt bf client earlier reply := by
  intro connects
  let idle : Poll := ⟨List.replicate 20 0, ⟨none, 0⟩, fun _ => 0⟩
  let reply : Poll :=
    ⟨[0x7E, 0xFF, 0x01, 0x0E, 0xE1, 0x7E] ++ List.replicate 14 0, ⟨none, 0⟩, fun _ => 0⟩
  have replies : reply.Replies :=
    ⟨[0xFF, 0x01, 0x0E, 0xE1], [0xFF, 0x01, 0x0E, 0xE1], [], by decide +kernel,
      .raw (by decide) (by decide) (.raw (by decide) (by decide)
        (.raw (by decide) (by decide) (.raw (by decide) (by decide) .nil))),
      by decide, by decide +kernel, by decide +kernel⟩
  have quiet : ¬ Poll.Objects [] idle := by
    rintro ⟨control, hears, -⟩
    have silent : heard [] idle.call = .error .enomsg := by decide +kernel
    cases silent.symm.trans hears
  obtain ⟨⟨world, running⟩, -⟩ := connects 0 zeroedClient [idle] reply
    replies (each_snoc.mpr ⟨each_nil, quiet⟩)
  have left : (run connectPoll
      (.running (connectStart ⟨0, hdlcState⟩ zeroedClient)) [idle]).1 =
      .returned (.getData .enomsg) := by
    decide +kernel
  cases left.symm.trans running

end HdlcMarquee
