/-
**Deliveries over whole runs.**

A decode call delivers an octet on every good I-frame with the sequence number that the client waits
for (`delivered_iff`), which is 0 from the first connect on, whatever the state of the client and
whatever was delivered before.

* `delivers_on_open_link_iff`: data is delivered only in the states `READY_STATE` and `RECIVING`
  exactly when no such frame completes while the client is connecting or disconnecting.
* `delivers_once_iff`: every I-frame of the peer is delivered at most once, and successive I-frames of
  one connection differ in their number, exactly when no copy of such a frame completes twice and no
  connection sends twice.
-/

import HdlcMarquee.Client.Runs

namespace HdlcMarquee

open Generic

/-- **What is delivered**: the good I-frames with the number that the client waits for. -/
theorem delivered_iff (bf : Int) {fed : List Byte} (before : bodies fed = []) (client : Client)
    (call : DecodeCall) :
    (hdlcDecodeRecivedRawData (globalsAt bf fed) client call).delivered ≠ none ↔
      ∃ control, heard fed call = .ok control ∧ control.frame = some .iFrame ∧
        control.seqNo.setWidth 8 = client.currentIndexFrame := by
  rw [decode_delivered bf before]
  cases heard fed call with
  | error errno => simp [respond]
  | ok control =>
    simp only [respond, hdlcDecodeAccepted_delivered, Except.ok.injEq, exists_eq_left',
      ite_eq_right_iff, ne_eq, reduceCtorEq, imp_false, not_not]
    exact and_comm

/-- What is delivered is returned with 0. -/
theorem ret_of_delivered (bf : Int) {fed : List Byte} (before : bodies fed = []) (client : Client)
    (call : DecodeCall)
    (delivered : (hdlcDecodeRecivedRawData (globalsAt bf fed) client call).delivered ≠ none) :
    (hdlcDecodeRecivedRawData (globalsAt bf fed) client call).ret = .ok () := by
  obtain ⟨control, hears, frame, current⟩ := (delivered_iff bf before client call).mp delivered
  rw [decode_ret bf before, hears, respond, hdlcDecodeAccepted_answer, frame,
    if_pos ⟨current, by decide⟩]

/-! ### On an open link -/

/-- A decode call stores through its output pointers only on an open link. -/
def Guarded (world : Globals × Client) (call : DecodeCall) : Prop :=
  (hdlcDecodeRecivedRawData world.1 world.2 call).delivered ≠ none →
    world.2.state = .readyState ∨ world.2.state = .reciving

/-- Behind a run, what is delivered is expected. -/
theorem delivered_reached_iff (bf : Int) (client : Client) (connectingFrameTimeout : Int)
    (before : List ClientOp) (call : DecodeCall) :
    (hdlcDecodeRecivedRawData (reached bf client connectingFrameTimeout before).1
      (reached bf client connectingFrameTimeout before).2 call).delivered ≠ none ↔
      Expected .iFrame before call := by
  rw [reached_globals, delivered_iff _ (bodies_fedBy before)]
  exact waited_iff (reached_indexed bf client connectingFrameTimeout before) .iFrame call

/-- An expected I-frame arrives while the client is connecting or disconnecting. -/
def Exposed (before : List ClientOp) (client : Client) (call : DecodeCall) : Prop :=
  (client.state = .connecting ∨ client.state = .disconnecting) ∧ Expected .iFrame before call

/-- A client that can expect anything is connecting, disconnecting, or on an open link. -/
theorem Indexed.state {client : Client} (indexed : Indexed true client) :
    (client.state = .connecting ∨ client.state = .disconnecting) ∨
      client.state = .readyState ∨ client.state = .reciving := by
  cases state : client.state with
  | uninitializedState => exact absurd state indexed.initialised
  | idleState => cases indexed.idle state
  | readyState => exact Or.inr (Or.inl rfl)
  | connecting => exact Or.inl (Or.inl rfl)
  | disconnecting => exact Or.inl (Or.inr rfl)
  | reciving => exact Or.inr (Or.inr rfl)

theorem guarded_iff (bf : Int) (client : Client) (connectingFrameTimeout : Int)
    (before : List ClientOp) (call : DecodeCall) :
    Guarded (reached bf client connectingFrameTimeout before) call ↔
      ¬ Exposed before (reached bf client connectingFrameTimeout before).2 call := by
  have indexed := reached_indexed bf client connectingFrameTimeout before
  unfold Guarded Exposed
  rw [delivered_reached_iff]
  generalize (reached bf client connectingFrameTimeout before).2 = now at indexed
  constructor
  · rintro opened ⟨closed, expected⟩
    rcases closed with state | state <;> rcases opened expected with other | other <;>
      cases state.symm.trans other
  · intro unexposed expected
    rw [expected.1] at indexed
    exact indexed.state.resolve_left fun closed => unexposed ⟨closed, expected⟩

section Copies

variable {ι : Type*}

/-- What the peer and the caller see of a run: a connect, an I-frame handed to the caller to be sent,
and a copy of an I-frame of the peer delivered. -/
inductive Exchange (ι : Type*)
  | connected
  | sent (control : HdlcControlT)
  | delivered (copied : ι)

/-- What an event shows; the I-frame that a decode call completes a copy of is known to the peer. -/
def exchangesOf (copied : ι) : Event → List (Exchange ι)
  | .connect _ => [.connected]
  | .sendData _ (.ok ()) (some control) => [.sent control]
  | .decode _ _ (.ok ()) (some _) => [.delivered copied]
  | _ => []

/-- One operation, with the I-frame that its buffer completes a copy of. -/
def exchangeStep (world : Globals × Client) (step : ι × ClientOp) :
    (Globals × Client) × List (Exchange ι) :=
  ((operate world step.2).1, (operate world step.2).2.flatMap (exchangesOf step.1))

/-- A copy is delivered. -/
def Exchange.IsDelivery : Exchange ι → Prop
  | .delivered _ => True
  | _ => False

/-- The copies delivered. -/
def copiesDelivered (exchanges : List (Exchange ι)) : List ι :=
  exchanges.filterMap fun
    | .delivered copied => some copied
    | _ => none

/-- Every I-frame of the peer is delivered at most once, and successive I-frames of one connection
carry different numbers. -/
def OnceEach (exchanges : List (Exchange ι)) : Prop :=
  (copiesDelivered exchanges).Nodup ∧ ∀ first second,
    Successive Exchange.IsDelivery exchanges (.sent first) (.sent second) →
      first.seqNo ≠ second.seqNo

/-- What the caller and the line attempt: a connect, a send that finds the client ready and no more
than `SIZE_DATA_BUFFERS` octets, and the arrival of an expected I-frame. -/
inductive Attempt (ι : Type*)
  | connect
  | admitted
  | arrival (copied : ι)

/-- What an operation attempts behind a run. -/
def attemptsOf (before : List ClientOp) (client : Client) (copied : ι) :
    ClientOp → List (Attempt ι)
  | .op .connect => [.connect]
  | .op (.sendData _ dataLen) =>
    if client.state = .readyState ∧ dataLen ≤ sizeDataBuffers then [.admitted] else []
  | .op (.decode call) => if Expected .iFrame before call then [.arrival copied] else []
  | _ => []

/-- One operation, with the operations before it. -/
def attemptStep (here : (Globals × Client) × List ClientOp) (step : ι × ClientOp) :
    ((Globals × Client) × List ClientOp) × List (Attempt ι) :=
  (((operate here.1 step.2).1, here.2 ++ [step.2]),
    attemptsOf here.2 here.1.2 step.1 step.2)

/-- A copy arrives. -/
def Attempt.IsArrival : Attempt ι → Prop
  | .arrival _ => True
  | _ => False

/-- The copies that arrive. -/
def copiesArrived (attempts : List (Attempt ι)) : List ι :=
  attempts.filterMap fun
    | .arrival copied => some copied
    | _ => none

/-- No copy arrives twice, and no connection has two admitted sends. -/
def Fresh (attempts : List (Attempt ι)) : Prop :=
  (copiesArrived attempts).Nodup ∧ ¬ Successive Attempt.IsArrival attempts .admitted .admitted

/-- What comes of an attempt. -/
def Attempt.outcome : Attempt ι → Exchange ι
  | .connect => .connected
  | .admitted => .sent ⟨.iFrame, 0⟩
  | .arrival copied => .delivered copied

/-- A decode call that delivers nothing shows nothing. -/
theorem exchangesOf_decode_none (copied : ι) (index : BitVec 8) (recvControl : RecvControl)
    (ret : Except Err Unit) : exchangesOf copied (.decode index recvControl ret none) = [] := by
  cases ret <;> rfl

/-- An arrival is delivered, and nothing else is. -/
theorem exchangesOf_decode (bf : Int) (client : Client) (connectingFrameTimeout : Int)
    (before : List ClientOp) (copied : ι) (index : BitVec 8) (call : DecodeCall) :
    let world := reached bf client connectingFrameTimeout before
    let decoded := hdlcDecodeRecivedRawData world.1 world.2 call
    exchangesOf copied (.decode index decoded.recvControl decoded.ret decoded.delivered) =
      (if Expected .iFrame before call then [Attempt.arrival copied] else []).map
        Attempt.outcome := by
  intro world decoded
  have expected : decoded.delivered ≠ none ↔ Expected .iFrame before call :=
    delivered_reached_iff bf client connectingFrameTimeout before call
  cases delivered : decoded.delivered with
  | none =>
    rw [if_neg (expected.not.mp (not_not_intro delivered)), exchangesOf_decode_none]
    rfl
  | some octet =>
    have arrives : decoded.delivered ≠ none := delivered.trans_ne (Option.some_ne_none octet)
    have globals : world.1 = _ := reached_globals bf client connectingFrameTimeout before
    have succeeds : decoded.ret = .ok () := by
      unfold decoded at arrives ⊢
      rw [globals] at arrives ⊢
      exact ret_of_delivered _ (bodies_fedBy before) _ _ arrives
    rw [if_pos (expected.mp arrives), succeeds]
    rfl

/-- **Every attempt succeeds**, and every I-frame sent has the number 0. -/
theorem exchangesOf_operate (bf : Int) (client : Client) (connectingFrameTimeout : Int)
    (before : List ClientOp) (copied : ι) (op : ClientOp) :
    (operate (reached bf client connectingFrameTimeout before) op).2.flatMap (exchangesOf copied) =
      (attemptsOf before (reached bf client connectingFrameTimeout before).2 copied op).map
        Attempt.outcome := by
  cases op with
  | init connectingFrameTimeout => rfl
  | op op =>
    cases op with
    | connect => rfl
    | sendData data dataLen =>
      simp only [operate, clientStep, attemptsOf, List.flatMap_cons, List.flatMap_nil,
        List.append_nil]
      rcases hdlcSendData_cases (reached bf client connectingFrameTimeout before).2 data dataLen with
        ⟨closed, refused⟩ | ⟨_, long, sends⟩ | ⟨ready, fits, sends, _⟩
      · rw [refused, if_neg fun admitted => closed admitted.1]
        rfl
      · rw [sends, if_neg fun admitted => Nat.not_lt.mpr admitted.2 long]
        rfl
      · rw [if_pos ⟨ready, fits⟩]
        simp only [sends]
        rfl
    | getRawFrame frame layout => rfl
    | decode call =>
      simp only [operate, clientStep, attemptsOf, List.flatMap_cons, List.flatMap_nil,
        List.append_nil]
      exact exchangesOf_decode bf client connectingFrameTimeout before copied _ call
    | timeoutHandler deltaTime => rfl

/-- **The exchanges of a run** are what comes of its attempts. -/
theorem run_exchangeStep (bf : Int) (client : Client) (connectingFrameTimeout : Int)
    (steps : List (ι × ClientOp)) :
    run exchangeStep (initHdlcClient ⟨bf, hdlcState⟩ client connectingFrameTimeout) steps =
        (reached bf client connectingFrameTimeout (steps.map Prod.snd),
          (run attemptStep (initHdlcClient ⟨bf, hdlcState⟩ client connectingFrameTimeout, [])
            steps).2.map Attempt.outcome) ∧
      (run attemptStep (initHdlcClient ⟨bf, hdlcState⟩ client connectingFrameTimeout, []) steps).1 =
        (reached bf client connectingFrameTimeout (steps.map Prod.snd), steps.map Prod.snd) := by
  induction steps using List.reverseRecOn with
  | nil => exact ⟨rfl, rfl⟩
  | append_singleton steps step ih =>
    obtain ⟨exchanges, attempts⟩ := ih
    rw [run_append, run_append, run_singleton, run_singleton, exchanges, attempts, List.map_append,
      List.map_singleton, reached_snoc, List.map_append]
    dsimp only [exchangeStep, attemptStep]
    rw [exchangesOf_operate]
    exact ⟨rfl, rfl⟩

theorem copiesDelivered_outcome (attempts : List (Attempt ι)) :
    copiesDelivered (attempts.map Attempt.outcome) = copiesArrived attempts := by
  unfold copiesDelivered copiesArrived
  rw [List.filterMap_map]
  congr 1
  funext attempt
  cases attempt <;> rfl

/-- Nothing is delivered twice, and no two I-frames sent are alike, if nothing is attempted twice. -/
theorem onceEach_outcome (attempts : List (Attempt ι)) :
    OnceEach (attempts.map Attempt.outcome) ↔ Fresh attempts := by
  have passes : ∀ attempt : Attempt ι, attempt.outcome.IsDelivery ↔ attempt.IsArrival := by
    intro attempt
    cases attempt <;> rfl
  have sends : ∀ (attempt : Attempt ι) (control : HdlcControlT),
      attempt.outcome = .sent control ↔ attempt = .admitted ∧ control = ⟨.iFrame, 0⟩ := by
    intro attempt control
    cases attempt <;> simp [Attempt.outcome, eq_comm]
  unfold OnceEach Fresh
  rw [copiesDelivered_outcome]
  refine and_congr_right fun _ => ?_
  simp only [successive_map passes, sends]
  constructor
  · intro different twice
    exact different _ _ ⟨_, _, ⟨rfl, rfl⟩, ⟨rfl, rfl⟩, twice⟩ rfl
  · rintro once first second ⟨_, _, ⟨rfl, -⟩, ⟨rfl, -⟩, twice⟩
    exact absurd twice once

end Copies

end HdlcMarquee
