/-
**The countdown of the client on the target's `int`.**

A run of operations on one client is followed with the time that has passed since the client was
initialised, or since the last decode call that returned 0 (`timedStep`). `hdlc_timeout_handler` subtracts
its argument and goes on doing so behind the end of the countdown. Until the difference leaves the range
of `int` the counter is the timeout less the time passed, and the handler reports exactly what it should;
the first difference that leaves the range is wrong (`countdown_exact_iff`).
-/

import HdlcMarquee.Client.Handshake
import HdlcMarquee.Target

namespace HdlcMarquee

open Generic

/-! ### Runs on the target -/

/-- `hdlc_timeout_handler`, with the subtraction of the target. -/
def hdlcTimeoutHandlerInt (client : Client) (deltaTime : Int) : Client × Except Err Unit :=
  let client := { client with
    connectingFrameTimeout := toInt (client.connectingFrameTimeout - deltaTime) }
  (client, if client.connectingFrameTimeout ≤ 0 then .error .errFrameTimeOut else .ok ())

/-- What a `hdlc_timeout_handler` call is about: the time passed with it, the difference that it
computes, and what it returns. -/
structure TimeoutCall where
  elapsed : Int
  difference : Int
  ret : Except Err Unit
  deriving DecidableEq

/-- One operation, with the time passed since the client was initialised or a decode call returned 0. -/
def timedStep (here : (Globals × Client) × Int) : Op → ((Globals × Client) × Int) × List TimeoutCall
  | .timeoutHandler deltaTime =>
    let (client, ret) := hdlcTimeoutHandlerInt here.1.2 deltaTime
    (((here.1.1, client), here.2 + deltaTime),
      [⟨here.2 + deltaTime, here.1.2.connectingFrameTimeout - deltaTime, ret⟩])
  | .decode call =>
    let decoded := hdlcDecodeRecivedRawData here.1.1 here.1.2 call
    (((decoded.globals, decoded.client), if decoded.ret = .ok () then 0 else here.2), [])
  | op => (((clientStep here.1 op).1, here.2), [])

/-- A call reports a timeout exactly when the time passed reaches the timeout, and its difference is an
`int`. -/
def TimeoutCall.Exact (timeout : Int) (call : TimeoutCall) : Prop :=
  (call.ret = .error .errFrameTimeOut ↔ timeout ≤ call.elapsed) ∧ FitsInt call.difference

/-! ### The invariant -/

/-- The counter is what is left of the timeout, and a reload starts from the timeout. -/
structure Counts (timeout : Int) (here : (Globals × Client) × Int) : Prop where
  reload : here.1.1.connectingFrameTimeoutBf = timeout
  counter : here.1.2.connectingFrameTimeout = timeout - here.2
  nonneg : 0 ≤ here.2

theorem hdlcDecodeAccepted_timeout (globals : Globals) (client : Client) (recvControl : RecvControl)
    (fourth : Byte) :
    (hdlcDecodeAccepted globals client recvControl fourth).2.1.connectingFrameTimeout =
      if (hdlcDecodeAccepted globals client recvControl fourth).1 = .ok () then
        globals.connectingFrameTimeoutBf
      else client.connectingFrameTimeout := by
  unfold hdlcDecodeAccepted
  by_cases current : recvControl.seqNo.setWidth 8 = client.currentIndexFrame
  · rw [if_neg (not_not_intro current)]
    dsimp only
    split <;> rfl
  · rw [if_pos current]
    rfl

/-- A decode call reloads the counter exactly when it returns 0. -/
theorem decode_timeout (globals : Globals) (client : Client) (call : DecodeCall) :
    (hdlcDecodeRecivedRawData globals client call).globals.connectingFrameTimeoutBf =
        globals.connectingFrameTimeoutBf ∧
      (hdlcDecodeRecivedRawData globals client call).client.connectingFrameTimeout =
        if (hdlcDecodeRecivedRawData globals client call).ret = .ok () then
          globals.connectingFrameTimeoutBf
        else client.connectingFrameTimeout := by
  unfold hdlcDecodeRecivedRawData
  obtain ⟨ret, destLen, state, stores⟩ := hdlcGetDataWithState globals.hdlcState call.buffer
  cases ret with
  | error errno => exact ⟨rfl, rfl⟩
  | ok count => exact ⟨rfl, hdlcDecodeAccepted_timeout _ client _ call.fourth⟩

/-- Every operation but the handler keeps up with the time. -/
theorem Counts.step {timeout : Int} {here : (Globals × Client) × Int} (counts : Counts timeout here)
    {op : Op} (other : ∀ deltaTime, op ≠ .timeoutHandler deltaTime) :
    Counts timeout (timedStep here op).1 ∧ (timedStep here op).2 = [] := by
  obtain ⟨reload, counter, nonneg⟩ := counts
  cases op with
  | timeoutHandler deltaTime => exact absurd rfl (other deltaTime)
  | connect => exact ⟨⟨reload, counter, nonneg⟩, rfl⟩
  | getRawFrame frame layout => exact ⟨⟨reload, counter, nonneg⟩, rfl⟩
  | sendData data dataLen =>
    have kept : (hdlcSendData here.1.2 data dataLen).1.connectingFrameTimeout =
        here.1.2.connectingFrameTimeout := by
      unfold hdlcSendData
      split
      · rfl
      · dsimp only
        split <;> rfl
    exact ⟨⟨reload, kept.trans counter, nonneg⟩, rfl⟩
  | decode call =>
    obtain ⟨reload', counter'⟩ := decode_timeout here.1.1 here.1.2 call
    refine ⟨⟨reload'.trans reload, ?_, ?_⟩, rfl⟩
    · refine counter'.trans ?_
      dsimp only [timedStep]
      split
      · rw [reload]
        omega
      · exact counter
    · dsimp only [timedStep]
      split
      · exact le_refl _
      · exact nonneg

/-- **A call of the handler**: it is exact exactly when the time passed is not too long, and then the
counter keeps up. -/
theorem Counts.handler {timeout : Int} {here : (Globals × Client) × Int}
    (counts : Counts timeout here) (range : FitsInt timeout) {deltaTime : Int}
    (forward : 0 ≤ deltaTime) :
    ((timedStep here (.timeoutHandler deltaTime)).2 =
      [⟨here.2 + deltaTime, timeout - (here.2 + deltaTime),
        if toInt (timeout - (here.2 + deltaTime)) ≤ 0 then .error .errFrameTimeOut else .ok ()⟩]) ∧
    (FitsInt (timeout - (here.2 + deltaTime)) ↔ here.2 + deltaTime ≤ timeout + 32768) ∧
    (FitsInt (timeout - (here.2 + deltaTime)) →
      Counts timeout (timedStep here (.timeoutHandler deltaTime)).1) := by
  obtain ⟨reload, counter, nonneg⟩ := counts
  have difference : here.1.2.connectingFrameTimeout - deltaTime = timeout - (here.2 + deltaTime) := by
    omega
  rw [fitsInt_iff] at range
  refine ⟨?_, ?_, fun fits => ⟨reload, ?_, ?_⟩⟩
  · simp only [timedStep, hdlcTimeoutHandlerInt, difference]
  · rw [fitsInt_iff]
    omega
  · simp only [timedStep, hdlcTimeoutHandlerInt, difference]
    exact toInt_of_fits fits
  · simp only [timedStep]
    omega

/-- **The calls of a run behind an exact counter.** -/
theorem run_timedStep_exact_iff {timeout : Int} (range : FitsInt timeout) (ops : List Op)
    (forward : ∀ deltaTime, .timeoutHandler deltaTime ∈ ops → 0 ≤ deltaTime)
    {here : (Globals × Client) × Int} (counts : Counts timeout here) :
    (∀ call ∈ (run timedStep here ops).2, call.Exact timeout) ↔
      ∀ call ∈ (run timedStep here ops).2, call.elapsed ≤ timeout + 32768 := by
  induction ops generalizing here with
  | nil => exact iff_of_true (fun _ made => by cases made) (fun _ made => by cases made)
  | cons op rest ih =>
    have later : ∀ deltaTime, .timeoutHandler deltaTime ∈ rest → 0 ≤ deltaTime :=
      fun deltaTime member => forward deltaTime (List.mem_cons_of_mem _ member)
    rw [run_cons]
    by_cases handler : ∃ deltaTime, op = .timeoutHandler deltaTime
    · obtain ⟨deltaTime, rfl⟩ := handler
      obtain ⟨made, fits_iff, next⟩ := counts.handler range (forward deltaTime List.mem_cons_self)
      rw [made]
      simp only [List.singleton_append, List.forall_mem_cons]
      by_cases fits : FitsInt (timeout - (here.2 + deltaTime))
      · -- an exact difference is not positive exactly when the time is up
        refine and_congr ?_ (ih later (next fits))
        have kept : toInt (timeout - (here.2 + deltaTime)) = timeout - (here.2 + deltaTime) :=
          toInt_of_fits fits
        unfold TimeoutCall.Exact
        dsimp only
        rw [kept]
        refine iff_of_true ⟨?_, fits⟩ (fits_iff.mp fits)
        split
        · exact iff_of_true rfl (by omega)
        · exact iff_of_false (fun ok => by cases ok) (by omega)
      · exact iff_of_false (fun exact => fits exact.1.2) fun short => fits (fits_iff.mpr short.1)
    · obtain ⟨next, quiet⟩ := counts.step fun deltaTime same => handler ⟨deltaTime, same⟩
      rw [quiet, List.nil_append]
      exact ih later next

/-! ### Whole runs -/

/-- The calls of the handler in a run that begins by initialising the client. -/
def timeoutCalls (bf : Int) (client : Client) (connectingFrameTimeout : Int) (ops : List Op) :
    List TimeoutCall :=
  (run timedStep (initHdlcClient ⟨bf, hdlcState⟩ client connectingFrameTimeout, 0) ops).2

/-- **When the countdown is exact**: in every run, exactly when no handler is called later than 32768
units behind the end of the countdown. -/
theorem countdown_exact_iff (bf : Int) (client : Client) {connectingFrameTimeout : Int}
    (range : FitsInt connectingFrameTimeout) (ops : List Op)
    (forward : ∀ deltaTime, .timeoutHandler deltaTime ∈ ops → 0 ≤ deltaTime) :
    (∀ call ∈ timeoutCalls bf client connectingFrameTimeout ops,
      call.Exact connectingFrameTimeout) ↔
    ∀ call ∈ timeoutCalls bf client connectingFrameTimeout ops,
      call.elapsed ≤ connectingFrameTimeout + 32768 :=
  run_timedStep_exact_iff range ops forward ⟨rfl, (Int.sub_zero _).symm, le_refl _⟩

/-- A connect and two calls, the second of which finds the time up. -/
theorem countdown_exact_connect :
    (∀ call ∈ timeoutCalls 0 zeroedClient 5 [.connect, .timeoutHandler 3, .timeoutHandler 2],
      call.Exact 5) ↔
    ∀ call ∈ timeoutCalls 0 zeroedClient 5 [.connect, .timeoutHandler 3, .timeoutHandler 2],
      call.elapsed ≤ 5 + 32768 :=
  countdown_exact_iff 0 zeroedClient (by decide) _ fun deltaTime member => by
    simp only [List.mem_cons, reduceCtorEq, Op.timeoutHandler.injEq, List.not_mem_nil, or_false,
      false_or] at member
    omega

/-- **The counter wraps around.** With a timeout of 1, a call after 32770 units reports none. -/
theorem not_countdown_exact :
    ¬ ∀ call ∈ timeoutCalls 0 zeroedClient 1
        [.timeoutHandler 32767, .timeoutHandler 2, .timeoutHandler 1], call.Exact 1 := by
  intro exact
  have last : (⟨32770, -32769, .ok ()⟩ : TimeoutCall) ∈ timeoutCalls 0 zeroedClient 1
      [.timeoutHandler 32767, .timeoutHandler 2, .timeoutHandler 1] := by decide
  have reported := (exact _ last).1.mpr (by decide)
  cases reported

end HdlcMarquee
