/-
**Runs of calls that drop what lies behind the first frame of a buffer.**

A caller need not follow the documented loop: `hdlc_decode_recived_raw_data` passes one buffer after
another and never passes the rest of a buffer again. What its calls are about depends on the bytes
since the last completed frame alone, and `frameStep` says so without mentioning the parser: it
collects them, and drops them with the first body they complete.

* `call_fed`: one call of the parser, behind bytes that complete no frame.
* `run_callStep`: the successes of a run of calls are the accepted bodies among those that
  `frameStep` completes, each with the number of its stored octets.
-/

import HdlcMarquee.Hdlc.Body

namespace HdlcMarquee

open Generic

/-! ### The bytes since the last frame -/

/-- The position behind bytes read from the reset state. -/
def position (fed : List Byte) : Phase Byte :=
  (run (Phase.step hdlcFlagSequence) (.hunting 0) fed).1

/-- The bodies that these bytes complete. -/
def bodies (fed : List Byte) : List (List Byte) :=
  (run (Phase.step hdlcFlagSequence) (.hunting 0) fed).2

theorem bodies_noise {noise : List Byte} (quiet : hdlcFlagSequence ∉ noise) : bodies noise = [] := by
  rw [bodies, run_hunting quiet]

/-- The first frame of a buffer, behind noise and any number of flags. -/
theorem bodies_frame {noise body : List Byte} (noiseQuiet : hdlcFlagSequence ∉ noise)
    (some : body ≠ []) (quiet : hdlcFlagSequence ∉ body) (flags : Nat) :
    bodies (noise ++ List.replicate (flags + 1) hdlcFlagSequence ++
      (body ++ [hdlcFlagSequence])) = [body] := by
  rw [bodies, List.append_assoc, run_append, run_hunting noiseQuiet, run_append,
    List.replicate_succ, run_cons, step_hunting_flag, run_flags, run_frame some quiet]
  rfl

/-- One buffer: the bytes read since the last completed frame, and the body that they complete. -/
def frameStep (fed buffer : List Byte) : List Byte × List (List Byte) :=
  match bodies (fed ++ buffer) with
  | [] => (fed ++ buffer, [])
  | body :: _ => ([], [body])

theorem frameStep_waits {fed buffer : List Byte} (waits : bodies (fed ++ buffer) = []) :
    frameStep fed buffer = (fed ++ buffer, []) := by
  unfold frameStep
  rw [waits]

theorem frameStep_completes {fed buffer body : List Byte} {more : List (List Byte)}
    (completes : bodies (fed ++ buffer) = body :: more) : frameStep fed buffer = ([], [body]) := by
  unfold frameStep
  rw [completes]

/-- Between two buffers nothing is complete. -/
theorem bodies_frameStep (fed buffer : List Byte) : bodies (frameStep fed buffer).1 = [] := by
  unfold frameStep
  split
  · assumption
  · rfl

theorem run_position {fed : List Byte} (waits : bodies fed = []) (buffer : List Byte) :
    run (Phase.step hdlcFlagSequence) (position fed) buffer =
      (position (fed ++ buffer), bodies (fed ++ buffer)) := by
  unfold bodies at waits
  unfold position bodies
  rw [run_append, waits, List.nil_append]

/-- More bytes complete more bodies. -/
theorem bodies_append (fed more : List Byte) :
    bodies (fed ++ more) =
      bodies fed ++ (run (Phase.step hdlcFlagSequence) (position fed) more).2 := by
  unfold bodies
  rw [run_append]
  rfl

/-! ### A call -/

/-- The raw bytes of a buffer that belong to the frame in progress. -/
def received (fed buffer : List Byte) : List Byte :=
  Phase.part hdlcFlagSequence (position fed) buffer

/-- The stores that a call makes. -/
def bufferStores (fed buffer : List Byte) : List Store :=
  partStores (position fed).body (received fed buffer)

/-- **A call behind bytes that complete no frame.** -/
theorem call_fed {fed : List Byte} (waits : bodies fed = []) (buffer : List Byte) :
    (bodies (fed ++ buffer) = [] ∧
      hdlcGetDataWithState (stateAt (position fed)) (some buffer) =
        { ret := .error .enomsg, destLen := some 0, state := stateAt (position (fed ++ buffer)),
          stores := bufferStores fed buffer }) ∨
    ∃ body more count, bodies (fed ++ buffer) = body :: more ∧
      body = (position fed).body ++ received fed buffer ∧
      buffer[count]? = some hdlcFlagSequence ∧
      hdlcGetDataWithState (stateAt (position fed)) (some buffer) =
        if Accepted body then
          { ret := .ok count, destLen := some ((frameData body).length - sizeofFcs),
            state := hdlcState, stores := bufferStores fed buffer }
        else
          { ret := .error .eio, destLen := some count, state := hdlcState,
            stores := bufferStores fed buffer } := by
  have ran := run_position waits buffer
  cases completed : bodies (fed ++ buffer) with
  | nil =>
    left
    rw [completed] at ran
    refine ⟨rfl, ?_⟩
    rw [call_waits (congrArg Prod.snd ran), ran]
    rfl
  | cons body more =>
    right
    rw [completed] at ran
    obtain ⟨whole, count, ends, call⟩ := call_completes (congrArg Prod.snd ran)
    exact ⟨body, more, count, rfl, whole, ends, call⟩

/-- The completed body: what was received before the buffer, and what the buffer adds. -/
theorem received_completes {fed buffer body : List Byte} {more : List (List Byte)}
    (waits : bodies fed = []) (completes : bodies (fed ++ buffer) = body :: more) :
    (position fed).body ++ received fed buffer = body := by
  rcases call_fed waits buffer with ⟨waits', _⟩ | ⟨body', more', count, completes', whole, _, _⟩
  · rw [completes] at waits'
    cases waits'
  · rw [completes] at completes'
    cases completes'
    exact whole.symm

/-- A call leaves the parser where the bytes since the last frame lead. -/
theorem call_state {fed : List Byte} (waits : bodies fed = []) (buffer : List Byte) :
    (hdlcGetDataWithState (stateAt (position fed)) (some buffer)).state =
      stateAt (position (frameStep fed buffer).1) := by
  rcases call_fed waits buffer with ⟨waits', call⟩ | ⟨body, more, count, completes, _, _, call⟩
  · rw [call, frameStep_waits waits']
  · rw [call, frameStep_completes completes]
    split <;> rfl

theorem call_stores {fed : List Byte} (waits : bodies fed = []) (buffer : List Byte) :
    (hdlcGetDataWithState (stateAt (position fed)) (some buffer)).stores =
      bufferStores fed buffer := by
  rcases call_fed waits buffer with ⟨_, call⟩ | ⟨body, more, count, _, _, _, call⟩
  · rw [call]
  · rw [call]
    split <;> rfl

/-- A single frame, read from the reset state. -/
theorem call_frame {body : List Byte} (some : body ≠ []) (quiet : hdlcFlagSequence ∉ body) :
    ∃ count, hdlcGetDataWithState hdlcState
        (.some (hdlcFlagSequence :: body ++ [hdlcFlagSequence])) =
      if Accepted body then
        { ret := .ok count, destLen := .some ((frameData body).length - sizeofFcs),
          state := hdlcState, stores := partStores [] body }
      else
        { ret := .error .eio, destLen := .some count, state := hdlcState,
          stores := partStores [] body } := by
  have completes : bodies (hdlcFlagSequence :: body ++ [hdlcFlagSequence]) = [body] := by
    unfold bodies
    rw [run_flag_frame some quiet]
  have none : bodies [] = [] := rfl
  rcases call_fed none (hdlcFlagSequence :: body ++ [hdlcFlagSequence]) with
    ⟨waits, _⟩ | ⟨body', more, count, completes', whole, _, call⟩
  · rw [List.nil_append, completes] at waits
    cases waits
  · rw [List.nil_append, completes] at completes'
    cases completes'
    have whole' : received [] (hdlcFlagSequence :: body ++ [hdlcFlagSequence]) = body := whole.symm
    have stores : bufferStores [] (hdlcFlagSequence :: body ++ [hdlcFlagSequence]) =
        partStores [] body := by
      unfold bufferStores
      rw [whole']
      rfl
    rw [stores] at call
    exact ⟨count, call⟩

/-! ### A run of calls -/

/-- What a call that returns 0 or more reports: the raw body of its frame, the write index at the end
of the loop, and `*dest_len`. -/
structure Success where
  body : List Byte
  destIndex : Int
  destLen : Option Int
  deriving DecidableEq, Repr

/-- One call of a run, on the parser state and the bytes since the last completed frame. -/
def callStep (here : HdlcStateT × List Byte) (buffer : List Byte) :
    (HdlcStateT × List Byte) × List Success :=
  let call := hdlcGetDataWithState here.1 (some buffer)
  let framed := frameStep here.2 buffer
  ((call.state, framed.1),
    match call.ret with
    | .ok _ => [⟨framed.2.headD [], (passes here.1 buffer).2.1.destIndex, call.destLen⟩]
    | .error _ => [])

/-- The report on an accepted body. -/
def successOf (body : List Byte) : Success :=
  ⟨body, (frameData body).length, some ((frameData body).length - sizeofFcs)⟩

/-- A call that returns 0 or more reports its write index less the size of the check. -/
theorem destIndex_of_ok {state : HdlcStateT} {buffer : List Byte} {count : Nat} {destLen : Int}
    (accepts : (hdlcGetDataWithState state (some buffer)).ret = .ok count)
    (reports : (hdlcGetDataWithState state (some buffer)).destLen = some (destLen - sizeofFcs)) :
    (passes state buffer).2.1.destIndex = destLen := by
  rcases hdlcGetDataWithState_cases state buffer with ⟨_, call⟩ | ⟨_, _, call⟩ | ⟨_, _, call⟩
  · rw [call] at accepts
    cases accepts
  · rw [call] at accepts
    cases accepts
  · rw [call] at reports
    have same := Option.some.inj reports
    omega

theorem callStep_fed {fed : List Byte} (waits : bodies fed = []) (buffer : List Byte) :
    callStep (stateAt (position fed), fed) buffer =
      ((stateAt (position (frameStep fed buffer).1), (frameStep fed buffer).1),
        ((frameStep fed buffer).2.filter (Accepted ·)).map successOf) := by
  have state := call_state waits buffer
  rcases call_fed waits buffer with ⟨waits', call⟩ | ⟨body, more, count, completes, _, _, call⟩
  · simp only [callStep, frameStep_waits waits', state]
    rw [call]
    rfl
  · simp only [callStep, frameStep_completes completes, state]
    by_cases accepted : Accepted body
    · rw [if_pos accepted] at call
      have written := destIndex_of_ok (by rw [call]) (by rw [call])
      rw [written, call, List.filter_cons_of_pos (by simpa using accepted)]
      rfl
    · rw [if_neg accepted] at call
      rw [call, List.filter_cons_of_neg (by simpa using accepted)]
      rfl

/-- **The successes of a run of calls** are the accepted bodies, in order. -/
theorem run_callStep {fed : List Byte} (waits : bodies fed = []) (buffers : List (List Byte)) :
    (run callStep (stateAt (position fed), fed) buffers).2 =
      ((run frameStep fed buffers).2.filter (Accepted ·)).map successOf := by
  induction buffers generalizing fed with
  | nil => rfl
  | cons buffer rest ih =>
    rw [run_cons, run_cons, callStep_fed waits, ih (bodies_frameStep fed buffer),
      List.filter_append, List.map_append]

end HdlcMarquee
