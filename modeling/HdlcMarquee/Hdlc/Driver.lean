/-
**The documented driver (`hdlc/hdlc.h` lines 46–63), and that chunking does not matter.**

The parser's contract tells its caller what to do with the buffer after each return value: after a
success drop the returned number of bytes and call again on the rest, after `-EIO` drop `*dest_len`
bytes and call again, after `-ENOMSG` wait for the next chunk. `feed` is that loop on one chunk, with
the parser state and the caller's storage carried along; a run over chunks is `run feed`.

`feed_receiverAt`: from any position in the stream, the loop does what the receiver of `Position`
does that reads one byte at a time and never looks ahead. A run of the driver therefore depends on
the concatenation of its chunks only (`run_feed`, `run_feed_chunking`).
-/

import HdlcMarquee.Hdlc.Body

namespace HdlcMarquee

open Generic

/-! ### The loop -/

/-- What the driver learns of a completed frame. -/
inductive Outcome
  | success (control : HdlcControlT) (destLen : Int) (octets : List Byte)
  | eio
  deriving DecidableEq, Repr

/-- The parser state and the storage that the driver passes to every call. -/
structure Receiver where
  state : HdlcStateT
  storage : Storage

/-- One call, and what the contract makes of it: a completed frame and the number of bytes to drop,
or nothing before the next chunk. -/
def documentedCall (receiver : Receiver) (chunk : List Byte) : Receiver × Option (Outcome × Nat) :=
  let call := hdlcGetDataWithState receiver.state (some chunk)
  let storage := receiver.storage.putAll call.stores
  let destLen := call.destLen.getD 0
  (⟨call.state, storage⟩,
    match call.ret with
    | .ok count => some (.success storage.control destLen (storage.read destLen), count)
    | .error .eio => some (.eio, destLen.toNat)
    | .error _ => none)

/-- A call that completes a frame resets the parser, and the bytes to drop are those before the byte
the loop broke at. -/
theorem documentedCall_some {receiver : Receiver} {chunk : List Byte} {outcome : Outcome}
    {dropped : Nat} (completed : (documentedCall receiver chunk).2 = some (outcome, dropped)) :
    (documentedCall receiver chunk).1.state = hdlcState ∧ dropped = (passes receiver.state chunk).1 ∧
      0 ≤ (passes receiver.state chunk).2.1.startIndex ∧
      0 ≤ (passes receiver.state chunk).2.1.endIndex := by
  rcases hdlcGetDataWithState_cases receiver.state chunk with
    ⟨_, call⟩ | ⟨ended, _, call⟩ | ⟨ended, _, call⟩
  · simp only [documentedCall, call] at completed
    cases completed
  · simp only [documentedCall, call, Option.getD_some, Int.toNat_natCast] at completed ⊢
    cases completed
    exact ⟨trivial, rfl, by omega, by omega⟩
  · simp only [documentedCall, call] at completed ⊢
    cases completed
    exact ⟨trivial, rfl, by omega, by omega⟩

/-- Before a start flag the loop never breaks on the first byte. -/
theorem passes_pos {state : HdlcStateT} (before : state.startIndex < 0) {src : List Byte}
    (begun : 0 ≤ (passes state src).2.1.startIndex) : 0 < (passes state src).1 := by
  cases src with
  | nil => exact absurd begun (Int.not_le.mpr before)
  | cons byte rest =>
    have goes : ∃ next stores, pass state byte rest.head? = .next next stores := by
      simp only [pass, if_pos before]
      split
      · split <;> exact ⟨_, _, rfl⟩
      · exact ⟨_, _, rfl⟩
    obtain ⟨next, stores, moved⟩ := goes
    rw [passes, moved]
    exact Nat.succ_pos _

theorem passes_le (state : HdlcStateT) (src : List Byte) : (passes state src).1 ≤ src.length := by
  induction src generalizing state with
  | nil => exact Nat.le_refl _
  | cons byte rest ih =>
    rw [passes]
    split
    · exact Nat.succ_le_succ (ih _)
    · exact Nat.zero_le _

/-- A call that completes a frame brings the loop closer to its end: it drops bytes, or it completes
a frame begun in an earlier chunk. -/
theorem documentedCall_decreases {receiver : Receiver} {chunk : List Byte} {outcome : Outcome}
    {dropped : Nat} (completed : (documentedCall receiver chunk).2 = some (outcome, dropped)) :
    2 * (chunk.drop dropped).length +
        (if (documentedCall receiver chunk).1.state.startIndex < 0 then 0 else 1) <
      2 * chunk.length + (if receiver.state.startIndex < 0 then 0 else 1) := by
  obtain ⟨reset, count, begun, _⟩ := documentedCall_some completed
  have short : (passes receiver.state chunk).1 ≤ chunk.length := passes_le _ _
  rw [reset, List.length_drop, if_pos (by decide), count]
  split
  · have := passes_pos ‹_› begun
    omega
  · omega

/-- The documented loop on one chunk. -/
def feed (receiver : Receiver) (chunk : List Byte) : Receiver × List Outcome :=
  match _completed : (documentedCall receiver chunk).2 with
  | none => ((documentedCall receiver chunk).1, [])
  | some (outcome, dropped) =>
    let tail := feed (documentedCall receiver chunk).1 (chunk.drop dropped)
    (tail.1, outcome :: tail.2)
termination_by 2 * chunk.length + (if receiver.state.startIndex < 0 then 0 else 1)
decreasing_by exact documentedCall_decreases _completed

theorem feed_none {receiver : Receiver} {chunk : List Byte}
    (waits : (documentedCall receiver chunk).2 = none) :
    feed receiver chunk = ((documentedCall receiver chunk).1, []) := by
  rw [feed]
  split
  · rfl
  · rename_i completed
    rw [waits] at completed
    cases completed

theorem feed_some {receiver : Receiver} {chunk : List Byte} {outcome : Outcome} {dropped : Nat}
    (completed : (documentedCall receiver chunk).2 = some (outcome, dropped)) :
    feed receiver chunk =
      ((feed (documentedCall receiver chunk).1 (chunk.drop dropped)).1,
        outcome :: (feed (documentedCall receiver chunk).1 (chunk.drop dropped)).2) := by
  rw [feed]
  split
  · rename_i waits
    rw [waits] at completed
    cases completed
  · rename_i same
    rw [completed] at same
    cases same
    rfl

/-! ### The receiver that the loop implements -/

/-- The verdict on a completed raw body, with the storage as its bytes left it. -/
def verdict (completed : List Byte × Storage) : Outcome :=
  if Accepted completed.1 then
    .success completed.2.control ((frameData completed.1).length - sizeofFcs)
      (completed.2.read ((frameData completed.1).length - sizeofFcs))
  else .eio

/-- **The verdict on a completed body**, from the storage before it. -/
theorem verdict_body (storage : Storage) (body : List Byte) :
    verdict (body, storage.putAll (partStores [] body)) =
      if Accepted body then
        .success ((controlOf body).getD storage.control) ((frameData body).length - sizeofFcs)
          ((frameData body).take ((frameData body).length - sizeofFcs).toNat)
      else .eio := by
  unfold verdict
  rw [putAll_partStores]
  have short : ((frameData body).length : Int) - sizeofFcs ≤ (frameData body).length := by
    simp [sizeofFcs]
  rw [read_overlay _ _ short]

/-- The parser state and storage at a position. -/
def receiverAt (here : Phase Byte × Storage) : Receiver := ⟨stateAt here.1, here.2⟩

/-- **One documented call from a position**: the receiver reads the whole chunk and completes
nothing, or it completes a frame and is where the rest of the chunk, read from the reset state, takes
it up. -/
theorem documentedCall_receiverAt (here : Phase Byte × Storage) (chunk : List Byte) :
    ((documentedCall (receiverAt here) chunk).2 = none ∧
      run receive here chunk = ((run receive here chunk).1, []) ∧
      (documentedCall (receiverAt here) chunk).1 = receiverAt (run receive here chunk).1) ∨
    ∃ completed dropped storage,
      (documentedCall (receiverAt here) chunk).2 = some (verdict completed, dropped) ∧
      (documentedCall (receiverAt here) chunk).1 = receiverAt (.hunting 0, storage) ∧
      run receive here chunk =
        ((run receive (.hunting 0, storage) (chunk.drop dropped)).1,
          completed :: (run receive (.hunting 0, storage) (chunk.drop dropped)).2) := by
  obtain ⟨phase, storage⟩ := here
  have scan := passes_scan phase chunk
  generalize scanned : passes (stateAt phase) chunk = result at scan
  cases scan with
  | readsAll reached stores body made reads =>
    left
    simp only [documentedCall, receiverAt, hdlcGetDataWithState_readsAll scanned, reads, and_self]
  | breaks before rest start body stores split some received made reads =>
    right
    refine ⟨(body, storage.putAll stores), before.length, storage.putAll stores, ?_, ?_, ?_⟩
    · simp only [documentedCall, receiverAt, hdlcGetDataWithState_breaks scanned, verdict]
      by_cases accepted : Accepted body
      · simp only [accepted, if_true, Option.getD_some]
      · simp only [accepted, if_false, Option.getD_some, Int.toNat_natCast]
    · simp only [documentedCall, receiverAt, hdlcGetDataWithState_breaks scanned]
      by_cases accepted : Accepted body
      · simp only [accepted, if_true, stateAt_hunting_zero]
      · simp only [accepted, if_false, stateAt_hunting_zero]
    · have opens : receive (.hunting 0, storage.putAll stores) hdlcFlagSequence =
          ((.inFrame 0 [], storage.putAll stores), []) := by
        simp [receive, phaseStores]
      rw [reads, split, List.drop_left, run_cons, opens, List.nil_append]

/-- **The loop is the receiver that reads one byte at a time.** -/
theorem feed_receiverAt (here : Phase Byte × Storage) (chunk : List Byte) :
    feed (receiverAt here) chunk =
      (receiverAt (run receive here chunk).1, (run receive here chunk).2.map verdict) := by
  generalize start : receiverAt here = receiver
  induction receiver, chunk using feed.induct generalizing here with
  | case1 receiver chunk waits =>
    subst start
    rcases documentedCall_receiverAt here chunk with ⟨_, quiet, after⟩ | ⟨_, _, _, completes, _, _⟩
    · rw [feed_none waits, after, quiet]
      rfl
    · rw [completes] at waits
      cases waits
  | case2 receiver chunk outcome dropped completes ih =>
    subst start
    rcases documentedCall_receiverAt here chunk with
      ⟨waits, _, _⟩ | ⟨completed, dropped', storage, completes', after, reads⟩
    · rw [waits] at completes
      cases completes
    · rw [completes'] at completes
      cases completes
      rw [feed_some completes', ih (.hunting 0, storage) after.symm, reads]
      rfl

/-- **A run of the driver depends on the concatenation of its chunks only.** -/
theorem run_feed (here : Phase Byte × Storage) (chunks : List (List Byte)) :
    run feed (receiverAt here) chunks =
      (receiverAt (run receive here chunks.flatten).1,
        (run receive here chunks.flatten).2.map verdict) := by
  rw [run_sim (run receive) receiverAt verdict feed_receiverAt, run_flatten]

/-! ### Chunking does not matter -/

/-- Two memories with the same control field, and the same data of a raw body. What else they hold no
frame shows. -/
def Alike (body : List Byte) (first second : Storage) : Prop :=
  first.control = second.control ∧
    ∀ index : Int, 0 ≤ index → index < (frameData body).length →
      first.dest index = second.dest index

theorem Alike.byte {body : List Byte} {first second : Storage} (alike : Alike body first second)
    (byte : Byte) :
    Alike (body ++ [byte]) (first.putAll (byteStores body byte))
      (second.putAll (byteStores body byte)) := by
  obtain ⟨control, data⟩ := alike
  unfold Alike
  rw [byteStores_eq, frameData_grow]
  by_cases one : body.length = 1
  · rw [if_pos one, if_neg (by omega)]
    refine ⟨?_, fun index _ inside => ?_⟩
    · cases controlOf (body ++ [byte]) with
      | none => exact control
      | some value => rfl
    · rw [List.length_nil] at inside
      omega
  · rw [if_neg one]
    by_cases long : 2 ≤ body.length
    · rw [if_pos long, if_pos long, Code.unescape]
      split
      · rw [List.append_nil]
        exact ⟨control, data⟩
      · refine ⟨control, fun index nonneg inside => ?_⟩
        rw [List.length_append, List.length_singleton] at inside
        simp only [Storage.putAll, Storage.put, List.map_cons, List.map_nil, List.foldl_cons,
          List.foldl_nil]
        by_cases last : index = (frameData body).length
        · rw [last, Function.update_self, Function.update_self]
        · rw [Function.update_of_ne last, Function.update_of_ne last]
          exact data index nonneg (by omega)
    · rw [if_neg long, if_neg long]
      refine ⟨control, fun index _ inside => ?_⟩
      rw [List.length_nil] at inside
      omega

/-- The verdict shows the control field and the data of the body only. -/
theorem Alike.verdict_eq {body : List Byte} {first second : Storage}
    (alike : Alike body first second) : verdict (body, first) = verdict (body, second) := by
  obtain ⟨control, data⟩ := alike
  have reads : first.read ((frameData body).length - sizeofFcs) =
      second.read ((frameData body).length - sizeofFcs) := by
    unfold Storage.read
    refine List.map_congr_left fun index inside => data index (Int.natCast_nonneg index) ?_
    have := List.mem_range.mp inside
    unfold sizeofFcs at this
    omega
  unfold verdict
  rw [control, reads]

/-- **The receiver cannot tell such memories apart.** -/
theorem run_receive_alike (word : List Byte) :
    ∀ (phase : Phase Byte) (first second : Storage), Alike phase.body first second →
      (run receive (phase, first) word).1.1 = (run receive (phase, second) word).1.1 ∧
        (run receive (phase, first) word).2.map verdict =
          (run receive (phase, second) word).2.map verdict := by
  induction word with
  | nil => exact fun _ _ _ _ => ⟨rfl, rfl⟩
  | cons byte rest ih =>
    intro phase first second alike
    have fresh : Alike [] first second :=
      ⟨alike.1, fun index nonneg inside => absurd inside (not_lt.mpr nonneg)⟩
    have next : Alike (receive (phase, first) byte).1.1.body (receive (phase, first) byte).1.2
        (receive (phase, second) byte).1.2 ∧
        (receive (phase, first) byte).2.map verdict =
          (receive (phase, second) byte).2.map verdict := by
      by_cases flag : byte = hdlcFlagSequence
      · subst flag
        cases phase with
        | hunting skipped => simpa [receive, phaseStores, Phase.body] using fresh
        | inFrame start body =>
          by_cases empty : body = []
          · subst empty
            simpa [receive, phaseStores, Phase.body] using fresh
          · have same : verdict (body, first) = verdict (body, second) := alike.verdict_eq
            simpa [receive, step_closing_flag empty, phaseStores, Phase.body, same] using fresh
      · cases phase with
        | hunting skipped => simpa [receive, step_hunting flag, phaseStores, Phase.body] using fresh
        | inFrame start body =>
          simpa [receive, step_inFrame flag, phaseStores, flag, Phase.body] using alike.byte byte
    obtain ⟨reached, reported⟩ := ih _ _ _ next.1
    rw [run_cons, run_cons, List.map_append, List.map_append, next.2]
    exact ⟨reached, congrArg (_ ++ ·) reported⟩

/-- **Chunking does not matter**: two ways of cutting one stream lead to the same completed outcomes
and the same parser state, whatever `dest` held. -/
theorem run_feed_chunking (control : HdlcControlT) (dest dest' : Int → Byte)
    {chunks chunks' : List (List Byte)} (same : chunks.flatten = chunks'.flatten) :
    (run feed ⟨hdlcState, ⟨control, dest⟩⟩ chunks).2 =
        (run feed ⟨hdlcState, ⟨control, dest'⟩⟩ chunks').2 ∧
      (run feed ⟨hdlcState, ⟨control, dest⟩⟩ chunks).1.state =
        (run feed ⟨hdlcState, ⟨control, dest'⟩⟩ chunks').1.state := by
  have start : ∀ storage, (⟨hdlcState, storage⟩ : Receiver) = receiverAt (.hunting 0, storage) :=
    fun _ => rfl
  obtain ⟨reached, reported⟩ := run_receive_alike chunks'.flatten (.hunting 0) ⟨control, dest⟩
    ⟨control, dest'⟩ ⟨rfl, fun index nonneg inside => absurd inside (not_lt.mpr nonneg)⟩
  rw [start, start, run_feed, run_feed, same]
  exact ⟨reported, congrArg stateAt reached⟩

/-- Cut before and behind the flag between two frames. -/
theorem run_feed_chunking_flags :
    (run feed ⟨hdlcState, ⟨⟨.iFrame, 0⟩, fun _ => 0⟩⟩ [[0x7E, 0xFF, 0x7E], [0x7E, 0x01]]).2 =
        (run feed ⟨hdlcState, ⟨⟨.iFrame, 0⟩, fun _ => 1⟩⟩ [[0x7E], [], [0xFF, 0x7E, 0x7E, 0x01]]).2 ∧
      (run feed ⟨hdlcState, ⟨⟨.iFrame, 0⟩, fun _ => 0⟩⟩ [[0x7E, 0xFF, 0x7E], [0x7E, 0x01]]).1.state =
        (run feed ⟨hdlcState, ⟨⟨.iFrame, 0⟩, fun _ => 1⟩⟩
          [[0x7E], [], [0xFF, 0x7E, 0x7E, 0x01]]).1.state :=
  run_feed_chunking ⟨.iFrame, 0⟩ (fun _ => 0) (fun _ => 1) rfl

end HdlcMarquee
