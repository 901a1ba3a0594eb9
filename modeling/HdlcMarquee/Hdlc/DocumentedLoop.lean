/-
**The documented loop ends, and keeps the boundary flag.**

`loopCalls` lists the calls that the documented loop makes on one buffer, each with what it finds and
what it drops. A call that completes a frame drops the bytes before the flag at which the parser's loop
broke (`documentedCall_keeps`); it drops none only if the frame was begun in an earlier buffer, and then
the parser is reset, so this happens at the first call of the loop at most. The calls are therefore at
most two more than the bytes of the buffer (`length_loopCalls_le`).
-/

import HdlcMarquee.Hdlc.Driver
import HdlcMarquee.Hdlc.Representation

namespace HdlcMarquee

open Generic

/-! ### The calls of the loop -/

/-- A call that the loop makes: the parser state and the rest of the buffer that it finds, and the
number of bytes dropped behind it, or none when it returns `-ENOMSG`. -/
structure LoopCall where
  state : HdlcStateT
  rest : List Byte
  dropped : Option Nat

/-- The calls of the documented loop on one buffer, in order. -/
def loopCalls (receiver : Receiver) (buffer : List Byte) : List LoopCall :=
  match _completed : (documentedCall receiver buffer).2 with
  | none => [⟨receiver.state, buffer, none⟩]
  | some (_, dropped) =>
    ⟨receiver.state, buffer, some dropped⟩ ::
      loopCalls (documentedCall receiver buffer).1 (buffer.drop dropped)
termination_by 2 * buffer.length + (if receiver.state.startIndex < 0 then 0 else 1)
decreasing_by exact documentedCall_decreases _completed

theorem loopCalls_none {receiver : Receiver} {buffer : List Byte}
    (waits : (documentedCall receiver buffer).2 = none) :
    loopCalls receiver buffer = [⟨receiver.state, buffer, none⟩] := by
  rw [loopCalls]
  split
  · rfl
  · rename_i completed
    rw [waits] at completed
    cases completed

theorem loopCalls_some {receiver : Receiver} {buffer : List Byte} {outcome : Outcome} {dropped : Nat}
    (completed : (documentedCall receiver buffer).2 = some (outcome, dropped)) :
    loopCalls receiver buffer =
      ⟨receiver.state, buffer, some dropped⟩ ::
        loopCalls (documentedCall receiver buffer).1 (buffer.drop dropped) := by
  rw [loopCalls]
  split
  · rename_i waits
    rw [waits] at completed
    cases completed
  · rename_i same
    rw [completed] at same
    cases same
    rfl

/-- These are the calls whose outcomes `feed` reports, and the last one. -/
theorem length_loopCalls (receiver : Receiver) (buffer : List Byte) :
    (loopCalls receiver buffer).length = (feed receiver buffer).2.length + 1 := by
  induction receiver, buffer using feed.induct with
  | case1 receiver buffer waits => rw [loopCalls_none waits, feed_none waits]; rfl
  | case2 receiver buffer outcome dropped completed ih =>
    rw [loopCalls_some completed, feed_some completed, List.length_cons, List.length_cons, ih]

/-! ### What a call keeps -/

/-- The call drops fewer bytes than its buffer holds, and the first byte kept is the flag at which the
parser's loop recorded the end of a frame. -/
structure KeepsClosingFlag (call : LoopCall) (dropped : Nat) : Prop where
  inside : dropped < call.rest.length
  kept : (call.rest.drop dropped).head? = some hdlcFlagSequence
  closed : (passes call.state call.rest).1 = dropped ∧ 0 ≤ (passes call.state call.rest).2.1.endIndex

/-- A loop that breaks at its first byte closes a body received before. -/
theorem passes_zero {phase : Phase Byte} {buffer : List Byte}
    (zero : (passes (stateAt phase) buffer).1 = 0)
    (ended : 0 ≤ (passes (stateAt phase) buffer).2.1.endIndex) :
    ∃ start body, phase = .inFrame start body ∧ body ≠ [] := by
  cases buffer with
  | nil => exact absurd ended (Int.not_le.mpr (stateAt_endIndex phase))
  | cons byte rest =>
    rcases pass_stateAt phase byte rest.head? with
      ⟨next, moves, _⟩ | ⟨start, body, here, nonempty, _⟩
    · rw [passes, moves] at zero
      exact absurd zero (Nat.succ_ne_zero _)
    · exact ⟨start, body, here, nonempty⟩

/-- **A call that completes a frame** keeps its closing flag and leaves the reset state; it drops
nothing only at the end of a frame begun before the buffer. -/
theorem documentedCall_keeps {receiver : Receiver} {phase : Phase Byte}
    (state : receiver.state = stateAt phase) {buffer : List Byte} {outcome : Outcome} {dropped : Nat}
    (completed : (documentedCall receiver buffer).2 = some (outcome, dropped)) :
    KeepsClosingFlag ⟨receiver.state, buffer, some dropped⟩ dropped ∧
      (documentedCall receiver buffer).1.state = stateAt (.hunting 0) ∧
      (dropped = 0 → ∃ start body, phase = .inFrame start body ∧ body ≠ []) := by
  obtain ⟨reset, count, _, ended⟩ := documentedCall_some completed
  have scan := passes_scan phase buffer
  rw [state] at count ended
  refine ⟨?_, reset, fun zero => passes_zero (count.symm.trans zero) ended⟩
  generalize scanned : passes (stateAt phase) buffer = result at scan count ended
  cases scan with
  | readsAll reached stores body made reads =>
    exact absurd ended (Int.not_le.mpr (stateAt_endIndex reached))
  | breaks before rest start body stores split some received made reads =>
    subst count
    refine ⟨?_, ?_, ?_⟩
    · simp [split]
    · simp [split]
    · rw [state, scanned]
      exact ⟨rfl, ended⟩

/-! ### The whole loop -/

/-- **The number of calls**: one for each byte that can be dropped, the last, and one more when a frame
is in progress. -/
theorem length_loopCalls_le (receiver : Receiver) (buffer : List Byte) :
    (loopCalls receiver buffer).length ≤
      buffer.length + 1 + (if receiver.state.startIndex < 0 then 0 else 1) := by
  induction receiver, buffer using feed.induct with
  | case1 receiver buffer waits =>
    rw [loopCalls_none waits, List.length_singleton]
    omega
  | case2 receiver buffer outcome dropped completed ih =>
    obtain ⟨reset, count, begun, _⟩ := documentedCall_some completed
    have short : (passes receiver.state buffer).1 ≤ buffer.length := passes_le _ _
    rw [reset, if_pos (by decide), List.length_drop] at ih
    rw [loopCalls_some completed, List.length_cons]
    split
    · have := passes_pos ‹_› begun
      omega
    · omega

/-- Every call of the loop that drops bytes keeps the closing flag, and only the first one can drop
none. -/
theorem loopCalls_keep {receiver : Receiver} {phase : Phase Byte}
    (state : receiver.state = stateAt phase) {buffer : List Byte} {index dropped : Nat}
    {call : LoopCall} (made : (loopCalls receiver buffer)[index]? = some call)
    (drops : call.dropped = some dropped) :
    KeepsClosingFlag call dropped ∧
      (dropped = 0 → index = 0 ∧ ∃ start body, phase = .inFrame start body ∧ body ≠ []) := by
  induction receiver, buffer using feed.induct generalizing phase index with
  | case1 receiver buffer waits =>
    rw [loopCalls_none waits] at made
    rw [List.mem_singleton.mp (List.mem_of_getElem? made)] at drops
    cases drops
  | case2 receiver buffer outcome dropped' completed ih =>
    obtain ⟨keeps, reset, begun⟩ := documentedCall_keeps state completed
    rw [loopCalls_some completed] at made
    cases index with
    | zero =>
      cases made
      cases drops
      exact ⟨keeps, fun zero => ⟨rfl, begun zero⟩⟩
    | succ index =>
      obtain ⟨keeps', begun'⟩ := ih reset made
      refine ⟨keeps', fun zero => ?_⟩
      obtain ⟨_, start, body, hunting, _⟩ := begun' zero
      cases hunting

/-- The last call of the loop waits for more, and no other. -/
theorem loopCalls_last (receiver : Receiver) (buffer : List Byte) :
    ∃ before last, loopCalls receiver buffer = before ++ [last] ∧ last.dropped = none ∧
      ∀ call ∈ before, call.dropped ≠ none := by
  induction receiver, buffer using feed.induct with
  | case1 receiver buffer waits =>
    exact ⟨[], _, loopCalls_none waits, rfl, fun call member => by cases member⟩
  | case2 receiver buffer outcome dropped completed ih =>
    obtain ⟨before, last, calls, waits, drop⟩ := ih
    refine ⟨_ :: before, last, by rw [loopCalls_some completed, calls, List.cons_append], waits, ?_⟩
    intro call member
    rcases List.mem_cons.mp member with rfl | later
    · exact Option.some_ne_none _
    · exact drop call later

/-- **The documented loop ends and keeps the boundary flag.** From every parser state that calls on any
chunks lead to from a reset, and for every buffer, the loop makes finitely many calls, the last of which
waits for more. Every other call drops fewer bytes than its buffer holds, and the first byte kept is the
flag that closed the frame. It drops none only if it is the first, and completes a frame of which raw
bytes came before this buffer. -/
theorem documented_loop (state : HdlcStateT) (storage : Storage)
    (sources : List (Option (List Byte))) (buffer : List Byte) :
    let parser := (Parser.reset state storage).calls sources
    let calls := loopCalls ⟨parser.state, parser.storage⟩ buffer
    calls.length ≤ buffer.length + 2 ∧
      (∃ before last, calls = before ++ [last] ∧ last.dropped = none ∧
        ∀ call ∈ before, call.dropped ≠ none) ∧
      ∀ index call dropped, calls[index]? = some call → call.dropped = some dropped →
        KeepsClosingFlag call dropped ∧
          (dropped = 0 → index = 0 ∧
            ∃ noise body repeated, parser.InFrame noise body repeated ∧ body ≠ []) := by
  intro parser calls
  have follows : parser.Follows := (Parser.follows_reset state storage).calls sources
  refine ⟨?_, loopCalls_last _ buffer, fun index call dropped made drops => ?_⟩
  · refine (length_loopCalls_le _ buffer).trans ?_
    split <;> omega
  · obtain ⟨keeps, begun⟩ := @loopCalls_keep ⟨parser.state, parser.storage⟩ (position parser.fed)
      follows.state _ _ _ _ made drops
    refine ⟨keeps, fun zero => ?_⟩
    obtain ⟨first, start, body, inFrame, some⟩ := begun zero
    refine ⟨first, ?_⟩
    rcases follows.represents with hunts | ⟨noise, body', repeated, framed⟩
    · have before := hunts.startIndex
      rw [follows.state, inFrame] at before
      simp only [stateAt] at before
      omega
    · refine ⟨noise, body', repeated, framed, ?_⟩
      rintro rfl
      have length := framed.srcIndex
      have begin := framed.startIndex
      rw [follows.state, inFrame] at length begin
      simp only [stateAt, List.length_nil] at length begin
      exact some (List.length_eq_zero_iff.mp (by omega))

end HdlcMarquee
