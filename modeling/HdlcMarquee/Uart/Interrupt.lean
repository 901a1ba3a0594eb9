/-
**The receive buffer between the interrupt and the main line (`UART/uart.c` lines 38–49 and 58–64).**

The interrupt handler writes into the buffer that `read_buffer` takes bytes from, and may come between
any two steps of a read. A run is a list of such steps (`rxStep`), each leaving the events an observer
would note.

* `run_readBuffer`: the steps of a read that is not interrupted are `read_buffer`.
* `rxBuffer_fifo`: whenever the interrupts come, the bytes read are a prefix of the bytes accepted;
  a byte is dropped only while `BUFFER_SIZE - 1` bytes are stored or being removed; and a read returns
  -1 only while every accepted byte has been read. The main line never moves the tail and stores the
  head last, so a byte keeps its cell until it has been read (`Intact`).
-/

import HdlcMarquee.Generic.Machine
import HdlcMarquee.Uart.CircularBuf

namespace HdlcMarquee

open Generic

/-! ### Steps and events -/

/-- `ISR(USART_RX_vect)`, for the contents of the data register. -/
def usartRxVect (cb : CircularBuffer) (data : Int) : CircularBuffer :=
  if bufferFull cb then cb else writeBuffer cb data

/-- Where the main line is: outside `read_buffer`, behind its check of the indices, or behind the load
of the cell. -/
inductive MainLine
  | outside
  | checked
  | loaded (value : Byte)
  deriving DecidableEq, Repr

/-- The receive buffer and the place of the main line. -/
structure Receiving where
  cb : CircularBuffer
  place : MainLine

/-- What can happen next: an interrupt, a `buffer_empty` call of the main line, or the next step of a
`read_buffer` call, which begins one outside. -/
inductive RxStep
  | interrupt (data : Int)
  | bufferEmpty
  | readBuffer

/-- What a step leaves behind: a byte accepted or dropped, the answer of `buffer_empty`, a byte
returned, or the return value -1. -/
inductive RxEvent
  | accepted (value : Byte)
  | dropped
  | answered (empty : Bool)
  | returned (value : Byte)
  | minusOne
  deriving DecidableEq, Repr

/-- One step of a run. -/
def rxStep (here : Receiving) : RxStep → Receiving × List RxEvent
  | .interrupt data =>
    ({ here with cb := usartRxVect here.cb data },
      [if bufferFull here.cb then .dropped else .accepted (BitVec.ofInt 8 data)])
  | .bufferEmpty =>
    match here.place with
    | .outside => (here, [.answered (bufferEmpty here.cb)])
    -- inside `read_buffer` the main line calls nothing else
    | _ => (here, [])
  | .readBuffer =>
    match here.place with
    | .outside =>
      if bufferEmpty here.cb then (here, [.minusOne]) else ({ here with place := .checked }, [])
    | .checked => ({ here with place := .loaded (here.cb.buffer here.cb.bufHead) }, [])
    | .loaded value =>
      (⟨{ here.cb with bufHead := (here.cb.bufHead + 1) % bufferSize }, .outside⟩,
        [.returned value])

/-- **A read that is not interrupted** is `read_buffer`. -/
theorem run_readBuffer {cb : CircularBuffer} (some : bufferEmpty cb = false) :
    run rxStep ⟨cb, .outside⟩ [.readBuffer, .readBuffer, .readBuffer] =
        (⟨(readBuffer cb).1, .outside⟩, [.returned (cb.buffer cb.bufHead)]) ∧
      (readBuffer cb).2 = (cb.buffer cb.bufHead).toNat := by
  simp [run_cons, rxStep, readBuffer, some]

/-! ### First in, first out -/

/-- The bytes whose write was accepted. -/
def acceptedBytes (events : List RxEvent) : List Byte :=
  events.filterMap fun
    | .accepted value => some value
    | _ => none

/-- The bytes that reads returned. -/
def returnedBytes (events : List RxEvent) : List Byte :=
  events.filterMap fun
    | .returned value => some value
    | _ => none

/-- What an event says about the bytes accepted and returned before it. -/
def Timely (before : List RxEvent) : RxEvent → Prop
  | .dropped => (acceptedBytes before).length = (returnedBytes before).length + (bufferSize - 1)
  | .answered empty => empty = true ↔ returnedBytes before = acceptedBytes before
  | .minusOne => returnedBytes before = acceptedBytes before
  | _ => True

/-- The invariant: the buffer holds the bytes accepted and not yet returned, and a read that has begun
is about the first of them. -/
structure Intact (here : Receiving) (events : List RxEvent) (queue : List Byte) : Prop where
  holds : here.cb.Holds queue
  split : acceptedBytes events = returnedBytes events ++ queue
  checked : here.place = .checked → queue ≠ []
  loaded : ∀ value, here.place = .loaded value → queue.head? = some value
  timely : Each Timely events

section Step

variable {here : Receiving} {events : List RxEvent} {queue : List Byte}
  (intact : Intact here events queue)
include intact

/-- Everything accepted has been returned exactly when the queue is empty. -/
theorem Intact.empty_iff : returnedBytes events = acceptedBytes events ↔ queue = [] := by
  rw [intact.split, eq_comm, List.append_right_eq_self]

/-- An interrupt appends its byte, or drops it while the buffer is full. -/
theorem Intact.interrupt (data : Int) :
    ∃ queue', Intact (rxStep here (.interrupt data)).1
      (events ++ (rxStep here (.interrupt data)).2) queue' := by
  by_cases full : bufferFull here.cb = true
  · have length := (bufferFull_iff intact.holds).mp full
    have same : rxStep here (.interrupt data) = (here, [.dropped]) := by
      simp only [rxStep, usartRxVect, if_pos full]
    rw [same]
    refine ⟨queue, intact.holds, ?_, intact.checked, intact.loaded, ?_⟩
    · simpa [acceptedBytes, returnedBytes] using intact.split
    · refine each_snoc.mpr ⟨intact.timely, ?_⟩
      rw [Timely, intact.split, List.length_append, length]
  · have free : queue.length ≠ bufferSize - 1 := fun length =>
      full ((bufferFull_iff intact.holds).mpr length)
    have writes : rxStep here (.interrupt data) =
        ({ here with cb := writeBuffer here.cb data }, [.accepted (BitVec.ofInt 8 data)]) := by
      simp only [rxStep, usartRxVect, if_neg full]
    rw [writes]
    refine ⟨queue ++ [BitVec.ofInt 8 data], writeBuffer_holds intact.holds free data, ?_, ?_, ?_, ?_⟩
    · have split := intact.split
      unfold acceptedBytes returnedBytes at split ⊢
      rw [List.filterMap_append, List.filterMap_append, split]
      simp
    · exact fun _ => List.concat_ne_nil _ _
    · intro value place
      rw [List.head?_append_of_ne_nil]
      · exact intact.loaded value place
      · have first := intact.loaded value place
        rintro rfl
        cases first
    · exact each_snoc.mpr ⟨intact.timely, trivial⟩

/-- `buffer_empty` changes nothing. -/
theorem Intact.bufferEmpty :
    ∃ queue', Intact (rxStep here .bufferEmpty).1 (events ++ (rxStep here .bufferEmpty).2) queue' := by
  refine ⟨queue, ?_⟩
  unfold rxStep
  dsimp only
  split
  · refine ⟨intact.holds, ?_, intact.checked, intact.loaded, ?_⟩
    · simpa [acceptedBytes, returnedBytes] using intact.split
    · refine each_snoc.mpr ⟨intact.timely, ?_⟩
      rw [Timely, intact.empty_iff]
      exact bufferEmpty_iff intact.holds
  · rwa [List.append_nil]

/-- A step of a read keeps the queue until the last one, which removes the byte it returns. -/
theorem Intact.readBuffer :
    ∃ queue', Intact (rxStep here .readBuffer).1 (events ++ (rxStep here .readBuffer).2) queue' := by
  unfold rxStep
  dsimp only
  split
  · rename_i outside
    split
    · rename_i empty
      refine ⟨queue, intact.holds, ?_, intact.checked, intact.loaded, ?_⟩
      · simpa [acceptedBytes, returnedBytes] using intact.split
      · exact each_snoc.mpr ⟨intact.timely,
          intact.empty_iff.mpr ((bufferEmpty_iff intact.holds).mp empty)⟩
    · rename_i notEmpty
      rw [List.append_nil]
      refine ⟨queue, intact.holds, intact.split, fun _ => ?_, fun _ => nofun, intact.timely⟩
      rwa [bufferEmpty_iff intact.holds] at notEmpty
  · rename_i place
    rw [List.append_nil]
    refine ⟨queue, intact.holds, intact.split, nofun, fun value loads => ?_, intact.timely⟩
    obtain ⟨first, rest, split⟩ := List.exists_cons_of_ne_nil (intact.checked place)
    rw [← MainLine.loaded.inj loads, buffer_bufHead intact.holds split, split]
    rfl
  · rename_i value place
    obtain ⟨rest, split⟩ := List.head?_eq_some_iff.mp (intact.loaded value place)
    refine ⟨rest, advance_holds intact.holds split, ?_, nofun, fun _ => nofun,
      each_snoc.mpr ⟨intact.timely, trivial⟩⟩
    have pending := intact.split
    rw [split] at pending
    unfold acceptedBytes returnedBytes at pending ⊢
    rw [List.filterMap_append, List.filterMap_append, pending]
    simp

/-- **Every step keeps the invariant.** -/
theorem Intact.step (next : RxStep) :
    ∃ queue', Intact (rxStep here next).1 (events ++ (rxStep here next).2) queue' := by
  cases next with
  | interrupt data => exact intact.interrupt data
  | bufferEmpty => exact intact.bufferEmpty
  | readBuffer => exact intact.readBuffer

end Step

/-- **The receive buffer is a bounded queue under interrupts.** In every run from equal indices, both
indices stay in the buffer, the bytes returned are a prefix of the bytes accepted, and every byte
dropped and every answer that nothing is there comes at the right time. -/
theorem rxBuffer_fifo (buffer : Nat → Byte) (steps : List RxStep) :
    let ran := run rxStep ⟨⟨buffer, 0, 0⟩, .outside⟩ steps
    (ran.1.cb.bufHead < bufferSize ∧ ran.1.cb.bufTail < bufferSize) ∧
      returnedBytes ran.2 <+: acceptedBytes ran.2 ∧ Each Timely ran.2 := by
  intro ran
  have initial : Intact ⟨⟨buffer, 0, 0⟩, .outside⟩ [] [] :=
    ⟨initializeBuffer_holds ⟨buffer, 0, 0⟩, rfl, nofun, fun _ => nofun, each_nil⟩
  obtain ⟨queue, intact⟩ : ∃ queue, Intact ran.1 ran.2 queue :=
    run_invariant rxStep (fun here events => ∃ queue, Intact here events queue)
      (fun here events next ⟨_, intact⟩ => intact.step next) steps _ [] ⟨[], initial⟩
  exact ⟨⟨intact.holds.head_lt, intact.holds.tail_lt⟩, ⟨queue, intact.split.symm⟩, intact.timely⟩

end HdlcMarquee
