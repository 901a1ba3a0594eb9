/-
**The circular buffer (`UART/circular_buf.c`, `struct circular_buffer` of `UART/circular_buf.h`).**

The functions work on the cells and the two indices. `CircularBuffer.Holds` says which queue of bytes
a buffer stands for, and each function has one lemma that says what it does to the queue: a write
appends, unless `BUFFER_SIZE - 1` bytes are stored, and a read removes the first byte. So any calls of
them return what they return of a queue of at most that length (`run_bufferCall`).
-/

import HdlcMarquee.Generic.Machine
import HdlcMarquee.Generic.Ring
import HdlcMarquee.Hdlc.Fcs

namespace HdlcMarquee

open Generic

/-- `BUFFER_SIZE`. -/
def bufferSize : Nat := 32

/-- `struct circular_buffer`. -/
structure CircularBuffer where
  buffer : Nat → Byte
  bufHead : Nat
  bufTail : Nat

/-- `initialize_buffer`. The cells keep what they held. -/
def initializeBuffer (cb : CircularBuffer) : CircularBuffer := { cb with bufHead := 0, bufTail := 0 }

/-- `buffer_empty`. -/
def bufferEmpty (cb : CircularBuffer) : Bool := cb.bufHead = cb.bufTail

/-- `buffer_full`. -/
def bufferFull (cb : CircularBuffer) : Bool := (cb.bufTail + 1) % bufferSize = cb.bufHead

/-- `write_buffer`; a cell is an `unsigned char` and keeps the value modulo 256. -/
def writeBuffer (cb : CircularBuffer) (value : Int) : CircularBuffer :=
  if bufferFull cb then cb
  else { cb with
    buffer := Function.update cb.buffer cb.bufTail (BitVec.ofInt 8 value)
    bufTail := (cb.bufTail + 1) % bufferSize }

/-- `read_buffer`: the buffer and the return value. -/
def readBuffer (cb : CircularBuffer) : CircularBuffer × Int :=
  if bufferEmpty cb then (cb, -1)
  else ({ cb with bufHead := (cb.bufHead + 1) % bufferSize }, (cb.buffer cb.bufHead).toNat)

/-! ### The queue of a buffer -/

/-- The ring of a buffer. -/
def CircularBuffer.ring (cb : CircularBuffer) : CellRing Byte := ⟨cb.buffer, cb.bufHead, cb.bufTail⟩

/-- The bytes in a buffer, from the head on. -/
def CircularBuffer.bytes (cb : CircularBuffer) : List Byte := cb.ring.contents bufferSize

/-- A buffer holds a queue of bytes. -/
def CircularBuffer.Holds (cb : CircularBuffer) (queue : List Byte) : Prop :=
  cb.ring.Holds bufferSize queue

/-- A buffer with equal indices is empty. -/
theorem holds_nil {cb : CircularBuffer} (empty : cb.bufHead = cb.bufTail)
    (inside : cb.bufHead < bufferSize) : cb.Holds [] := by
  refine ⟨inside, Nat.zero_lt_succ _, ?_, fun _ none => absurd none (Nat.not_lt_zero _)⟩
  rw [List.length_nil, Nat.add_zero]
  exact empty.symm.trans (Nat.mod_eq_of_lt inside).symm

theorem initializeBuffer_holds (cb : CircularBuffer) : (initializeBuffer cb).Holds [] :=
  holds_nil rfl (Nat.zero_lt_succ _)

section Holds

variable {cb : CircularBuffer} {queue : List Byte} (holds : cb.Holds queue)
include holds

theorem bytes_eq : cb.bytes = queue := holds.contents_eq

theorem bufferEmpty_iff : bufferEmpty cb = true ↔ queue = [] := by
  rw [← CellRing.Holds.empty_iff holds]
  exact decide_eq_true_iff

theorem bufferFull_iff : bufferFull cb = true ↔ queue.length = bufferSize - 1 := by
  have full := CellRing.Holds.full_iff holds
  have same : queue.length + 1 = bufferSize ↔ queue.length = bufferSize - 1 := by
    unfold bufferSize
    omega
  rw [← same, ← full]
  exact decide_eq_true_iff

/-- A write into a full buffer is ignored. -/
theorem writeBuffer_full (full : queue.length = bufferSize - 1) (value : Int) :
    writeBuffer cb value = cb := by
  unfold writeBuffer
  rw [if_pos ((bufferFull_iff holds).mpr full)]

/-- **A write appends a byte.** -/
theorem writeBuffer_holds (free : queue.length ≠ bufferSize - 1) (value : Int) :
    (writeBuffer cb value).Holds (queue ++ [BitVec.ofInt 8 value]) := by
  have notFull : ¬ bufferFull cb = true := fun full => free ((bufferFull_iff holds).mp full)
  have room : queue.length + 1 ≠ bufferSize := by
    unfold bufferSize at free ⊢
    omega
  unfold writeBuffer
  rw [if_neg notFull]
  exact CellRing.Holds.push holds room _

/-- A read of an empty buffer returns -1. -/
theorem readBuffer_empty (empty : queue = []) : readBuffer cb = (cb, -1) := by
  unfold readBuffer
  rw [if_pos ((bufferEmpty_iff holds).mpr empty)]

/-- The cell at the head holds the first byte. -/
theorem buffer_bufHead {first : Byte} {rest : List Byte} (split : queue = first :: rest) :
    cb.buffer cb.bufHead = first :=
  CellRing.Holds.front holds split

/-- Moving the head removes the first byte. -/
theorem advance_holds {first : Byte} {rest : List Byte} (split : queue = first :: rest) :
    ({ cb with bufHead := (cb.bufHead + 1) % bufferSize } : CircularBuffer).Holds rest :=
  CellRing.Holds.pop holds split

/-- **A read removes the first byte and returns it.** -/
theorem readBuffer_holds {first : Byte} {rest : List Byte} (split : queue = first :: rest) :
    (readBuffer cb).1.Holds rest ∧ (readBuffer cb).2 = first.toNat := by
  have notEmpty : ¬ bufferEmpty cb = true := by
    rw [bufferEmpty_iff holds, split]
    exact List.cons_ne_nil _ _
  unfold readBuffer
  rw [if_neg notEmpty]
  exact ⟨advance_holds holds split, by rw [buffer_bufHead holds split]⟩

end Holds

/-! ### Any calls -/

/-- A call on a buffer. -/
inductive BufferCall
  | writeBuffer (value : Int)
  | readBuffer

/-- What a call does to a buffer, and what it returns. -/
def bufferCall (cb : CircularBuffer) : BufferCall → CircularBuffer × List Int
  | .writeBuffer value => (writeBuffer cb value, [])
  | .readBuffer => ((readBuffer cb).1, [(readBuffer cb).2])

/-- What it does to a queue that is never longer than `BUFFER_SIZE - 1`. -/
def queueCall (queue : List Byte) : BufferCall → List Byte × List Int
  | .writeBuffer value =>
    (if queue.length = bufferSize - 1 then queue else queue ++ [BitVec.ofInt 8 value], [])
  | .readBuffer =>
    match queue with
    | [] => ([], [-1])
    | first :: rest => (rest, [first.toNat])

/-- **One call.** -/
theorem bufferCall_holds {cb : CircularBuffer} {queue : List Byte} (holds : cb.Holds queue)
    (call : BufferCall) :
    (bufferCall cb call).1.Holds (queueCall queue call).1 ∧
      (bufferCall cb call).2 = (queueCall queue call).2 := by
  cases call with
  | writeBuffer value =>
    refine ⟨?_, rfl⟩
    dsimp only [bufferCall, queueCall]
    by_cases full : queue.length = bufferSize - 1
    · rw [if_pos full, writeBuffer_full holds full]
      exact holds
    · rw [if_neg full]
      exact writeBuffer_holds holds full value
  | readBuffer =>
    cases queue with
    | nil =>
      rw [bufferCall, readBuffer_empty holds rfl]
      exact ⟨holds, rfl⟩
    | cons first rest =>
      obtain ⟨left, returned⟩ := readBuffer_holds holds rfl
      exact ⟨left, congrArg (fun value => [value]) returned⟩

/-- **A buffer is a queue** of at most `BUFFER_SIZE - 1` bytes, from `initialize_buffer` on. -/
theorem run_bufferCall (cb : CircularBuffer) (calls : List BufferCall) :
    (run bufferCall (initializeBuffer cb) calls).1.Holds (run queueCall [] calls).1 ∧
      (run bufferCall (initializeBuffer cb) calls).2 = (run queueCall [] calls).2 :=
  run_related bufferCall CircularBuffer.Holds (fun _ _ call holds => bufferCall_holds holds call)
    (initializeBuffer_holds cb) calls

end HdlcMarquee
