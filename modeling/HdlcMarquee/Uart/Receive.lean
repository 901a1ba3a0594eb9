/-
**Receiving into an array (`UART/uart.c` lines 28–56).**

`UART_receive` takes bytes from the receive buffer until it has found it empty for more than 4 ms. A
run is a list of steps: an interrupt may come before any step of the main line, also within a
`read_buffer` call, and every clock reading is arbitrary (`receiveStep`).

The test `byteCount <= length` lets one byte too many into the array. What has been stored says where a
call stands (`ReceiveStored`): up to `length` bytes they are the bytes taken, in order, and as soon as more
have been taken there is a store at index `length`. So a call keeps its promise exactly when it takes at
most `length` bytes, and no more than an `int` can count (`receive_exact_iff`).
-/

import HdlcMarquee.Target
import HdlcMarquee.Uart.Interrupt

namespace HdlcMarquee

open Generic

/-! ### The call -/

/-- Where the main line is: at the test of the inner loop, in its body, at the test of the time, or
behind the outer loop. -/
inductive ReceivePlace
  | inner
  | body
  | time
  | left
  deriving DecidableEq, Repr

/-- The receive buffer, and the locals of `UART_receive`. -/
structure Receive where
  rx : Receiving
  place : ReceivePlace
  overflow : Bool
  byteCount : BitVec 32
  startTime : BitVec 32

/-- `timeout_ms`. -/
def timeoutMs : BitVec 32 := 4

/-- What can happen next: an interrupt, or a step of the main line, which finds the clock at a value if
it reads it. -/
inductive ReceiveStep
  | interrupt (data : Int)
  | mainLine (millis : BitVec 32)

/-- What a step leaves behind: a byte taken from the receive buffer, or a store `data[index] = value`. -/
inductive ReceiveEvent
  | taken (value : Byte)
  | store (index : Nat) (value : Byte)
  deriving DecidableEq, Repr

/-- What the body of the inner loop does with the value of `reader`; a `uint8_t` keeps it modulo 256. -/
def receiveReader (length : BitVec 16) (here : Receive) (reader : Int) (millis : BitVec 32) :
    Receive × List ReceiveEvent :=
  let (here, stores) :=
    if here.byteCount ≤ length.setWidth 32 then
      (here, [ReceiveEvent.store here.byteCount.toNat (BitVec.ofInt 8 reader)])
    else ({ here with overflow := true }, [])
  ({ here with byteCount := here.byteCount + 1, startTime := millis, place := .inner }, stores)

/-- One step of a run. -/
def receiveStep (length : BitVec 16) (here : Receive) : ReceiveStep → Receive × List ReceiveEvent
  | .interrupt data => ({ here with rx := (rxStep here.rx (.interrupt data)).1 }, [])
  | .mainLine millis =>
    match here.place with
    | .inner =>
      if bufferEmpty here.rx.cb then ({ here with place := .time }, [])
      else ({ here with place := .body }, [])
    | .body =>
      let moved := rxStep here.rx .readBuffer
      let here := { here with rx := moved.1 }
      match moved.2 with
      | .returned value :: _ =>
        let stored := receiveReader length here value.toNat millis
        (stored.1, .taken value :: stored.2)
      | .minusOne :: _ => receiveReader length here (-1) millis
      | _ => (here, [])
    | .time =>
      if timeoutMs < millis - here.startTime then ({ here with place := .left }, [])
      else ({ here with place := .inner }, [])
    | .left => (here, [])

/-- The start of a call, which reads the clock. -/
def receiveStart (usartRxBuffer : CircularBuffer) (millis : BitVec 32) : Receive where
  rx := ⟨usartRxBuffer, .outside⟩
  place := .inner
  overflow := false
  byteCount := 0
  startTime := millis

/-- The return value of a call that has left the outer loop: -1 becomes a `uint32_t` in the conditional
expression, and its value an `int`. -/
def Receive.result (here : Receive) : Option Int :=
  if here.place = .left then
    some (toInt (if here.overflow then (-1 : BitVec 32) else here.byteCount).toNat)
  else none

/-! ### What a run leaves behind -/

/-- The bytes taken. -/
def takenBytes (events : List ReceiveEvent) : List Byte :=
  events.filterMap fun
    | .taken value => some value
    | .store _ _ => none

/-- The stores, each value with its index. -/
def storesMade (events : List ReceiveEvent) : List (Byte × Nat) :=
  events.filterMap fun
    | .taken _ => none
    | .store index value => some (value, index)

/-- The array behind the stores. -/
def written (data : Nat → Byte) (stores : List (Byte × Nat)) : Nat → Byte :=
  stores.foldl (fun data store => Function.update data store.2 store.1) data

theorem takenBytes_append (first second : List ReceiveEvent) :
    takenBytes (first ++ second) = takenBytes first ++ takenBytes second := List.filterMap_append

theorem storesMade_append (first second : List ReceiveEvent) :
    storesMade (first ++ second) = storesMade first ++ storesMade second := List.filterMap_append

/-- Bytes stored one behind the other are found in order. -/
theorem written_zipIdx (data : Nat → Byte) (bytes : List Byte) (index : Nat) :
    written data bytes.zipIdx index = bytes.getD index (data index) := by
  induction bytes using List.reverseRecOn with
  | nil => rfl
  | append_singleton bytes byte ih =>
    unfold written at ih ⊢
    rw [List.zipIdx_append, List.foldl_append, Nat.zero_add]
    simp only [List.zipIdx_singleton, List.foldl_cons, List.foldl_nil]
    by_cases here : index = bytes.length
    · subst here
      simp [List.getD_eq_getElem?_getD]
    · rw [Function.update_of_ne here, ih, List.getD_eq_getElem?_getD, List.getD_eq_getElem?_getD]
      rcases Nat.lt_or_ge index bytes.length with inside | outside
      · rw [List.getElem?_append_left inside]
      · rw [List.getElem?_eq_none outside, List.getElem?_eq_none (by simp; omega)]

/-- What the call promises about the bytes taken, the stores and the result, for any contents of the
array before. -/
structure ReceivedExactly (length : Nat) (taken : List Byte) (stored : List (Byte × Nat))
    (result : Int) : Prop where
  inside : ∀ store ∈ stored, store.2 < length
  all : taken.length ≤ length → result = taken.length ∧
    ∀ (data : Nat → Byte) (index : Nat), index < taken.length →
      taken[index]? = some (written data stored index)
  tooMany : length < taken.length → result = -1 ∧
    ∀ (data : Nat → Byte) (index : Nat), index < length →
      taken[index]? = some (written data stored index)

/-! ### The invariant -/

/-- The counter counts the bytes taken, and the stores are these bytes, or one of them is outside. -/
structure ReceiveStored (length : BitVec 16) (here : Receive) (events : List ReceiveEvent) : Prop where
  counter : here.byteCount = BitVec.ofNat 32 (takenBytes events).length
  short : (takenBytes events).length ≤ length.toNat →
    storesMade events = (takenBytes events).zipIdx ∧ here.overflow = false
  long : length.toNat < (takenBytes events).length → ∃ value, (value, length.toNat) ∈ storesMade events

/-- In the body of the inner loop the receive buffer is not empty before it is read. -/
structure ReceiveIntact (length : BitVec 16) (here : Receive) (events : List ReceiveEvent) : Prop where
  stored : ReceiveStored length here events
  waiting : here.place = .body → here.rx.place = .outside → bufferEmpty here.rx.cb = false
  outside : here.place ≠ .body → here.rx.place = .outside

/-- An interrupt never empties the buffer. -/
theorem usartRxVect_notEmpty {cb : CircularBuffer} (some : bufferEmpty cb = false) (data : Int) :
    bufferEmpty (usartRxVect cb data) = false := by
  unfold usartRxVect writeBuffer
  by_cases full : bufferFull cb = true
  · rw [if_pos full]
    exact some
  · rw [if_neg full, if_neg full]
    simp only [bufferFull, decide_eq_true_eq] at full
    simp only [bufferEmpty, decide_eq_false_iff_not]
    exact Ne.symm full

/-- Up to the limit the counter is the number of bytes taken, and passes the test. -/
theorem ReceiveStored.byteCount_toNat {length : BitVec 16} {here : Receive}
    {events : List ReceiveEvent} (stored : ReceiveStored length here events)
    (low : (takenBytes events).length ≤ length.toNat) :
    here.byteCount.toNat = (takenBytes events).length ∧ here.byteCount ≤ length.setWidth 32 := by
  have limit : length.toNat < 65536 := length.isLt
  have exact : here.byteCount.toNat = (takenBytes events).length := by
    rw [stored.counter, BitVec.toNat_ofNat]
    exact Nat.mod_eq_of_lt (by omega)
  rw [BitVec.le_def, exact, BitVec.toNat_setWidth]
  exact ⟨rfl, low.trans (Nat.mod_eq_of_lt (by omega)).ge⟩

theorem receiveReader_eq (length : BitVec 16) (here : Receive) (value : Byte) (millis : BitVec 32) :
    receiveReader length here value.toNat millis =
      ({ here with
          overflow := if here.byteCount ≤ length.setWidth 32 then here.overflow else true
          byteCount := here.byteCount + 1
          startTime := millis
          place := .inner },
        if here.byteCount ≤ length.setWidth 32 then [.store here.byteCount.toNat value] else []) := by
  have same : BitVec.ofInt 8 (value.toNat : Int) = value := by simp
  unfold receiveReader
  by_cases inside : here.byteCount ≤ length.setWidth 32
  · simp only [if_pos inside, same]
  · simp only [if_neg inside]

section Reader

variable (events : List ReceiveEvent) (value : Byte) (index : Nat) (inside : Prop)
  [Decidable inside]

theorem takenBytes_reader :
    takenBytes (events ++ .taken value :: if inside then [.store index value] else []) =
      takenBytes events ++ [value] := by
  rw [takenBytes_append]
  split <;> rfl

theorem storesMade_reader :
    storesMade (events ++ .taken value :: if inside then [.store index value] else []) =
      storesMade events ++ if inside then [(value, index)] else [] := by
  rw [storesMade_append]
  split <;> rfl

end Reader

/-- **A byte taken** is stored behind the others, up to one too many. -/
theorem ReceiveStored.reader {length : BitVec 16} {here : Receive} {events : List ReceiveEvent}
    (stored : ReceiveStored length here events) (outside : here.rx.place = .outside) (value : Byte)
    (millis : BitVec 32) :
    ReceiveIntact length (receiveReader length here value.toNat millis).1
      (events ++ .taken value :: (receiveReader length here value.toNat millis).2) := by
  rw [receiveReader_eq]
  refine ⟨⟨?_, fun low => ?_, fun high => ?_⟩, (fun body => by cases body), fun _ => outside⟩
  · rw [takenBytes_reader, List.length_append, List.length_singleton, stored.counter]
    exact (BitVec.ofNat_add _ _).symm
  · rw [takenBytes_reader, List.length_append, List.length_singleton] at low
    obtain ⟨exact, below⟩ := stored.byteCount_toNat (by omega)
    obtain ⟨made, free⟩ := stored.short (by omega)
    rw [takenBytes_reader, storesMade_reader, if_pos below, made, exact, List.zipIdx_append,
      Nat.zero_add]
    exact ⟨rfl, (if_pos below).trans free⟩
  · rw [takenBytes_reader, List.length_append, List.length_singleton] at high
    rw [storesMade_reader]
    by_cases first : (takenBytes events).length = length.toNat
    · -- the byte that follows the last cell
      obtain ⟨exact, below⟩ := stored.byteCount_toNat first.le
      refine ⟨value, List.mem_append_right _ ?_⟩
      rw [if_pos below, exact, first]
      exact List.mem_cons_self
    · obtain ⟨old, member⟩ := stored.long (by omega)
      exact ⟨old, List.mem_append_left _ member⟩

/-- Steps that take no byte keep the invariant. -/
theorem ReceiveIntact.quiet {length : BitVec 16} {here next : Receive} {events : List ReceiveEvent}
    (received : ReceiveIntact length here events)
    (waiting : next.place = .body → next.rx.place = .outside → bufferEmpty next.rx.cb = false)
    (outside : next.place ≠ .body → next.rx.place = .outside)
    (byteCount : next.byteCount = here.byteCount) (overflow : next.overflow = here.overflow) :
    ReceiveIntact length next (events ++ []) := by
  obtain ⟨⟨counter, short, long⟩, _, _⟩ := received
  rw [List.append_nil]
  exact ⟨⟨byteCount.trans counter, fun low => overflow ▸ short low, long⟩, waiting, outside⟩

/-- **One step keeps the invariant.** -/
theorem ReceiveIntact.step {length : BitVec 16} {here : Receive} {events : List ReceiveEvent}
    (received : ReceiveIntact length here events) (step : ReceiveStep) :
    ReceiveIntact length (receiveStep length here step).1
      (events ++ (receiveStep length here step).2) := by
  obtain ⟨⟨cb, reading⟩, place, overflow, byteCount, startTime⟩ := here
  have waiting := received.waiting
  have outside := received.outside
  cases step with
  | interrupt data =>
    exact received.quiet (fun body free => usartRxVect_notEmpty (waiting body free) data) outside
      rfl rfl
  | mainLine millis =>
    cases place with
    | inner =>
      by_cases empty : bufferEmpty cb = true
      · simp only [receiveStep, empty, if_true]
        exact received.quiet (fun body => by cases body) (fun _ => outside (by simp)) rfl rfl
      · simp only [receiveStep, empty, Bool.false_eq_true, if_false]
        exact received.quiet (fun _ _ => by simpa using empty) (fun other => absurd rfl other) rfl rfl
    | body =>
      cases reading with
      | outside =>
        have some : bufferEmpty cb = false := waiting rfl rfl
        simp only [receiveStep, rxStep, some, Bool.false_eq_true, if_false]
        exact received.quiet (fun _ free => by cases free) (fun other => absurd rfl other) rfl rfl
      | checked =>
        exact received.quiet (fun _ free => by cases free) (fun other => absurd rfl other) rfl rfl
      | loaded value =>
        obtain ⟨counter, short, long⟩ := received.stored
        have read : ReceiveStored length ⟨⟨{ cb with bufHead := (cb.bufHead + 1) % bufferSize }, .outside⟩,
            .body, overflow, byteCount, startTime⟩ events := ⟨counter, short, long⟩
        exact read.reader rfl value millis
    | time =>
      by_cases late : timeoutMs < millis - startTime
      · simp only [receiveStep, late, if_true]
        exact received.quiet (fun body => by cases body) (fun _ => outside (by simp)) rfl rfl
      · simp only [receiveStep, late, if_false]
        exact received.quiet (fun body => by cases body) (fun _ => outside (by simp)) rfl rfl
    | left => exact received.quiet waiting outside rfl rfl

/-- **The invariant of a call.** -/
theorem receive_intact (length : BitVec 16) (usartRxBuffer : CircularBuffer) (millis : BitVec 32)
    (steps : List ReceiveStep) :
    ReceiveIntact length (run (receiveStep length) (receiveStart usartRxBuffer millis) steps).1
      (run (receiveStep length) (receiveStart usartRxBuffer millis) steps).2 := by
  refine run_invariant (receiveStep length) (ReceiveIntact length)
    (fun _ _ step received => received.step step) steps _ [] ?_
  exact ⟨⟨rfl, fun _ => ⟨rfl, rfl⟩, fun high => absurd high (Nat.not_lt_zero _)⟩,
    (fun body => by cases body), fun _ => rfl⟩

/-! ### Whole calls -/

theorem result_of_stored {length : BitVec 16} {here : Receive} {events : List ReceiveEvent}
    (stored : ReceiveStored length here events) {result : Int} (returns : here.result = some result)
    (low : (takenBytes events).length ≤ length.toNat) :
    result = toInt (takenBytes events).length := by
  have limit : length.toNat < 65536 := length.isLt
  unfold Receive.result at returns
  split at returns
  · rw [← Option.some.inj returns, (stored.short low).2, stored.counter]
    simp only [Bool.false_eq_true, if_false, BitVec.toNat_ofNat]
    rw [Nat.mod_eq_of_lt (by omega)]
  · cases returns

/-- **When a call receives exactly**: whatever the interrupts and the clock do, exactly when it takes at
most `length` bytes, and no more than an `int` can count. -/
theorem receive_exact_iff (length : BitVec 16) (usartRxBuffer : CircularBuffer) (millis : BitVec 32)
    (steps : List ReceiveStep) {result : Int}
    (returns : (run (receiveStep length) (receiveStart usartRxBuffer millis) steps).1.result =
      some result) :
    ReceivedExactly length.toNat
        (takenBytes (run (receiveStep length) (receiveStart usartRxBuffer millis) steps).2)
        (storesMade (run (receiveStep length) (receiveStart usartRxBuffer millis) steps).2) result ↔
      (takenBytes (run (receiveStep length) (receiveStart usartRxBuffer millis) steps).2).length ≤
          length.toNat ∧
        (takenBytes (run (receiveStep length) (receiveStart usartRxBuffer millis) steps).2).length ≤
          32767 := by
  have stored := (receive_intact length usartRxBuffer millis steps).stored
  generalize run (receiveStep length) (receiveStart usartRxBuffer millis) steps = call at *
  constructor
  · intro exact
    have low : (takenBytes call.2).length ≤ length.toNat := by
      by_contra high
      obtain ⟨value, member⟩ := stored.long (Nat.not_le.mp high)
      exact absurd (exact.inside _ member) (Nat.lt_irrefl _)
    have counted := (exact.all low).1
    rw [result_of_stored stored returns low, toInt_eq_iff, fitsInt_iff] at counted
    exact ⟨low, by omega⟩
  · rintro ⟨low, range⟩
    obtain ⟨made, _⟩ := stored.short low
    refine ⟨fun store member => ?_, fun _ => ⟨?_, fun data index inside => ?_⟩,
      fun high => absurd low (Nat.not_le.mpr high)⟩
    · rw [made] at member
      exact (List.snd_lt_of_mem_zipIdx member).trans_le (by omega)
    · rw [result_of_stored stored returns low, toInt_eq_iff, fitsInt_iff]
      omega
    · rw [made, written_zipIdx, List.getD_eq_getElem _ _ inside, List.getElem?_eq_getElem inside]

/-- The receive buffer behind `initialize_buffer`. -/
def emptyRxBuffer : CircularBuffer := ⟨fun _ => 0, 0, 0⟩

/-- Bytes that arrive before the first test, and a gap of 5 ms behind them. -/
def earlyBytes (arrivals : List Int) : List ReceiveStep :=
  arrivals.map .interrupt ++ List.replicate (4 * arrivals.length + 1) (.mainLine 10) ++ [.mainLine 15]

theorem receive_exact_one :
    ReceivedExactly 1
        (takenBytes (run (receiveStep 1) (receiveStart emptyRxBuffer 10) (earlyBytes [0x41])).2)
        (storesMade (run (receiveStep 1) (receiveStart emptyRxBuffer 10) (earlyBytes [0x41])).2) 1 ↔
      (takenBytes
        (run (receiveStep 1) (receiveStart emptyRxBuffer 10) (earlyBytes [0x41])).2).length ≤ 1 ∧
        (takenBytes
          (run (receiveStep 1) (receiveStart emptyRxBuffer 10) (earlyBytes [0x41])).2).length ≤
          32767 :=
  receive_exact_iff 1 emptyRxBuffer 10 (earlyBytes [0x41]) (by decide)

/-- **The byte behind the array.** Of two bytes for an array of length 1 the second is stored outside,
and the call returns 2. -/
theorem not_receive_exact :
    (run (receiveStep 1) (receiveStart emptyRxBuffer 10) (earlyBytes [0x41, 0x42])).1.result =
        some 2 ∧
      ¬ ReceivedExactly 1
        (takenBytes (run (receiveStep 1) (receiveStart emptyRxBuffer 10) (earlyBytes [0x41, 0x42])).2)
        (storesMade (run (receiveStep 1) (receiveStart emptyRxBuffer 10) (earlyBytes [0x41, 0x42])).2)
        2 := by
  refine ⟨by decide, fun exact => ?_⟩
  have outside : ((0x42 : Byte), 1) ∈ storesMade
      (run (receiveStep 1) (receiveStart emptyRxBuffer 10) (earlyBytes [0x41, 0x42])).2 := by decide
  exact absurd (exact.inside _ outside) (Nat.lt_irrefl _)

end HdlcMarquee
