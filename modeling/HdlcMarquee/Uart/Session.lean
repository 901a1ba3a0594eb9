/-
**From the receive interrupt to the parser.**

The main line calls `UART_receive` again and again, with arrays of its own, and hands what each call
returns to the parser; the interrupt comes before any step of it, within a call or between two. What the
calls hand on is, in order, what the interrupt has accepted (`session_intact`, `SessionIntact.handed`), so
the outcomes of the parser are those of the accepted bytes, as far as they have been handed on
(`session_outcomes`): neither when the interrupts come, nor what the clock says, nor how long the arrays are
ever shows.
-/

import HdlcMarquee.Hdlc.Segments
import HdlcMarquee.Uart.Receive

namespace HdlcMarquee

open Generic

/-! ### Sessions -/

/-- The main line between two calls, or within one, with the array of the caller. -/
inductive Session
  | between (usartRxBuffer : CircularBuffer)
  | within (length : BitVec 16) (data : Nat → Byte) (call : Receive)

/-- What can happen next: an interrupt, the beginning of a call, or a step of the call. -/
inductive SessionStep
  | interrupt (data : Int)
  | uartReceive (length : BitVec 16) (data : Nat → Byte) (millis : BitVec 32)
  | mainLine (millis : BitVec 32)

/-- What a step leaves behind: a byte accepted or dropped by the interrupt, a byte taken by a call, or the
result of a call and its array. -/
inductive SessionEvent
  | accepted (value : Byte)
  | dropped
  | taken (value : Byte)
  | returned (length : BitVec 16) (result : Int) (data : Nat → Byte)

/-- What the interrupt makes of a byte. -/
def arrival (usartRxBuffer : CircularBuffer) (data : Int) : SessionEvent :=
  if bufferFull usartRxBuffer then .dropped else .accepted (BitVec.ofInt 8 data)

/-- One step of a session. -/
def sessionStep : Session → SessionStep → Session × List SessionEvent
  | .between cb, .interrupt data => (.between (usartRxVect cb data), [arrival cb data])
  | .between cb, .uartReceive length data millis => (.within length data (receiveStart cb millis), [])
  | .within length data call, .interrupt byte =>
    (.within length data (receiveStep length call (.interrupt byte)).1, [arrival call.rx.cb byte])
  | .within length data call, .mainLine millis =>
    let made := receiveStep length call (.mainLine millis)
    let data := written data (storesMade made.2)
    let taken := (takenBytes made.2).map .taken
    match made.1.result with
    | none => (.within length data made.1, taken)
    | some result => (.between made.1.rx.cb, taken ++ [.returned length result data])
  | here, _ => (here, [])

/-- What an event is for the receive buffer. -/
def SessionEvent.rxEvent : SessionEvent → Option RxEvent
  | .accepted value => some (.accepted value)
  | .dropped => some .dropped
  | .taken value => some (.returned value)
  | .returned _ _ _ => none

/-- The bytes that the interrupt has accepted. -/
def acceptedOf (events : List SessionEvent) : List Byte :=
  acceptedBytes (events.filterMap SessionEvent.rxEvent)

/-- The bytes that the calls have taken. -/
def takenOf (events : List SessionEvent) : List Byte :=
  returnedBytes (events.filterMap SessionEvent.rxEvent)

/-- The cells `data[0]` to `data[result - 1]` of every call. -/
def handedOn (events : List SessionEvent) : List (List Byte) :=
  events.filterMap fun
    | .returned _ result data => some ((List.range result.toNat).map data)
    | _ => none

/-- The length that was passed to every call, and its result. -/
def resultsOf (events : List SessionEvent) : List (BitVec 16 × Int) :=
  events.filterMap fun
    | .returned length result _ => some (length, result)
    | _ => none

/-- No array is longer than an `int` counts, and every result is a number of bytes that the array has: this
a caller can see. -/
def InBounds (events : List SessionEvent) : Prop :=
  ∀ call ∈ resultsOf events, call.1.toNat ≤ 32767 ∧ 0 ≤ call.2 ∧ call.2 ≤ call.1.toNat

instance (events : List SessionEvent) : Decidable (InBounds events) :=
  inferInstanceAs (Decidable (∀ call ∈ resultsOf events, _))

/-- The receive buffer, and the place of the main line in `read_buffer`. -/
def Session.rx : Session → Receiving
  | .between cb => ⟨cb, .outside⟩
  | .within _ _ call => call.rx

theorem takenOf_append (first second : List SessionEvent) :
    takenOf (first ++ second) = takenOf first ++ takenOf second := by
  unfold takenOf returnedBytes
  rw [List.filterMap_append, List.filterMap_append]

theorem handedOn_append (first second : List SessionEvent) :
    handedOn (first ++ second) = handedOn first ++ handedOn second := List.filterMap_append

theorem rxEvent_taken (taken : List Byte) :
    (taken.map SessionEvent.taken).filterMap SessionEvent.rxEvent = taken.map .returned := by
  rw [List.filterMap_map, ← List.filterMap_eq_map]
  rfl

theorem takenOf_taken (taken : List Byte) : takenOf (taken.map .taken) = taken := by
  unfold takenOf returnedBytes
  rw [rxEvent_taken, List.filterMap_map]
  exact (List.filterMap_congr fun _ _ => rfl).trans List.filterMap_some

theorem handedOn_taken (taken : List Byte) : handedOn (taken.map .taken) = [] := by
  unfold handedOn
  rw [List.filterMap_map]
  exact List.filterMap_eq_nil_iff.mpr fun _ _ => rfl

/-! ### One step of a call -/

section Call

variable {length : BitVec 16} {call : Receive} {events : List ReceiveEvent}
  (received : ReceiveIntact length call events)
include received

/-- A step of the main line is at most one step of `read_buffer`. -/
theorem receiveStep_rx {past : List RxEvent} {queue : List Byte} (intact : Intact call.rx past queue)
    (millis : BitVec 32) :
    ∃ queue', Intact (receiveStep length call (.mainLine millis)).1.rx
      (past ++ (takenBytes (receiveStep length call (.mainLine millis)).2).map .returned) queue' := by
  obtain ⟨⟨cb, reading⟩, place, overflow, byteCount, startTime⟩ := call
  have still : ∃ queue', Intact ⟨cb, reading⟩ (past ++ []) queue' := by
    rw [List.append_nil]
    exact ⟨queue, intact⟩
  cases place with
  | inner =>
    by_cases empty : bufferEmpty cb = true
    · simp only [receiveStep, empty, if_true]
      exact still
    · simp only [receiveStep, empty, Bool.false_eq_true, if_false]
      exact still
  | body =>
    have read := intact.readBuffer
    cases reading with
    | outside =>
      have some : bufferEmpty cb = false := received.waiting rfl rfl
      simp only [receiveStep, rxStep, some, Bool.false_eq_true, if_false] at read ⊢
      exact read
    | checked => exact read
    | loaded value =>
      simp only [receiveStep, rxStep, receiveReader_eq] at read ⊢
      have alone := takenBytes_reader [] value byteCount.toNat (byteCount ≤ length.setWidth 32)
      rw [List.nil_append] at alone
      rw [alone]
      exact read
  | time =>
    by_cases late : timeoutMs < millis - startTime
    · simp only [receiveStep, late, if_true]
      exact still
    · simp only [receiveStep, late, if_false]
      exact still
  | left => exact still

/-- A byte more than the array has room for and one is noticed. -/
theorem receiveStep_overflow
    (noticed : length.toNat + 1 < (takenBytes events).length → call.overflow = true)
    (step : ReceiveStep)
    (more : length.toNat + 1 < (takenBytes (events ++ (receiveStep length call step).2)).length) :
    (receiveStep length call step).1.overflow = true := by
  obtain ⟨⟨cb, reading⟩, place, overflow, byteCount, startTime⟩ := call
  have same : takenBytes (events ++ []) = takenBytes events := congrArg takenBytes (List.append_nil _)
  cases step with
  | interrupt data => exact noticed (same ▸ more)
  | mainLine millis =>
    cases place with
    | inner =>
      by_cases empty : bufferEmpty cb = true
      · simp only [receiveStep, empty, if_true] at more ⊢
        exact noticed (same ▸ more)
      · simp only [receiveStep, empty, Bool.false_eq_true, if_false] at more ⊢
        exact noticed (same ▸ more)
    | body =>
      cases reading with
      | outside =>
        have some : bufferEmpty cb = false := received.waiting rfl rfl
        simp only [receiveStep, rxStep, some, Bool.false_eq_true, if_false] at more ⊢
        exact noticed (same ▸ more)
      | checked => exact noticed (same ▸ more)
      | loaded value =>
        simp only [receiveStep, rxStep, receiveReader_eq] at more ⊢
        rw [takenBytes_reader, List.length_append, List.length_singleton] at more
        by_cases first : (takenBytes events).length = length.toNat + 1
        · -- the counter is behind the last index that passes the test
          have limit : length.toNat < 65536 := length.isLt
          have counter : byteCount.toNat = length.toNat + 1 := by
            have counts := congrArg BitVec.toNat received.stored.counter
            rw [first, BitVec.toNat_ofNat, Nat.mod_eq_of_lt (by omega)] at counts
            exact counts
          refine if_neg fun below => ?_
          rw [BitVec.le_def, counter, BitVec.toNat_setWidth, Nat.mod_eq_of_lt (by omega)] at below
          exact Nat.not_succ_le_self _ below
        · have before : overflow = true := noticed (by omega)
          rw [before]
          exact ite_self _
    | time =>
      by_cases late : timeoutMs < millis - startTime
      · simp only [receiveStep, late, if_true] at more ⊢
        exact noticed (same ▸ more)
      · simp only [receiveStep, late, if_false] at more ⊢
        exact noticed (same ▸ more)
    | left => exact noticed (same ▸ more)

end Call

/-- **What a call returns** when its result is a number of bytes that the array has. -/
theorem result_inBounds {length : BitVec 16} {call : Receive} {events : List ReceiveEvent}
    (stored : ReceiveStored length call events)
    (noticed : length.toNat + 1 < (takenBytes events).length → call.overflow = true) {result : Int}
    (returns : call.result = some result) (short : length.toNat ≤ 32767) (positive : 0 ≤ result)
    (inside : result ≤ length.toNat) (data : Nat → Byte) :
    (List.range result.toNat).map (written data (storesMade events)) = takenBytes events := by
  have low : (takenBytes events).length ≤ length.toNat := by
    by_contra high
    have value : result = toInt (if call.overflow then (-1 : BitVec 32) else call.byteCount).toNat := by
      unfold Receive.result at returns
      split at returns
      · exact (Option.some.inj returns).symm
      · cases returns
    by_cases unnoticed : call.overflow = true
    · rw [if_pos unnoticed] at value
      have minus : toInt ((-1 : BitVec 32).toNat : Int) = -1 := by decide
      omega
    · have one : (takenBytes events).length = length.toNat + 1 := by
        by_contra other
        exact unnoticed (noticed (by omega))
      have counter : call.byteCount.toNat = length.toNat + 1 := by
        rw [stored.counter, one, BitVec.toNat_ofNat]
        exact Nat.mod_eq_of_lt (by omega)
      rw [if_neg unnoticed, counter] at value
      rcases short.lt_or_eq with below | last
      · rw [toInt_of_fits (fitsInt_iff.mpr (by omega))] at value
        omega
      · have negative : toInt (((32767 : Nat) + 1 : Nat) : Int) = -32768 := by decide
        rw [last, negative] at value
        omega
  obtain ⟨made, _⟩ := stored.short low
  have counted := result_of_stored stored returns low
  rw [toInt_of_fits (fitsInt_iff.mpr (by omega))] at counted
  apply List.ext_getElem
  · rw [List.length_map, List.length_range, counted, Int.toNat_natCast]
  · intro index inRange inTaken
    rw [List.getElem_map, List.getElem_range, made, written_zipIdx, List.getD_eq_getElem _ _ inTaken]

/-! ### The invariant -/

/-- The call that is going on, if any, has taken these bytes, and its stores are in the array. -/
def Session.Holds (current : List Byte) : Session → Prop
  | .between _ => current = []
  | .within length data call => ∃ start events, ReceiveIntact length call events ∧
      (length.toNat + 1 < (takenBytes events).length → call.overflow = true) ∧
      data = written start (storesMade events) ∧ takenBytes events = current

/-- The receive buffer is intact; the bytes taken have been handed on, but for those of the call that is
going on. -/
structure SessionIntact (here : Session) (events : List SessionEvent) : Prop where
  ring : ∃ queue, Intact here.rx (events.filterMap SessionEvent.rxEvent) queue
  handed : ∃ current, here.Holds current ∧
    (InBounds events → takenOf events = (handedOn events).flatten ++ current)

theorem InBounds.before {events more : List SessionEvent} (bounds : InBounds (events ++ more)) :
    InBounds events := by
  intro call member
  refine bounds call ?_
  unfold resultsOf
  rw [List.filterMap_append]
  exact List.mem_append_left _ member

theorem InBounds.last {events : List SessionEvent} {length : BitVec 16} {result : Int} {data : Nat → Byte}
    (bounds : InBounds (events ++ [.returned length result data])) :
    length.toNat ≤ 32767 ∧ 0 ≤ result ∧ result ≤ length.toNat := by
  refine bounds (length, result) ?_
  unfold resultsOf
  rw [List.filterMap_append]
  exact List.mem_append_right _ List.mem_cons_self

section Step

variable {events : List SessionEvent}

/-- The event of an interrupt. -/
theorem arrival_rxEvent (cb : CircularBuffer) (data : Int) :
    [arrival cb data].filterMap SessionEvent.rxEvent =
      [if bufferFull cb then .dropped else .accepted (BitVec.ofInt 8 data)] := by
  unfold arrival
  split <;> rfl

theorem takenOf_arrival (cb : CircularBuffer) (data : Int) :
    takenOf (events ++ [arrival cb data]) = takenOf events := by
  have nothing : takenOf [arrival cb data] = [] := by
    unfold takenOf
    rw [arrival_rxEvent]
    split <;> rfl
  rw [takenOf_append, nothing, List.append_nil]

theorem handedOn_arrival (cb : CircularBuffer) (data : Int) :
    handedOn (events ++ [arrival cb data]) = handedOn events := by
  have nothing : handedOn [arrival cb data] = [] := by
    unfold arrival
    split <;> rfl
  rw [handedOn_append, nothing, List.append_nil]

/-- **An interrupt.** -/
theorem SessionIntact.interrupt {here : Session} (intact : SessionIntact here events) (data : Int) :
    SessionIntact (sessionStep here (.interrupt data)).1
      (events ++ (sessionStep here (.interrupt data)).2) := by
  obtain ⟨queue, ring⟩ := intact.ring
  obtain ⟨current, holds, handed⟩ := intact.handed
  have moved := ring.interrupt data
  cases here with
  | between cb =>
    refine ⟨?_, current, holds, fun bounds => ?_⟩
    · rw [List.filterMap_append]
      dsimp only [sessionStep]
      rw [arrival_rxEvent]
      exact moved
    · dsimp only [sessionStep]
      rw [takenOf_arrival, handedOn_arrival]
      exact handed bounds.before
  | within length array call =>
    obtain ⟨start, made, received, noticed, stored, taken⟩ := holds
    have received' := received.step (.interrupt data)
    have noticed' := receiveStep_overflow received noticed (.interrupt data)
    rw [show made ++ (receiveStep length call (.interrupt data)).2 = made from List.append_nil _]
      at received' noticed'
    refine ⟨?_, current, ⟨start, made, received', noticed', stored, taken⟩, fun bounds => ?_⟩
    · rw [List.filterMap_append]
      dsimp only [sessionStep]
      rw [arrival_rxEvent]
      exact moved
    · dsimp only [sessionStep]
      rw [takenOf_arrival, handedOn_arrival]
      exact handed bounds.before

/-- **A step of a call.** -/
theorem SessionIntact.mainLine {length : BitVec 16} {array : Nat → Byte} {call : Receive}
    (intact : SessionIntact (.within length array call) events) (millis : BitVec 32) :
    SessionIntact (sessionStep (.within length array call) (.mainLine millis)).1
      (events ++ (sessionStep (.within length array call) (.mainLine millis)).2) := by
  obtain ⟨queue, ring⟩ := intact.ring
  obtain ⟨current, ⟨start, made, received, noticed, stored, taken⟩, handed⟩ := intact.handed
  have moved := receiveStep_rx received ring millis
  have received' := received.step (.mainLine millis)
  have noticed' := receiveStep_overflow received noticed (.mainLine millis)
  have stored' : written array (storesMade (receiveStep length call (.mainLine millis)).2) =
      written start (storesMade (made ++ (receiveStep length call (.mainLine millis)).2)) := by
    unfold written at stored ⊢
    rw [stored, storesMade_append, List.foldl_append]
  unfold sessionStep
  dsimp only
  generalize receiveStep length call (.mainLine millis) = next at moved received' noticed' stored' ⊢
  obtain ⟨call', new⟩ := next
  dsimp only at moved received' noticed' stored' ⊢
  have more : takenBytes (made ++ new) = current ++ takenBytes new := by rw [takenBytes_append, taken]
  cases returns : call'.result with
  | none =>
    refine ⟨?_, current ++ takenBytes new, ⟨start, made ++ new, received', noticed', stored', more⟩,
      fun bounds => ?_⟩
    · rw [List.filterMap_append, rxEvent_taken]
      exact moved
    · rw [takenOf_append, takenOf_taken, handedOn_append, handedOn_taken, List.append_nil,
        handed bounds.before, List.append_assoc]
  | some result =>
    have left : call'.place = .left := by
      by_contra going
      unfold Receive.result at returns
      rw [if_neg going] at returns
      cases returns
    have outside : call'.rx = ⟨call'.rx.cb, .outside⟩ := by
      rw [← received'.outside (by rw [left]; decide)]
    refine ⟨?_, [], rfl, fun bounds => ?_⟩
    · rw [← List.append_assoc, List.filterMap_append, List.filterMap_append, rxEvent_taken]
      rw [outside] at moved
      exact (List.append_nil _).symm ▸ moved
    · rw [← List.append_assoc] at bounds
      obtain ⟨short, positive, inside⟩ := bounds.last
      have cells := result_inBounds received'.stored noticed' returns short positive inside start
      rw [← stored', more] at cells
      have last : handedOn [.returned length result (written array (storesMade new))] =
          [current ++ takenBytes new] := congrArg (· :: []) cells
      have none : takenOf [.returned length result (written array (storesMade new))] = [] := rfl
      rw [takenOf_append, takenOf_append, takenOf_taken, handedOn_append, handedOn_append, handedOn_taken,
        last, none, handed bounds.before.before]
      simp

/-- **Every step keeps the invariant.** -/
theorem SessionIntact.step {here : Session} (intact : SessionIntact here events) (step : SessionStep) :
    SessionIntact (sessionStep here step).1 (events ++ (sessionStep here step).2) := by
  have still : SessionIntact here (events ++ []) := by rwa [List.append_nil]
  cases step with
  | interrupt data => exact intact.interrupt data
  | uartReceive length data millis =>
    cases here with
    | between cb =>
      obtain ⟨current, holds, handed⟩ := still.handed
      exact ⟨still.ring, [], ⟨data, [], receive_intact length cb millis [], nofun, rfl, rfl⟩,
        holds ▸ handed⟩
    | within => exact still
  | mainLine millis =>
    cases here with
    | between cb => exact still
    | within length array call => exact intact.mainLine millis

end Step

theorem session_intact (buffer : Nat → Byte) (steps : List SessionStep) :
    SessionIntact (run sessionStep (.between ⟨buffer, 0, 0⟩) steps).1
      (run sessionStep (.between ⟨buffer, 0, 0⟩) steps).2 := by
  refine run_invariant sessionStep SessionIntact (fun _ _ step intact => intact.step step) steps _ [] ?_
  exact ⟨⟨[], initializeBuffer_holds ⟨buffer, 0, 0⟩, rfl, nofun, fun _ => nofun, each_nil⟩, [], rfl,
    fun _ => rfl⟩

/-! ### The outcomes -/

/-- The parser reports the first outcomes of the accepted bytes, and all of them when they have all been
handed on. -/
theorem SessionIntact.outcomes {here : Session} {events : List SessionEvent}
    (intact : SessionIntact here events) (bounds : InBounds events) (control : HdlcControlT)
    (dest : Int → Byte) :
    let reported := (run feed ⟨hdlcState, ⟨control, dest⟩⟩ (handedOn events)).2
    let outcomes := (run judge control (segmentsOf hdlcFlagSequence (acceptedOf events))).2
    reported <+: outcomes ∧ ∀ cb, here = .between cb → bufferEmpty cb = true → reported = outcomes := by
  intro reported outcomes
  obtain ⟨queue, ring⟩ := intact.ring
  obtain ⟨current, holds, handed⟩ := intact.handed
  have accepted : acceptedOf events = (handedOn events).flatten ++ (current ++ queue) := by
    rw [← List.append_assoc, ← handed bounds]
    exact ring.split
  have fed : reported = (run judge control (segmentsOf hdlcFlagSequence (handedOn events).flatten)).2 := by
    unfold reported
    rw [run_feed_judge, run_step_segmentsOf]
  unfold outcomes
  rw [accepted, run_judge_append, ← fed]
  refine ⟨List.prefix_append _ _, fun cb between empty => ?_⟩
  rw [between] at holds ring
  obtain rfl : current = [] := holds
  obtain rfl : queue = [] := (bufferEmpty_iff ring.holds).mp empty
  exact (List.append_nil _).symm

/-- **From the line to the outcomes.** As long as every call returns a number of bytes that its array has,
what the documented loop makes of the arrays are the first outcomes of the bytes that the interrupt has
accepted, and all of them when the receive buffer is empty between two calls: whenever the interrupts come,
whatever the clock says, and however long the arrays are. -/
theorem session_outcomes (buffer : Nat → Byte) (steps : List SessionStep) (control : HdlcControlT)
    (dest : Int → Byte) :
    let ran := run sessionStep (.between ⟨buffer, 0, 0⟩) steps
    let reported := (run feed ⟨hdlcState, ⟨control, dest⟩⟩ (handedOn ran.2)).2
    let outcomes := (run judge control (segmentsOf hdlcFlagSequence (acceptedOf ran.2))).2
    InBounds ran.2 →
      reported <+: outcomes ∧
        ∀ cb, ran.1 = .between cb → bufferEmpty cb = true → reported = outcomes := by
  intro ran reported outcomes bounds
  exact (session_intact buffer steps).outcomes bounds control dest

/-- An acknowledgement arrives, and is taken in two calls. -/
def twoCalls : List SessionStep :=
  [0x7E, 0xFF, 0x01].map .interrupt ++ [.uartReceive 10 (fun _ => 0) 10] ++
    List.replicate 13 (.mainLine 10) ++ [.mainLine 15, .uartReceive 10 (fun _ => 0) 20] ++
    [0x0E, 0xE1, 0x7E].map .interrupt ++ List.replicate 13 (.mainLine 20) ++ [.mainLine 25]

theorem session_outcomes_two_calls :
    let ran := run sessionStep (.between ⟨fun _ => 0, 0, 0⟩) twoCalls
    let reported := (run feed ⟨hdlcState, ⟨⟨.iFrame, 5⟩, fun _ => 0⟩⟩ (handedOn ran.2)).2
    let outcomes := (run judge ⟨.iFrame, 5⟩ (segmentsOf hdlcFlagSequence (acceptedOf ran.2))).2
    reported <+: outcomes ∧ ∀ cb, ran.1 = .between cb → bufferEmpty cb = true → reported = outcomes :=
  session_outcomes (fun _ => 0) twoCalls ⟨.iFrame, 5⟩ (fun _ => 0) (by decide +kernel)

end HdlcMarquee
