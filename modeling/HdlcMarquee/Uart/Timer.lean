/-
**The time that a call takes (`UART/timer.c`, lines 28–56 of `UART/uart.c`).**

`TIMER1_COMPA_vect` counts milliseconds, `millis` reads the counter, and `timerInit` lets both interrupts
in. A run is a session in which the calls read this counter (`clockedStep`). `millis` leaves interrupts on
while it loads the four octets of the counter; here a reading is one step, so no tick falls between its
loads. The counter is the start of the wait plus the ticks since then, modulo 2³² (`ClockedIntact.clock`),
so

* no call returns before more than 4 ticks have passed since its last byte, or since its beginning
  (`calls_notEarly`); and without `timerInit`, as in the sketch, no call returns (`calls_stuck`);
* once no byte arrives any more, a call returns: it empties the buffer, waits for 5 ticks, and finds the
  time over at its second step behind them (`call_returns`);
* and one call that begins then hands on all that is left, so that the parser has reported every byte that
  the interrupt has accepted (`call_flushes`).
-/

import HdlcMarquee.Uart.Session

namespace HdlcMarquee

open Generic

/-! ### The clock -/

/-- The global interrupt flag, `timerMillis`, and the session. -/
structure Clocked where
  interrupts : Bool
  timerMillis : BitVec 32
  session : Session

/-- What can happen next: one of the two interrupts, a call of the main line, or a step of the call that
it is in. -/
inductive ClockedStep
  | timer1CompaVect
  | usartRxVect (data : Int)
  | timerInit
  | uartReceive (length : BitVec 16) (data : Nat → Byte)
  | mainLine

/-- What a step leaves behind: a tick, the beginning of a call, or what the session leaves. -/
inductive ClockedEvent
  | ticked
  | called
  | made (event : SessionEvent)

/-- One step of a run. Inside `UART_receive` the main line calls nothing else, and it reads the counter in
one step. -/
def clockedStep (here : Clocked) : ClockedStep → Clocked × List ClockedEvent
  | .timer1CompaVect =>
    if here.interrupts then ({ here with timerMillis := here.timerMillis + 1 }, [.ticked]) else (here, [])
  | .usartRxVect data =>
    if here.interrupts then
      let moved := sessionStep here.session (.interrupt data)
      ({ here with session := moved.1 }, moved.2.map .made)
    else (here, [])
  | .timerInit =>
    match here.session with
    | .between _ => ({ here with interrupts := true }, [])
    | .within _ _ _ => (here, [])
  | .uartReceive length data =>
    match here.session with
    | .between cb =>
      ({ here with session := .within length data (receiveStart cb here.timerMillis) }, [.called])
    | .within _ _ _ => (here, [])
  | .mainLine =>
    let moved := sessionStep here.session (.mainLine here.timerMillis)
    ({ here with session := moved.1 }, moved.2.map .made)

/-- The board behind a reset. -/
def clockedStart (buffer : Nat → Byte) : Clocked := ⟨false, 0, .between ⟨buffer, 0, 0⟩⟩

/-- What the session leaves behind. -/
def madeEvents (events : List ClockedEvent) : List SessionEvent :=
  events.filterMap fun
    | .made event => some event
    | _ => none

/-- The ticks since a call began or took a byte, behind one event more. -/
def ticksBehind (ticks : Nat) : ClockedEvent → Nat
  | .ticked => ticks + 1
  | .called => 0
  | .made (.taken _) => 0
  | .made _ => ticks

/-- The ticks since a call began or took a byte. -/
def quietTicks (events : List ClockedEvent) : Nat := events.foldl ticksBehind 0

/-- A call returns only behind more than `timeout_ms` ticks without a byte. -/
def NotEarly (before : List ClockedEvent) : ClockedEvent → Prop
  | .made (.returned _ _ _) => timeoutMs.toNat < quietTicks before % 2 ^ 32
  | _ => True

theorem quietTicks_append (first second : List ClockedEvent) :
    quietTicks (first ++ second) = second.foldl ticksBehind (quietTicks first) := List.foldl_append

theorem madeEvents_append (first second : List ClockedEvent) :
    madeEvents (first ++ second) = madeEvents first ++ madeEvents second := List.filterMap_append

theorem madeEvents_made (events : List SessionEvent) : madeEvents (events.map .made) = events := by
  unfold madeEvents
  rw [List.filterMap_map]
  exact List.filterMap_some

theorem mem_madeEvents {events : List ClockedEvent} {event : SessionEvent} :
    event ∈ madeEvents events ↔ .made event ∈ events := by
  unfold madeEvents
  rw [List.mem_filterMap]
  constructor
  · rintro ⟨inner, member, made⟩
    cases inner with
    | made inner => exact Option.some.inj made ▸ member
    | _ => cases made
  · exact fun member => ⟨_, member, rfl⟩

/-! ### A step of a call -/

section Call

variable {length : BitVec 16} {call : Receive} {made : List ReceiveEvent}
  (received : ReceiveIntact length call made) (going : call.place ≠ .left)
include received going

/-- **A step of a call** leaves the start of the wait, or takes a byte and starts it again, or returns
because the time is over. -/
theorem mainLine_cases (data : Nat → Byte) (millis : BitVec 32) :
    let moved := sessionStep (.within length data call) (.mainLine millis)
    (∃ call', moved = (.within length data call', []) ∧ call'.startTime = call.startTime ∧
        call'.place ≠ .left) ∨
      (∃ data' call' value, moved = (.within length data' call', [.taken value]) ∧
        call'.startTime = millis ∧ call'.place ≠ .left) ∨
      (timeoutMs < millis - call.startTime ∧ ∃ cb result,
        moved = (.between cb, [.returned length result data])) := by
  obtain ⟨⟨cb, reading⟩, place, overflow, byteCount, startTime⟩ := call
  cases place with
  | inner =>
    left
    by_cases empty : bufferEmpty cb = true
    · refine ⟨⟨⟨cb, reading⟩, .time, overflow, byteCount, startTime⟩, ?_, rfl, fun left => by cases left⟩
      simp only [sessionStep, receiveStep, empty, if_true]
      rfl
    · refine ⟨⟨⟨cb, reading⟩, .body, overflow, byteCount, startTime⟩, ?_, rfl, fun left => by cases left⟩
      simp only [sessionStep, receiveStep, empty, Bool.false_eq_true, if_false]
      rfl
  | body =>
    cases reading with
    | outside =>
      have some : bufferEmpty cb = false := received.waiting rfl rfl
      left
      refine ⟨⟨⟨cb, .checked⟩, .body, overflow, byteCount, startTime⟩, ?_, rfl, fun left => by cases left⟩
      simp only [sessionStep, receiveStep, rxStep, some, Bool.false_eq_true, if_false]
      rfl
    | checked =>
      exact .inl ⟨⟨⟨cb, _⟩, .body, overflow, byteCount, startTime⟩, rfl, rfl, fun left => by cases left⟩
    | loaded value =>
      right
      left
      have alone := takenBytes_reader [] value byteCount.toNat (byteCount ≤ length.setWidth 32)
      rw [List.nil_append] at alone
      simp only [sessionStep, receiveStep, rxStep, receiveReader_eq, alone]
      exact ⟨_, _, value, rfl, rfl, fun left => by cases left⟩
  | time =>
    by_cases late : timeoutMs < millis - startTime
    · right
      right
      simp only [sessionStep, receiveStep, late, if_true]
      exact ⟨trivial, cb, _, rfl⟩
    · left
      refine ⟨⟨⟨cb, reading⟩, .inner, overflow, byteCount, startTime⟩, ?_, rfl, fun left => by cases left⟩
      simp only [sessionStep, receiveStep, late, if_false]
      rfl
  | left => exact absurd rfl going

end Call

/-! ### The invariant -/

/-- The session is intact; the counter is the start of the wait and the ticks since then. -/
structure ClockedIntact (here : Clocked) (events : List ClockedEvent) : Prop where
  session : SessionIntact here.session (madeEvents events)
  going : ∀ length data call, here.session = .within length data call → call.place ≠ .left
  clock : ∀ length data call, here.session = .within length data call →
    here.timerMillis = call.startTime + BitVec.ofNat 32 (quietTicks events)
  notEarly : Each NotEarly events

section Step

variable {here : Clocked} {events : List ClockedEvent} (intact : ClockedIntact here events)
include intact

/-- A step that emits nothing and leaves the call where it is. -/
theorem ClockedIntact.still (interrupts : Bool) :
    ClockedIntact { here with interrupts } (events ++ []) := by
  rw [List.append_nil]
  exact ⟨intact.session, intact.going, intact.clock, intact.notEarly⟩

/-- **A tick.** -/
theorem ClockedIntact.tick :
    ClockedIntact { here with timerMillis := here.timerMillis + 1 } (events ++ [.ticked]) := by
  refine ⟨?_, intact.going, fun length data call within => ?_, each_snoc.mpr ⟨intact.notEarly, trivial⟩⟩
  · rw [madeEvents_append]
    exact (List.append_nil _).symm ▸ intact.session
  · show here.timerMillis + 1 = _
    rw [quietTicks_append, intact.clock length data call within, BitVec.add_assoc]
    exact congrArg _ (BitVec.ofNat_add _ _).symm

/-- **A byte arrives.** -/
theorem ClockedIntact.interrupt (data : Int) :
    ClockedIntact { here with session := (sessionStep here.session (.interrupt data)).1 }
      (events ++ (sessionStep here.session (.interrupt data)).2.map .made) := by
  have kept := intact.session.interrupt data
  have session : SessionIntact (sessionStep here.session (.interrupt data)).1 (madeEvents
      (events ++ (sessionStep here.session (.interrupt data)).2.map .made)) := by
    rwa [madeEvents_append, madeEvents_made]
  have ticks (cb : CircularBuffer) :
      quietTicks (events ++ [arrival cb data].map .made) = quietTicks events := by
    rw [quietTicks_append]
    unfold arrival
    split <;> rfl
  have notEarly (cb : CircularBuffer) : Each NotEarly (events ++ [arrival cb data].map .made) := by
    refine each_snoc.mpr ⟨intact.notEarly, ?_⟩
    unfold arrival
    split <;> trivial
  obtain ⟨interrupts, timerMillis, here⟩ := here
  cases here with
  | between cb => exact ⟨session, nofun, nofun, notEarly cb⟩
  | within length array call =>
    refine ⟨session, ?_, ?_, notEarly call.rx.cb⟩
    · rintro _ _ _ ⟨⟩
      exact intact.going length array call rfl
    · rintro _ _ _ ⟨⟩
      dsimp only [sessionStep]
      rw [ticks]
      exact intact.clock length array call rfl

/-- **A call begins.** -/
theorem ClockedIntact.call {cb : CircularBuffer} (between : here.session = .between cb)
    (length : BitVec 16) (data : Nat → Byte) :
    ClockedIntact { here with session := .within length data (receiveStart cb here.timerMillis) }
      (events ++ [.called]) := by
  have kept := intact.session.step (.uartReceive length data here.timerMillis)
  rw [between] at kept
  refine ⟨?_, ?_, ?_, each_snoc.mpr ⟨intact.notEarly, trivial⟩⟩
  · rw [madeEvents_append]
    exact kept
  · rintro _ _ _ ⟨⟩
    exact nofun
  · rintro _ _ _ ⟨⟩
    rw [quietTicks_append]
    exact (BitVec.add_zero _).symm

/-- **A step of a call.** -/
theorem ClockedIntact.mainLine :
    ClockedIntact { here with session := (sessionStep here.session (.mainLine here.timerMillis)).1 }
      (events ++ (sessionStep here.session (.mainLine here.timerMillis)).2.map .made) := by
  have kept := intact.session.step (.mainLine here.timerMillis)
  obtain ⟨interrupts, timerMillis, session⟩ := here
  cases session with
  | between cb => exact intact.still interrupts
  | within length data call =>
    obtain ⟨_, ⟨_, made, received, _, _, _⟩, _⟩ := intact.session.handed
    have clock := intact.clock length data call rfl
    dsimp only at kept clock ⊢
    rcases mainLine_cases received (intact.going length data call rfl) data timerMillis with
      ⟨call', moved, start, going⟩ | ⟨data', call', value, moved, start, going⟩ |
        ⟨late, cb, result, moved⟩
    · rw [moved] at kept ⊢
      refine ⟨?_, ?_, ?_, ?_⟩
      · rwa [madeEvents_append, madeEvents_made]
      · rintro _ _ _ ⟨⟩
        exact going
      · rintro _ _ _ ⟨⟩
        rw [start]
        exact (List.append_nil events).symm ▸ clock
      · exact (List.append_nil events).symm ▸ intact.notEarly
    · rw [moved] at kept ⊢
      refine ⟨?_, ?_, ?_, each_snoc.mpr ⟨intact.notEarly, trivial⟩⟩
      · rwa [madeEvents_append, madeEvents_made]
      · rintro _ _ _ ⟨⟩
        exact going
      · rintro _ _ _ ⟨⟩
        rw [start, quietTicks_append]
        exact (BitVec.add_zero _).symm
    · rw [moved] at kept ⊢
      refine ⟨?_, nofun, nofun, each_snoc.mpr ⟨intact.notEarly, ?_⟩⟩
      · rwa [madeEvents_append, madeEvents_made]
      · -- the clock is exactly as far behind the start as the ticks say
        rw [clock, BitVec.add_comm, BitVec.add_sub_cancel, BitVec.lt_def, BitVec.toNat_ofNat] at late
        exact late

/-- **Every step keeps the invariant.** -/
theorem ClockedIntact.step (step : ClockedStep) :
    ClockedIntact (clockedStep here step).1 (events ++ (clockedStep here step).2) := by
  have still := intact.still here.interrupts
  cases step with
  | timer1CompaVect =>
    unfold clockedStep
    dsimp only
    split
    · exact intact.tick
    · exact still
  | usartRxVect data =>
    unfold clockedStep
    dsimp only
    split
    · exact intact.interrupt data
    · exact still
  | timerInit =>
    unfold clockedStep
    dsimp only
    split
    · exact intact.still true
    · exact still
  | uartReceive length data =>
    unfold clockedStep
    dsimp only
    split
    · rename_i cb between
      exact intact.call between length data
    · exact still
  | mainLine => exact intact.mainLine

theorem ClockedIntact.run (steps : List ClockedStep) :
    ClockedIntact (run clockedStep here steps).1 (events ++ (run clockedStep here steps).2) :=
  run_invariant clockedStep ClockedIntact (fun _ _ step intact => intact.step step) steps here events intact

end Step

theorem clocked_intact (buffer : Nat → Byte) (steps : List ClockedStep) :
    ClockedIntact (run clockedStep (clockedStart buffer) steps).1
      (run clockedStep (clockedStart buffer) steps).2 := by
  have start : ClockedIntact (clockedStart buffer) [] :=
    ⟨session_intact buffer [], nofun, nofun, each_nil⟩
  exact start.run steps

/-- **No call returns early**, as long as no tick falls between the loads of a reading, which may make it
too large. -/
theorem calls_notEarly (buffer : Nat → Byte) (steps : List ClockedStep) :
    Each NotEarly (run clockedStep (clockedStart buffer) steps).2 :=
  (clocked_intact buffer steps).notEarly

/-- An event that no interrupt has left. -/
def Uninterrupted : ClockedEvent → Prop
  | .ticked => False
  | .made (.accepted _) => False
  | _ => True

/-- A step of a session emits nothing that an interrupt would leave, unless it is one. -/
theorem uninterrupted_mainLine (session : Session) (millis : BitVec 32) :
    ∀ event ∈ (sessionStep session (.mainLine millis)).2.map ClockedEvent.made, Uninterrupted event := by
  intro event member
  obtain ⟨inner, emitted, rfl⟩ := List.mem_map.mp member
  cases session with
  | between cb => cases emitted
  | within length data call =>
    dsimp only [sessionStep] at emitted
    split at emitted
    · obtain ⟨value, _, rfl⟩ := List.mem_map.mp emitted
      trivial
    · rcases List.mem_append.mp emitted with taken | returned
      · obtain ⟨value, _, rfl⟩ := List.mem_map.mp taken
        trivial
      · rw [List.mem_singleton.mp returned]
        trivial

theorem quietTicks_uninterrupted {events : List ClockedEvent}
    (uninterrupted : ∀ event ∈ events, Uninterrupted event) : quietTicks events = 0 := by
  induction events using List.reverseRecOn with
  | nil => rfl
  | append_singleton events event ih =>
    have before := ih fun event member => uninterrupted event (List.mem_append_left _ member)
    have last := uninterrupted event (List.mem_append_right _ List.mem_cons_self)
    rw [quietTicks_append, before]
    cases event with
    | ticked => exact last.elim
    | called => rfl
    | made event => cases event <;> rfl

/-- **Without `timerInit`** no byte is accepted and no call returns. -/
theorem calls_stuck (buffer : Nat → Byte) (steps : List ClockedStep)
    (never : ∀ step ∈ steps, step ≠ .timerInit) :
    let made := madeEvents (run clockedStep (clockedStart buffer) steps).2
    acceptedOf made = [] ∧ resultsOf made = [] := by
  intro made
  obtain ⟨_, uninterrupted⟩ := run_emits clockedStep (fun here => here.interrupts = false) (· ≠ .timerInit)
    Uninterrupted (fun here step off other => by
      cases step with
      | timer1CompaVect => simp [clockedStep, off]
      | usartRxVect data => simp [clockedStep, off]
      | timerInit => exact absurd rfl other
      | uartReceive length data =>
        unfold clockedStep
        dsimp only
        split
        · exact ⟨off, fun event member => List.mem_singleton.mp member ▸ trivial⟩
        · exact ⟨off, nofun⟩
      | mainLine => exact ⟨off, uninterrupted_mainLine here.session here.timerMillis⟩)
    steps (clockedStart buffer) rfl never
  have notEarly := (clocked_intact buffer steps).notEarly
  constructor
  · unfold acceptedOf acceptedBytes
    rw [List.filterMap_filterMap]
    refine List.filterMap_eq_nil_iff.mpr fun event member => ?_
    cases event with
    | accepted value => exact (uninterrupted _ (mem_madeEvents.mp member)).elim
    | _ => rfl
  · refine List.filterMap_eq_nil_iff.mpr fun event member => ?_
    cases event with
    | returned length result data =>
      obtain ⟨before, after, split⟩ := List.append_of_mem (mem_madeEvents.mp member)
      have late := notEarly before _ after split
      have none : quietTicks before = 0 := quietTicks_uninterrupted fun event earlier =>
        uninterrupted event (split ▸ List.mem_append_left _ earlier)
      rw [NotEarly, none] at late
      exact absurd late (by decide)
    | _ => rfl

/-- The sketch never calls `timerInit`: its first call waits for ever. -/
theorem calls_stuck_sketch :
    let made := madeEvents (run clockedStep (clockedStart fun _ => 0)
      [.uartReceive 20 fun _ => 0, .usartRxVect 0x7E, .mainLine, .timer1CompaVect, .mainLine]).2
    acceptedOf made = [] ∧ resultsOf made = [] :=
  calls_stuck (fun _ => 0)
    [.uartReceive 20 fun _ => 0, .usartRxVect 0x7E, .mainLine, .timer1CompaVect, .mainLine] (by simp)

/-! ### Progress -/

/-- The steps of the main line until it finds the buffer empty, unless the time is over before. -/
def Receive.pending (call : Receive) : Nat :=
  let waiting := call.rx.cb.bytes.length
  match call.place, call.rx.place with
  | .inner, _ => 4 * waiting
  | .body, .outside => 4 * waiting - 1
  | .body, .checked => 4 * waiting - 2
  | .body, .loaded _ => 4 * waiting - 3
  | .time, _ => if waiting = 0 then 0 else 4 * waiting + 1
  | .left, _ => 0

/-- The steps of the main line until the call that is going on finds the buffer empty. -/
def Session.pending : Session → Nat
  | .between _ => 0
  | .within _ _ call => call.pending

section Pending

variable {length : BitVec 16} {data : Nat → Byte} {call : Receive} {made : List ReceiveEvent}
  {past : List RxEvent} {queue : List Byte}
  (received : ReceiveIntact length call made) (ring : Intact call.rx past queue)
include received ring

/-- The body of the inner loop finds a byte. -/
theorem body_waiting (body : call.place = .body) : queue ≠ [] := by
  cases reading : call.rx.place with
  | outside =>
    have notEmpty := received.waiting body reading
    rw [← Bool.not_eq_true, bufferEmpty_iff ring.holds] at notEmpty
    exact notEmpty
  | checked => exact ring.checked reading
  | loaded value =>
    rintro rfl
    cases ring.loaded value reading

/-- **Every step of the main line** comes nearer to the empty buffer. -/
theorem receiveStep_pending (millis : BitVec 32) :
    (receiveStep length call (.mainLine millis)).1.pending ≤ call.pending - 1 := by
  have bytes := bytes_eq ring.holds
  have body := body_waiting received ring
  obtain ⟨⟨cb, reading⟩, place, overflow, byteCount, startTime⟩ := call
  have empty_iff : bufferEmpty cb = true ↔ queue = [] := bufferEmpty_iff ring.holds
  dsimp only at bytes
  cases place with
  | inner =>
    obtain rfl : reading = .outside := received.outside nofun
    by_cases empty : bufferEmpty cb = true
    · have none : queue = [] := empty_iff.mp empty
      simp [receiveStep, empty, Receive.pending, bytes, none]
    · simp [receiveStep, empty, Receive.pending, bytes]
  | body =>
    have positive := List.length_pos_of_ne_nil (body rfl)
    cases reading with
    | outside =>
      have some : bufferEmpty cb = false := received.waiting rfl rfl
      simp only [receiveStep, rxStep, some, Bool.false_eq_true, if_false, Receive.pending, bytes]
      omega
    | checked =>
      simp only [receiveStep, rxStep, Receive.pending, bytes]
      omega
    | loaded value =>
      obtain ⟨rest, split⟩ := List.head?_eq_some_iff.mp (ring.loaded value rfl)
      have rest_eq := bytes_eq (advance_holds ring.holds split)
      simp only [receiveStep, rxStep, receiveReader_eq, Receive.pending, bytes, rest_eq, split,
        List.length_cons]
      omega
  | time =>
    by_cases late : timeoutMs < millis - startTime
    · simp [receiveStep, late, Receive.pending]
    · simp only [receiveStep, late, if_false, Receive.pending, bytes]
      split <;> omega
  | left => exact Nat.le_refl _

/-- The buffer has been found empty. -/
theorem pending_zero (going : call.place ≠ .left) (settled : call.pending = 0) :
    (call.place = .inner ∨ call.place = .time) ∧ bufferEmpty call.rx.cb = true := by
  have bytes := bytes_eq ring.holds
  have body := body_waiting received ring
  have positive (waiting : queue ≠ []) : 0 < queue.length := List.length_pos_of_ne_nil waiting
  rw [bufferEmpty_iff ring.holds, ← List.length_eq_zero_iff]
  obtain ⟨⟨cb, reading⟩, place, overflow, byteCount, startTime⟩ := call
  dsimp only at bytes
  cases place with
  | inner =>
    simp only [Receive.pending, bytes] at settled
    exact ⟨.inl rfl, by omega⟩
  | body =>
    have some := positive (body rfl)
    cases reading <;> simp only [Receive.pending, bytes] at settled <;> omega
  | time =>
    simp only [Receive.pending, bytes] at settled
    refine ⟨.inr rfl, ?_⟩
    split at settled <;> omega
  | left => exact absurd rfl going

end Pending

/-- The buffer never holds more than `BUFFER_SIZE - 1` bytes. -/
theorem ClockedIntact.pending_le {here : Clocked} {events : List ClockedEvent}
    (intact : ClockedIntact here events) : here.session.pending ≤ 4 * bufferSize := by
  obtain ⟨queue, ring⟩ := intact.session.ring
  have short : queue.length < bufferSize := ring.holds.short
  have bytes := bytes_eq ring.holds
  cases within : here.session with
  | between cb => exact Nat.zero_le _
  | within length data call =>
    rw [within] at bytes
    simp only [Session.rx] at bytes
    simp only [Session.pending, Receive.pending, bytes]
    split <;> (try split) <;> omega

def ClockedStep.isTick : ClockedStep → Bool
  | .timer1CompaVect => true
  | _ => false

def ClockedStep.isMainLine : ClockedStep → Bool
  | .mainLine => true
  | _ => false

/-- A step that lets no byte in: a tick, or a step of a call. -/
def ClockedStep.Quiet (step : ClockedStep) : Prop := (step.isTick || step.isMainLine) = true

instance : DecidablePred ClockedStep.Quiet := fun step =>
  inferInstanceAs (Decidable ((step.isTick || step.isMainLine) = true))

/-- A state that some run reaches with interrupts on. -/
def Reached (here : Clocked) : Prop := here.interrupts = true ∧ ∃ events, ClockedIntact here events

/-- **A quiet step** comes nearer to the empty buffer if it is one of the main line. -/
theorem quiet_pending (here : Clocked) (step : ClockedStep) (reached : Reached here) (quiet : step.Quiet) :
    Reached (clockedStep here step).1 ∧
      (clockedStep here step).1.session.pending ≤
        here.session.pending - if step.isMainLine then 1 else 0 := by
  obtain ⟨interrupts, events, intact⟩ := reached
  have next := intact.step step
  cases step with
  | timer1CompaVect =>
    rw [show clockedStep here .timer1CompaVect = _ from if_pos interrupts] at next ⊢
    exact ⟨⟨interrupts, _, next⟩, Nat.le_refl _⟩
  | mainLine =>
    refine ⟨⟨interrupts, _, next⟩, ?_⟩
    obtain ⟨interrupts, timerMillis, session⟩ := here
    cases session with
    | between cb => exact Nat.le_refl _
    | within length data call =>
      obtain ⟨queue, ring⟩ := intact.session.ring
      obtain ⟨_, ⟨_, made, received, _, _, _⟩, _⟩ := intact.session.handed
      have nearer := receiveStep_pending received ring timerMillis
      dsimp only [clockedStep, sessionStep]
      split
      · exact nearer
      · exact Nat.zero_le _
  | usartRxVect data => cases quiet
  | timerInit => cases quiet
  | uartReceive length data => cases quiet

/-- Interrupts are on, and the call that is going on has found the buffer empty. -/
structure Settled (here : Clocked) (events : List ClockedEvent) : Prop where
  intact : ClockedIntact here events
  interrupts : here.interrupts = true
  empty : here.session.pending = 0

/-- The steps of the main line until it finds the time over, if it is. -/
def Session.checks : Session → Nat
  | .between _ => 0
  | .within _ _ call => if call.place = .time then 1 else 2

theorem checks_le (session : Session) : session.checks ≤ 2 := by
  cases session with
  | between cb => exact Nat.zero_le _
  | within length data call =>
    simp only [Session.checks]
    split <;> decide

theorem between_of_checks {session : Session} (finished : session.checks = 0) :
    ∃ cb, session = .between cb := by
  cases session with
  | between cb => exact ⟨cb, rfl⟩
  | within length data call =>
    simp only [Session.checks] at finished
    split at finished <;> cases finished

section Settled

variable {here : Clocked} {events : List ClockedEvent} (settled : Settled here events)
include settled

/-- A step of the main line behind the empty buffer takes no byte, and once the time is over it comes nearer
to the return. -/
theorem Settled.mainLine :
    quietTicks (events ++ (clockedStep here .mainLine).2) = quietTicks events ∧
      (timeoutMs.toNat < quietTicks events → quietTicks events < 2 ^ 32 →
        (clockedStep here .mainLine).1.session.checks ≤ here.session.checks - 1) := by
  have clock := settled.intact.clock
  have session := settled.intact.session
  have going := settled.intact.going
  have found := settled.empty
  obtain ⟨interrupts, timerMillis, here⟩ := here
  cases here with
  | between cb => exact ⟨quietTicks_append events [], fun _ _ => Nat.zero_le _⟩
  | within length data call =>
    obtain ⟨queue, ring⟩ := session.ring
    obtain ⟨_, ⟨_, made, received, _, _, _⟩, _⟩ := session.handed
    obtain ⟨place, nothing⟩ := pending_zero received ring (going length data call rfl) found
    have behind := clock length data call rfl
    obtain ⟨rx, here, overflow, byteCount, startTime⟩ := call
    dsimp only at place nothing behind
    rcases place with rfl | rfl
    · have moved : clockedStep ⟨interrupts, timerMillis, .within length data
            ⟨rx, .inner, overflow, byteCount, startTime⟩⟩ .mainLine =
          (⟨interrupts, timerMillis, .within length data
            ⟨rx, .time, overflow, byteCount, startTime⟩⟩, []) := by
        simp only [clockedStep, sessionStep, receiveStep, nothing, if_true]
        rfl
      rw [moved]
      exact ⟨quietTicks_append events [], fun _ _ => Nat.le_refl _⟩
    · by_cases late : timeoutMs < timerMillis - startTime
      · simp only [clockedStep, sessionStep, receiveStep, late, if_true]
        exact ⟨quietTicks_append events [_], fun _ _ => Nat.zero_le _⟩
      · refine ⟨?_, fun waited below => absurd ?_ late⟩
        · simp only [clockedStep, sessionStep, receiveStep, late, if_false]
          exact quietTicks_append events []
        · rwa [behind, BitVec.add_comm, BitVec.add_sub_cancel, BitVec.lt_def, BitVec.toNat_ofNat,
            Nat.mod_eq_of_lt below]

/-- **A quiet step behind the empty buffer.** -/
theorem Settled.step {step : ClockedStep} (quiet : step.Quiet) :
    Settled (clockedStep here step).1 (events ++ (clockedStep here step).2) ∧
      quietTicks (events ++ (clockedStep here step).2) =
        quietTicks events + (if step.isTick then 1 else 0) ∧
      (timeoutMs.toNat < quietTicks events → quietTicks events < 2 ^ 32 →
        (clockedStep here step).1.session.checks ≤
          here.session.checks - if step.isMainLine then 1 else 0) := by
  have next := settled.intact.step step
  have nearer := (quiet_pending here step ⟨settled.interrupts, events, settled.intact⟩ quiet).2
  rw [settled.empty, Nat.zero_sub] at nearer
  have empty := Nat.le_zero.mp nearer
  cases step with
  | timer1CompaVect =>
    have ticked : clockedStep here .timer1CompaVect =
        ({ here with timerMillis := here.timerMillis + 1 }, [.ticked]) := if_pos settled.interrupts
    rw [ticked] at next empty ⊢
    exact ⟨⟨next, settled.interrupts, empty⟩, quietTicks_append events [.ticked], fun _ _ => Nat.le_refl _⟩
  | mainLine => exact ⟨⟨next, settled.interrupts, empty⟩, settled.mainLine⟩
  | usartRxVect data => cases quiet
  | timerInit => cases quiet
  | uartReceive length data => cases quiet

/-- **A quiet run behind the empty buffer.** -/
theorem Settled.run {steps : List ClockedStep} (quiet : ∀ step ∈ steps, step.Quiet) :
    Settled (run clockedStep here steps).1 (events ++ (run clockedStep here steps).2) ∧
      quietTicks (events ++ (run clockedStep here steps).2) =
        quietTicks events + steps.countP ClockedStep.isTick ∧
      (timeoutMs.toNat < quietTicks events → quietTicks events + steps.countP ClockedStep.isTick < 2 ^ 32 →
        (run clockedStep here steps).1.session.checks ≤
          here.session.checks - steps.countP ClockedStep.isMainLine) := by
  induction steps generalizing here events with
  | nil =>
    rw [run_nil, List.append_nil]
    exact ⟨settled, rfl, fun _ _ => Nat.le_refl _⟩
  | cons step rest ih =>
    obtain ⟨next, ticks, checks⟩ := settled.step (quiet step List.mem_cons_self)
    obtain ⟨final, later, returns⟩ := ih next fun step member => quiet step (List.mem_cons_of_mem _ member)
    rw [run_cons, ← List.append_assoc, List.countP_cons, List.countP_cons]
    dsimp only
    refine ⟨final, by rw [later, ticks]; omega, fun waited below => ?_⟩
    have first := checks waited (by omega)
    have last := returns (by omega) (by omega)
    omega

end Settled

/-- What a run of quiet steps needs for a call to return: as many steps of the main line as empty the
buffer, more than `timeout_ms` ticks, and 2 steps of the main line, with ticks between any two of them. -/
structure Patient (emptying waiting checking : List ClockedStep) : Prop where
  quiet : ∀ step ∈ emptying ++ (waiting ++ checking), step.Quiet
  empties : 4 * bufferSize ≤ emptying.countP ClockedStep.isMainLine
  waits : timeoutMs.toNat < waiting.countP ClockedStep.isTick
  checks : 2 ≤ checking.countP ClockedStep.isMainLine

/-- **A call returns**, from any intact state with interrupts on. -/
theorem Patient.returns {emptying waiting checking : List ClockedStep}
    (patient : Patient emptying waiting checking) {here : Clocked} {events : List ClockedEvent}
    (intact : ClockedIntact here events) (interrupts : here.interrupts = true)
    (below : quietTicks (events ++ (run clockedStep here (emptying ++ (waiting ++ checking))).2) < 2 ^ 32) :
    ∃ cb, (run clockedStep here (emptying ++ (waiting ++ checking))).1.session = .between cb := by
  obtain ⟨quiet, empties, waits, checks⟩ := patient
  have short : here.session.pending ≤ 4 * bufferSize := intact.pending_le
  -- the buffer is empty
  let emptied := run clockedStep here emptying
  obtain ⟨⟨on, _⟩, empty⟩ := run_progress clockedStep Reached ClockedStep.Quiet
    (fun here => here.session.pending) ClockedStep.isMainLine quiet_pending emptying here
    ⟨interrupts, events, intact⟩ fun step member => quiet step (List.mem_append_left _ member)
  have settled : Settled emptied.1 (events ++ emptied.2) :=
    ⟨intact.run emptying, on,
      Nat.le_zero.mp (empty.trans (Nat.sub_eq_zero_of_le (short.trans empties)).le)⟩
  -- the time is over
  let waited := run clockedStep emptied.1 waiting
  obtain ⟨still, ticks, _⟩ := settled.run (show ∀ step ∈ waiting, step.Quiet from fun step member =>
    quiet step (List.mem_append_right _ (List.mem_append_left _ member)))
  -- the main line finds this out
  let checked := run clockedStep waited.1 checking
  obtain ⟨_, later, returns⟩ := still.run (show ∀ step ∈ checking, step.Quiet from fun step member =>
    quiet step (List.mem_append_right _ (List.mem_append_right _ member)))
  have split : run clockedStep here (emptying ++ (waiting ++ checking)) =
      (checked.1, emptied.2 ++ (waited.2 ++ checked.2)) := by
    rw [run_append, run_append]
  rw [split, ← List.append_assoc, ← List.append_assoc, later] at below
  have finished : checked.1.session.checks ≤
      waited.1.session.checks - checking.countP ClockedStep.isMainLine := returns (by omega) below
  have last := checks_le waited.1.session
  rw [split]
  exact between_of_checks (Nat.le_zero.mp (finished.trans (Nat.sub_eq_zero_of_le (last.trans checks)).le))

/-- **A call returns**, from any state that a run reaches with interrupts on, if no byte arrives any more:
behind as many steps of the main line as empty the buffer, 5 ticks and 2 steps more, as long as the
counter does not come round. The ticks may come between any two steps. -/
theorem call_returns (buffer : Nat → Byte) (steps emptying waiting checking : List ClockedStep) :
    let before := run clockedStep (clockedStart buffer) steps
    let ran := run clockedStep before.1 (emptying ++ (waiting ++ checking))
    before.1.interrupts = true → Patient emptying waiting checking →
      quietTicks (before.2 ++ ran.2) < 2 ^ 32 → ∃ cb, ran.1.session = .between cb := by
  intro before ran interrupts patient below
  exact patient.returns (clocked_intact buffer steps) interrupts below

/-- A byte is received, and 5 ms pass. -/
theorem call_returns_one :
    ∃ cb, (run clockedStep
      (run clockedStep (clockedStart fun _ => 0)
        [.timerInit, .uartReceive 20 fun _ => 0, .usartRxVect 0x7E]).1
      (List.replicate 128 .mainLine ++
        (List.replicate 5 .timer1CompaVect ++ List.replicate 2 .mainLine))).1.session = .between cb :=
  call_returns (fun _ => 0) [.timerInit, .uartReceive 20 fun _ => 0, .usartRxVect 0x7E]
    (List.replicate 128 .mainLine) (List.replicate 5 .timer1CompaVect) (List.replicate 2 .mainLine)
    rfl ⟨by decide +kernel, by decide +kernel, by decide, by decide⟩ (by decide +kernel)

/-! ### Nothing stays behind -/

/-- Behind its test of the buffer, a call that is left alone has found the buffer empty. -/
def Session.Flushed : Session → Prop
  | .between cb => bufferEmpty cb = true
  | .within _ _ call => call.place = .time → bufferEmpty call.rx.cb = true

theorem Session.Flushed.step {here : Clocked} {events : List ClockedEvent}
    (intact : ClockedIntact here events) (flushed : here.session.Flushed) {step : ClockedStep}
    (quiet : step.Quiet) : (clockedStep here step).1.session.Flushed := by
  cases step with
  | timer1CompaVect =>
    unfold clockedStep
    dsimp only
    split <;> exact flushed
  | mainLine =>
    have going := intact.going
    have session := intact.session
    obtain ⟨interrupts, timerMillis, here⟩ := here
    cases here with
    | between cb => exact flushed
    | within length data call =>
      obtain ⟨_, ⟨_, made, received, _, _, _⟩, _⟩ := session.handed
      have going := going length data call rfl
      obtain ⟨⟨cb, reading⟩, place, overflow, byteCount, startTime⟩ := call
      cases place with
      | inner =>
        by_cases empty : bufferEmpty cb = true
        · simp only [clockedStep, sessionStep, receiveStep, empty, if_true]
          exact fun _ => empty
        · simp only [clockedStep, sessionStep, receiveStep, empty, Bool.false_eq_true, if_false]
          exact fun time => by cases time
      | body =>
        -- the body is left for the test of the buffer, not for that of the time
        cases reading with
        | outside =>
          have some : bufferEmpty cb = false := received.waiting rfl rfl
          simp only [clockedStep, sessionStep, receiveStep, rxStep, some, Bool.false_eq_true, if_false]
          exact fun time => by cases time
        | checked => exact fun time => by cases time
        | loaded value =>
          simp only [clockedStep, sessionStep, receiveStep, rxStep, receiveReader_eq]
          exact fun time => by cases time
      | time =>
        have empty : bufferEmpty cb = true := flushed rfl
        by_cases late : timeoutMs < timerMillis - startTime
        · simp only [clockedStep, sessionStep, receiveStep, late, if_true]
          exact empty
        · simp only [clockedStep, sessionStep, receiveStep, late, if_false]
          exact fun time => by cases time
      | left => exact absurd rfl going
  | usartRxVect data => cases quiet
  | timerInit => cases quiet
  | uartReceive length data => cases quiet

theorem Session.Flushed.run {here : Clocked} {events : List ClockedEvent}
    (intact : ClockedIntact here events) (flushed : here.session.Flushed) {steps : List ClockedStep}
    (quiet : ∀ step ∈ steps, step.Quiet) : (run clockedStep here steps).1.session.Flushed := by
  induction steps generalizing here events with
  | nil => exact flushed
  | cons step rest ih =>
    exact ih (intact.step step) (flushed.step intact (quiet step List.mem_cons_self))
      fun step member => quiet step (List.mem_cons_of_mem _ member)

/-- **Nothing stays behind.** Once no byte arrives any more, one more call hands on all that the interrupt
has accepted, and the parser has reported all of it, as long as every call returns a number of bytes that
its array has. -/
theorem call_flushes (buffer : Nat → Byte) (steps emptying waiting checking : List ClockedStep)
    (length : BitVec 16) (data : Nat → Byte) (control : HdlcControlT) (dest : Int → Byte) :
    let before := run clockedStep (clockedStart buffer) steps
    let ran := run clockedStep before.1 (.uartReceive length data :: (emptying ++ (waiting ++ checking)))
    let made := madeEvents (before.2 ++ ran.2)
    before.1.interrupts = true → (∃ cb, before.1.session = .between cb) →
      Patient emptying waiting checking → quietTicks (before.2 ++ ran.2) < 2 ^ 32 → InBounds made →
      (run feed ⟨hdlcState, ⟨control, dest⟩⟩ (handedOn made)).2 =
        (run judge control (segmentsOf hdlcFlagSequence (acceptedOf made))).2 := by
  intro before ran made interrupts between patient below bounds
  obtain ⟨cb, between⟩ := between
  have intact : ClockedIntact before.1 before.2 := clocked_intact buffer steps
  have begins : clockedStep before.1 (.uartReceive length data) = ({ before.1 with
      session := .within length data (receiveStart cb before.1.timerMillis) }, [.called]) := by
    simp only [clockedStep, between]
  have called := intact.step (.uartReceive length data)
  rw [begins] at called
  let pause := emptying ++ (waiting ++ checking)
  let rest := run clockedStep { before.1 with
    session := .within length data (receiveStart cb before.1.timerMillis) } pause
  have split : before.2 ++ ran.2 = before.2 ++ [.called] ++ rest.2 := by
    unfold ran
    rw [run_cons, begins, List.append_assoc]
  have final : ClockedIntact rest.1 (before.2 ++ [.called] ++ rest.2) := called.run pause
  have flushed := Session.Flushed.run called (fun time => by cases time) patient.quiet
  rw [split] at below
  obtain ⟨last, returned⟩ := patient.returns called interrupts below
  unfold made at bounds ⊢
  rw [split] at bounds ⊢
  rw [returned] at flushed
  exact (final.session.outcomes bounds control dest).2 last returned flushed

/-- An acknowledgement arrives while nothing is called. -/
theorem call_flushes_acknowledgement :
    let before := run clockedStep (clockedStart fun _ => 0)
      (.timerInit :: [0x7E, 0xFF, 0x01, 0x0E, 0xE1, 0x7E].map .usartRxVect)
    let ran := run clockedStep before.1 (.uartReceive 20 (fun _ => 0) :: (List.replicate 128 .mainLine ++
      (List.replicate 5 .timer1CompaVect ++ List.replicate 2 .mainLine)))
    let made := madeEvents (before.2 ++ ran.2)
    (run feed ⟨hdlcState, ⟨⟨.iFrame, 5⟩, fun _ => 0⟩⟩ (handedOn made)).2 =
      (run judge ⟨.iFrame, 5⟩ (segmentsOf hdlcFlagSequence (acceptedOf made))).2 :=
  call_flushes (fun _ => 0) (.timerInit :: [0x7E, 0xFF, 0x01, 0x0E, 0xE1, 0x7E].map .usartRxVect)
    (List.replicate 128 .mainLine) (List.replicate 5 .timer1CompaVect) (List.replicate 2 .mainLine)
    20 (fun _ => 0) ⟨.iFrame, 5⟩ (fun _ => 0) rfl ⟨_, rfl⟩
    ⟨by decide +kernel, by decide +kernel, by decide, by decide⟩ (by decide +kernel) (by decide +kernel)

end HdlcMarquee
