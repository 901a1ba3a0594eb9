/-
**The I²C master (`MyLCD/MyLCD/twimaster.cpp`).**

Each function lets the TWI unit put something on the bus, waits until that is carried out, and looks at
the status register. What the unit answers is an argument (`TwiUnit`), and the bus is the list of what
has been put on it.

A slave of the bus takes an octet only if the unit reports that it was acknowledged (`slaveStep`).
-/

import HdlcMarquee.Generic.Machine
import HdlcMarquee.Hdlc.Fcs

namespace HdlcMarquee

open Generic

/-! ### The TWI unit -/

/-- What the TWI unit puts on the bus: a start condition, a byte, a stop condition; or a byte read, with
or without an acknowledgement. -/
inductive TwiAction
  | start
  | byte (value : Byte)
  | stop
  | read (ack : Bool)
  deriving DecidableEq, Repr

/-- What the unit answers once the last of some actions has been carried out: its status register, and
its data register behind a byte read. -/
structure TwiUnit where
  twsr : List TwiAction → Byte
  twdr : List TwiAction → Byte

/-- `TW_STATUS`. -/
def TwiUnit.twStatus (unit : TwiUnit) (bus : List TwiAction) : Byte := unit.twsr bus &&& 0xF8

/-- `TW_START`. -/
def twStart : Byte := 0x08

/-- `TW_REP_START`. -/
def twRepStart : Byte := 0x10

/-- `TW_MT_SLA_ACK`. -/
def twMtSlaAck : Byte := 0x18

/-- `TW_MT_DATA_ACK`. -/
def twMtDataAck : Byte := 0x28

/-- `TW_MR_SLA_ACK`. -/
def twMrSlaAck : Byte := 0x40

/-- `I2C_READ`. -/
def i2cRead : Byte := 1

/-- `I2C_WRITE`. -/
def i2cWriteBit : Byte := 0

section Master

variable (unit : TwiUnit)

/-- `i2c_start`: the bus and the return value. -/
def i2cStart (bus : List TwiAction) (address : Byte) : List TwiAction × Byte :=
  let bus := bus ++ [.start]
  let twst := unit.twStatus bus &&& 0xF8
  if twst ≠ twStart ∧ twst ≠ twRepStart then (bus, 1)
  else
    let bus := bus ++ [.byte address]
    let twst := unit.twStatus bus &&& 0xF8
    if twst ≠ twMtSlaAck ∧ twst ≠ twMrSlaAck then (bus, 1) else (bus, 0)

/-- `i2c_write`. -/
def i2cWrite (bus : List TwiAction) (data : Byte) : List TwiAction × Byte :=
  let bus := bus ++ [.byte data]
  let twst := unit.twStatus bus &&& 0xF8
  (bus, if twst ≠ twMtDataAck then 1 else 0)

/-- `i2c_readNak`. -/
def i2cReadNak (bus : List TwiAction) : List TwiAction × Byte :=
  let bus := bus ++ [.read false]
  (bus, unit.twdr bus)

end Master

/-- `i2c_stop`. -/
def i2cStop (bus : List TwiAction) : List TwiAction := bus ++ [.stop]

theorem TwiUnit.twStatus_and (unit : TwiUnit) (bus : List TwiAction) :
    unit.twStatus bus &&& 0xF8 = unit.twStatus bus := by
  rw [twStatus, BitVec.and_assoc, BitVec.and_self]

/-- The unit reports the start condition that it has just put on the bus. -/
def TwiUnit.Starts (unit : TwiUnit) (bus : List TwiAction) : Prop :=
  unit.twStatus (bus ++ [.start]) = twStart ∨ unit.twStatus (bus ++ [.start]) = twRepStart

/-- The unit reports a start condition, then the address and a data byte as acknowledged. -/
def TwiUnit.Carries (unit : TwiUnit) (bus : List TwiAction) (address data : Byte) : Prop :=
  unit.Starts bus ∧ unit.twStatus (bus ++ [.start, .byte address]) = twMtSlaAck ∧
    unit.twStatus (bus ++ [.start, .byte address, .byte data]) = twMtDataAck

instance (unit : TwiUnit) (bus : List TwiAction) : Decidable (unit.Starts bus) :=
  inferInstanceAs (Decidable (_ ∨ _))

instance (unit : TwiUnit) (bus : List TwiAction) (address data : Byte) :
    Decidable (unit.Carries bus address data) :=
  inferInstanceAs (Decidable (_ ∧ _))

/-- What `i2c_start` puts on the bus does not depend on the answer to the address. -/
theorem i2cStart_bus (unit : TwiUnit) (bus : List TwiAction) (address : Byte) :
    (i2cStart unit bus address).1 =
      bus ++ if unit.Starts bus then [.start, .byte address] else [.start] := by
  unfold i2cStart
  dsimp only
  rw [TwiUnit.twStatus_and]
  by_cases started : unit.Starts bus
  · rw [if_pos started, if_neg (fun neither => started.elim neither.1 neither.2)]
    split <;> simp
  · obtain ⟨first, again⟩ := not_or.mp started
    rw [if_neg started, if_pos ⟨first, again⟩]

/-! ### A slave -/

/-- An action, and the status that the unit reports behind it. -/
structure TwiReport where
  action : TwiAction
  status : Byte
  deriving DecidableEq, Repr

/-- The actions behind some others, as the unit reports them. -/
def TwiUnit.reports (unit : TwiUnit) (before : List TwiAction) : List TwiAction → List TwiReport
  | [] => []
  | action :: rest =>
    ⟨action, unit.twStatus (before ++ [action])⟩ :: unit.reports (before ++ [action]) rest

theorem TwiUnit.reports_append (unit : TwiUnit) (before first second : List TwiAction) :
    unit.reports before (first ++ second) =
      unit.reports before first ++ unit.reports (before ++ first) second := by
  induction first generalizing before with
  | nil => simp [reports]
  | cons action rest ih => simp [reports, ih]

/-- Where a slave is in a transfer: not addressed, behind a start condition, or addressed for writing. -/
inductive SlavePhase
  | idle
  | started
  | addressed
  deriving DecidableEq, Repr

/-- One action on the bus, and the data byte that the slave takes. A start condition that is not reported
has not been put on the bus, and an octet that is not acknowledged has not been taken. -/
def slaveStep (address : Byte) (phase : SlavePhase) (report : TwiReport) :
    SlavePhase × List Byte :=
  match report.action, phase with
  | .start, phase =>
    (if report.status = twStart ∨ report.status = twRepStart then .started else phase, [])
  | .stop, _ => (.idle, [])
  | .byte value, .started =>
    (if value = address ∧ report.status = twMtSlaAck then .addressed else .idle, [])
  | .byte value, .addressed => (.addressed, if report.status = twMtDataAck then [value] else [])
  | .byte _, .idle => (.idle, [])
  | .read _, phase => (phase, [])

/-- A transfer of one byte, as far as it is put on the bus. -/
def transfer (started : Bool) (address data : Byte) : List TwiAction :=
  if started then [.start, .byte address, .byte data, .stop] else [.start, .byte data, .stop]

/-- **A transfer ends with the slave idle.** The slave takes the byte of a transfer that addresses it and is
acknowledged to its end; the byte of a transfer that was not started reaches nobody. -/
theorem run_slaveStep_transfer (unit : TwiUnit) (bus : List TwiAction) (own data : Byte) :
    run (slaveStep own) .idle (unit.reports bus (transfer (unit.Starts bus) own data)) =
      (.idle, if unit.Carries bus own data then [data] else []) := by
  by_cases started : unit.Starts bus
  · have begun : unit.twStatus (bus ++ [.start]) = twStart ∨
        unit.twStatus (bus ++ [.start]) = twRepStart := started
    by_cases found : unit.twStatus (bus ++ [.start, .byte own]) = twMtSlaAck
    · simp [transfer, TwiUnit.reports, run_cons, slaveStep, TwiUnit.Carries, started, begun, found]
    · simp [transfer, TwiUnit.reports, run_cons, slaveStep, TwiUnit.Carries, started, begun, found]
  · have unheard : ¬ (unit.twStatus (bus ++ [.start]) = twStart ∨
        unit.twStatus (bus ++ [.start]) = twRepStart) := started
    simp [transfer, TwiUnit.reports, run_cons, slaveStep, TwiUnit.Carries, started, unheard]

/-! ### A unit whose octets are all acknowledged -/

/-- What it answers, from the last action back: to a start condition on a released bus, to another one, to
an address, to a data byte, to a byte read. -/
def acknowledgedStatus : List TwiAction → Byte
  | [.start] => twStart
  | .start :: .stop :: _ => twStart
  | .start :: _ => twRepStart
  | .byte address :: .start :: _ => if address.getLsbD 0 then twMrSlaAck else twMtSlaAck
  | .byte _ :: _ => twMtDataAck
  | .read ack :: _ => if ack then 0x50 else 0x58
  | _ => 0xF8

/-- A unit whose octets are all acknowledged. -/
def acknowledgedUnit : TwiUnit := ⟨fun bus => acknowledgedStatus bus.reverse, fun _ => 0xFF⟩

theorem acknowledgedStatus_start (earlier : List TwiAction) :
    acknowledgedStatus (.start :: earlier) = twStart ∨
      acknowledgedStatus (.start :: earlier) = twRepStart := by
  cases earlier with
  | nil => exact .inl rfl
  | cons last _ =>
    cases last with
    | stop => exact .inl rfl
    | _ => exact .inr rfl

theorem acknowledgedUnit_twStatus (bus actions : List TwiAction) :
    acknowledgedUnit.twStatus (bus ++ actions) =
      acknowledgedStatus (actions.reverse ++ bus.reverse) &&& 0xF8 := by
  rw [← List.reverse_append]
  rfl

/-- It carries every byte to every address for writing. -/
theorem acknowledgedUnit_carries (bus : List TwiAction) {address : Byte}
    (writes : address.getLsbD 0 = false) (data : Byte) : acknowledgedUnit.Carries bus address data := by
  unfold TwiUnit.Carries TwiUnit.Starts
  simp only [acknowledgedUnit_twStatus]
  refine ⟨?_, ?_, ?_⟩
  · show acknowledgedStatus (.start :: bus.reverse) &&& 0xF8 = _ ∨
      acknowledgedStatus (.start :: bus.reverse) &&& 0xF8 = _
    rcases acknowledgedStatus_start bus.reverse with begun | begun
    · exact .inl (by rw [begun]; rfl)
    · exact .inr (by rw [begun]; rfl)
  · show (if address.getLsbD 0 then twMrSlaAck else twMtSlaAck) &&& 0xF8 = _
    rw [writes]
    rfl
  · show twMtDataAck &&& 0xF8 = _
    rfl

end HdlcMarquee
