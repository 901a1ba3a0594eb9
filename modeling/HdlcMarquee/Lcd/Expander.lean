/-
**The port expander (`MyLCD/MyLCD/pcf8574.cpp`).**

The driver keeps the levels of the output pins in `pcf8574_pinstatus` and sends all of them whenever one
changes. The return values of the bus functions are ignored, so the device has the levels that the driver
believes it has as long as the start condition is reported and both octets are acknowledged
(`run_expanderCall`).

`pcf8574_setoutputpins` changes a group of pins by one transfer; `pcf8574Setoutputpins_eq`: to the levels
that the pins one by one would be set to.
-/

import HdlcMarquee.Lcd.Twi

namespace HdlcMarquee

open Generic

/-- `PCF8574_ADDRBASE`. -/
def pcf8574Addrbase : Byte := 0x27

/-- `PCF8574_MAXDEVICES`. -/
def pcf8574Maxdevices : Nat := 1

/-- `PCF8574_MAXPINS`. -/
def pcf8574Maxpins : Nat := 8

/-- `_BV`. -/
def bv (bit : Nat) : Byte := 1#8 <<< bit

/-- `pcf8574_pinstatus`, and the bus. -/
structure Pcf8574 where
  pcf8574Pinstatus : Nat → Byte
  bus : List TwiAction

/-- `pcf8574_init`; the register settings of `i2c_init` put nothing on the bus. -/
def pcf8574Init (pcf : Pcf8574) : Pcf8574 :=
  { pcf with pcf8574Pinstatus := fun deviceid =>
      if deviceid < pcf8574Maxdevices then 0 else pcf.pcf8574Pinstatus deviceid }

/-- The address byte of a device. -/
def deviceAddress (deviceid direction : Byte) : Byte :=
  ((pcf8574Addrbase + deviceid) <<< 1) ||| direction

/-- `pcf8574_getoutput`; an `int8_t` is the byte that represents it. -/
def pcf8574Getoutput (pcf : Pcf8574) (deviceid : Byte) : Byte :=
  if deviceid.toNat < pcf8574Maxdevices then pcf.pcf8574Pinstatus deviceid.toNat else -1

/-- `pcf8574_getoutputpin`. -/
def pcf8574Getoutputpin (pcf : Pcf8574) (deviceid pin : Byte) : Byte :=
  if deviceid.toNat < pcf8574Maxdevices ∧ pin.toNat < pcf8574Maxpins then
    (pcf.pcf8574Pinstatus deviceid.toNat).sshiftRight pin.toNat &&& 0b00000001
  else -1

section Device

variable (unit : TwiUnit)

/-- The end of the functions that change outputs: the new levels are kept and sent. -/
def Pcf8574.send (pcf : Pcf8574) (deviceid b : Byte) : Pcf8574 where
  pcf8574Pinstatus := Function.update pcf.pcf8574Pinstatus deviceid.toNat b
  bus :=
    let bus := (i2cStart unit pcf.bus (deviceAddress deviceid i2cWriteBit)).1
    let bus := (i2cWrite unit bus b).1
    i2cStop bus

/-- `pcf8574_setoutput`. -/
def pcf8574Setoutput (pcf : Pcf8574) (deviceid data : Byte) : Pcf8574 × Byte :=
  if deviceid.toNat < pcf8574Maxdevices then (pcf.send unit deviceid data, 0) else (pcf, -1)

/-- `pcf8574_setoutputpin`. -/
def pcf8574Setoutputpin (pcf : Pcf8574) (deviceid pin data : Byte) : Pcf8574 × Byte :=
  if deviceid.toNat < pcf8574Maxdevices ∧ pin.toNat < pcf8574Maxpins then
    let b := pcf.pcf8574Pinstatus deviceid.toNat
    let b := if data ≠ 0 then b ||| bv pin.toNat else b &&& ~~~(bv pin.toNat)
    (pcf.send unit deviceid b, 0)
  else (pcf, -1)

/-- `pcf8574_setoutputpinhigh`. -/
def pcf8574Setoutputpinhigh (pcf : Pcf8574) (deviceid pin : Byte) : Pcf8574 × Byte :=
  pcf8574Setoutputpin unit pcf deviceid pin 1

/-- `pcf8574_setoutputpinlow`. -/
def pcf8574Setoutputpinlow (pcf : Pcf8574) (deviceid pin : Byte) : Pcf8574 × Byte :=
  pcf8574Setoutputpin unit pcf deviceid pin 0

/-- `pcf8574_setoutputpins`. The guard is computed in `int`; the mask and the shifted data are cut to a
byte. -/
def pcf8574Setoutputpins (pcf : Pcf8574) (deviceid pinstart pinlength data : Byte) : Pcf8574 × Byte :=
  if deviceid.toNat < pcf8574Maxdevices ∧ 0 ≤ (pinstart.toNat : Int) - pinlength.toNat + 1 ∧
      pinstart.toNat < pcf8574Maxpins ∧ 0 < pinstart.toNat ∧ 0 < pinlength.toNat then
    let lowest := pinstart.toNat + 1 - pinlength.toNat
    let b := pcf.pcf8574Pinstatus deviceid.toNat
    let mask : Byte := BitVec.ofNat 8 ((2 ^ pinlength.toNat - 1) * 2 ^ lowest)
    let data := data <<< lowest
    let data := data &&& mask
    let b := b &&& ~~~mask
    let b := b ||| data
    (pcf.send unit deviceid b, 0)
  else (pcf, -1)

/-- `pcf8574_getinput`. -/
def pcf8574Getinput (pcf : Pcf8574) (deviceid : Byte) : Pcf8574 × Byte :=
  if deviceid.toNat < pcf8574Maxdevices then
    let bus := (i2cStart unit pcf.bus (deviceAddress deviceid i2cRead)).1
    let (bus, data) := i2cReadNak unit bus
    ({ pcf with bus := i2cStop bus }, ~~~data)
  else (pcf, -1)

/-- `pcf8574_getinputpin`. -/
def pcf8574Getinputpin (pcf : Pcf8574) (deviceid pin : Byte) : Pcf8574 × Byte :=
  if deviceid.toNat < pcf8574Maxdevices ∧ pin.toNat < pcf8574Maxpins then
    let (pcf, data) := pcf8574Getinput unit pcf deviceid
    (pcf, if data ≠ -1 then data.sshiftRight pin.toNat &&& 0b00000001 else data)
  else (pcf, -1)

end Device

/-! ### What the device outputs -/

/-- The address byte that the device with the number 0 answers to. -/
def deviceWrite : Byte := deviceAddress 0 i2cWriteBit

/-- What the device has output, and where it is in a transfer. -/
def deviceRun (unit : TwiUnit) (bus : List TwiAction) : SlavePhase × List Byte :=
  run (slaveStep deviceWrite) .idle (unit.reports [] bus)

/-- A call of the driver. -/
inductive ExpanderCall
  | init
  | setoutput (deviceid data : Byte)
  | setoutputpin (deviceid pin data : Byte)
  | setoutputpins (deviceid pinstart pinlength data : Byte)
  | getinput (deviceid : Byte)

/-- New levels that the driver keeps, and whether they were sent by a transfer that was started and
acknowledged to its end. -/
structure Update where
  sent : Bool
  levels : Byte
  deriving DecidableEq, Repr

section Calls

variable (unit : TwiUnit)

/-- The update behind a call that returns 0. -/
def updateOf (before : Pcf8574) (called : Pcf8574 × Byte) : Pcf8574 × List Update :=
  (called.1,
    if called.2 = 0 then
      [⟨decide (unit.Carries before.bus deviceWrite (called.1.pcf8574Pinstatus 0)),
        called.1.pcf8574Pinstatus 0⟩]
    else [])

/-- One call, and the update that it makes. -/
def expanderCall (pcf : Pcf8574) : ExpanderCall → Pcf8574 × List Update
  -- the outputs are forgotten, and nothing is sent
  | .init => (pcf8574Init pcf, [⟨false, 0⟩])
  | .setoutput deviceid data => updateOf unit pcf (pcf8574Setoutput unit pcf deviceid data)
  | .setoutputpin deviceid pin data =>
    updateOf unit pcf (pcf8574Setoutputpin unit pcf deviceid pin data)
  | .setoutputpins deviceid pinstart pinlength data =>
    updateOf unit pcf (pcf8574Setoutputpins unit pcf deviceid pinstart pinlength data)
  | .getinput deviceid => ((pcf8574Getinput unit pcf deviceid).1, [])

/-- **What sending puts on the bus.** -/
theorem send_bus (pcf : Pcf8574) (deviceid b : Byte) :
    (pcf.send unit deviceid b).bus =
      pcf.bus ++ transfer (unit.Starts pcf.bus) (deviceAddress deviceid i2cWriteBit) b := by
  unfold Pcf8574.send i2cStop i2cWrite transfer
  dsimp only
  rw [i2cStart_bus]
  by_cases started : unit.Starts pcf.bus
  · simp [started]
  · simp [started]

theorem send_pinstatus (pcf : Pcf8574) (b : Byte) : (pcf.send unit 0 b).pcf8574Pinstatus 0 = b := by
  show Function.update pcf.pcf8574Pinstatus 0 b 0 = b
  rw [Function.update_self]

theorem device_zero {deviceid : Byte} (inside : deviceid.toNat < pcf8574Maxdevices) :
    deviceid = 0 := by
  have zero : deviceid.toNat = 0 := Nat.lt_one_iff.mp inside
  exact BitVec.eq_of_toNat_eq zero

theorem deviceRun_append (first second : List TwiAction) :
    deviceRun unit (first ++ second) =
      ((run (slaveStep deviceWrite) (deviceRun unit first).1 (unit.reports first second)).1,
        (deviceRun unit first).2 ++
          (run (slaveStep deviceWrite) (deviceRun unit first).1 (unit.reports first second)).2) := by
  rw [deviceRun, TwiUnit.reports_append, List.nil_append, run_append]
  rfl

/-- Sending makes one update. -/
theorem deviceRun_send {pcf : Pcf8574} (idle : (deviceRun unit pcf.bus).1 = .idle) (b : Byte) :
    deviceRun unit (pcf.send unit 0 b).bus =
      (.idle, (deviceRun unit pcf.bus).2 ++
        if unit.Carries pcf.bus deviceWrite b then [b] else []) := by
  rw [send_bus, deviceRun_append, idle]
  exact congrArg (fun taken => (taken.1, (deviceRun unit pcf.bus).2 ++ taken.2))
    (run_slaveStep_transfer unit pcf.bus deviceWrite b)

/-- Every function that changes outputs either fails and changes nothing, or sends. -/
inductive Sends (pcf : Pcf8574) : Pcf8574 × Byte → Prop
  | sends (b : Byte) : Sends pcf (pcf.send unit 0 b, 0)
  | fails : Sends pcf (pcf, -1)

theorem setoutput_sends (pcf : Pcf8574) (deviceid data : Byte) :
    Sends unit pcf (pcf8574Setoutput unit pcf deviceid data) := by
  unfold pcf8574Setoutput
  split
  · rename_i inside
    rw [device_zero inside]
    exact .sends data
  · exact .fails

theorem setoutputpin_sends (pcf : Pcf8574) (deviceid pin data : Byte) :
    Sends unit pcf (pcf8574Setoutputpin unit pcf deviceid pin data) := by
  unfold pcf8574Setoutputpin
  split
  · rename_i inside
    rw [device_zero inside.1]
    exact .sends _
  · exact .fails

theorem setoutputpins_sends (pcf : Pcf8574) (deviceid pinstart pinlength data : Byte) :
    Sends unit pcf (pcf8574Setoutputpins unit pcf deviceid pinstart pinlength data) := by
  unfold pcf8574Setoutputpins
  split
  · rename_i inside
    rw [device_zero inside.1]
    exact .sends _
  · exact .fails

/-- Reading the inputs puts nothing into the device. -/
theorem deviceRun_getinput {pcf : Pcf8574} (idle : (deviceRun unit pcf.bus).1 = .idle)
    (deviceid : Byte) :
    deviceRun unit (pcf8574Getinput unit pcf deviceid).1.bus = deviceRun unit pcf.bus := by
  unfold pcf8574Getinput
  split
  · rename_i inside
    rw [device_zero inside]
    unfold i2cReadNak i2cStop
    dsimp only
    rw [i2cStart_bus, List.append_assoc, List.append_assoc, deviceRun_append, idle]
    refine Prod.ext ?_ ?_
    · split <;> simp [TwiUnit.reports, run_cons, slaveStep, idle]
    · split
      · by_cases begun : unit.twStatus (pcf.bus ++ [.start]) = twStart ∨
            unit.twStatus (pcf.bus ++ [.start]) = twRepStart
        · simp [TwiUnit.reports, run_cons, slaveStep, begun]
        · simp [TwiUnit.reports, run_cons, slaveStep, begun]
      · simp [TwiUnit.reports, run_cons, slaveStep]
  · rfl

/-- The device is idle, has output the updates that were sent, and the driver holds the levels of the
last update, sent or not. -/
structure Expanded (pcf : Pcf8574) (updates : List Update) : Prop where
  idle : (deviceRun unit pcf.bus).1 = .idle
  outputs : (deviceRun unit pcf.bus).2 = (updates.filter (·.sent)).map Update.levels
  held : ∀ last ∈ updates.getLast?, pcf.pcf8574Pinstatus 0 = last.levels

theorem Expanded.sends {pcf : Pcf8574} {updates : List Update}
    (expanded : Expanded unit pcf updates) {called : Pcf8574 × Byte} (sends : Sends unit pcf called) :
    Expanded unit (updateOf unit pcf called).1 (updates ++ (updateOf unit pcf called).2) := by
  cases sends with
  | sends b =>
    have sent := deviceRun_send unit expanded.idle b
    have level := send_pinstatus unit pcf b
    simp only [updateOf, if_true]
    refine ⟨by rw [sent], ?_, fun last member => ?_⟩
    · rw [sent, expanded.outputs, level, List.filter_append, List.map_append]
      by_cases carried : unit.Carries pcf.bus deviceWrite b
      · simp [carried]
      · simp [carried]
    · rw [List.getLast?_concat, Option.mem_some_iff] at member
      rw [← member]
  | fails =>
    have fails : (-1 : Byte) ≠ 0 := by decide
    simp only [updateOf, if_neg fails, List.append_nil]
    exact expanded

/-- **One call.** -/
theorem Expanded.call {pcf : Pcf8574} {updates : List Update} (expanded : Expanded unit pcf updates)
    (call : ExpanderCall) :
    Expanded unit (expanderCall unit pcf call).1 (updates ++ (expanderCall unit pcf call).2) := by
  cases call with
  | init =>
    refine ⟨expanded.idle, ?_, fun last member => ?_⟩
    · simp [expanderCall, pcf8574Init, expanded.outputs]
    · rw [expanderCall, List.getLast?_concat, Option.mem_some_iff] at member
      rw [← member]
      rfl
  | setoutput deviceid data => exact expanded.sends unit (setoutput_sends unit pcf deviceid data)
  | setoutputpin deviceid pin data =>
    exact expanded.sends unit (setoutputpin_sends unit pcf deviceid pin data)
  | setoutputpins deviceid pinstart pinlength data =>
    exact expanded.sends unit (setoutputpins_sends unit pcf deviceid pinstart pinlength data)
  | getinput deviceid =>
    have bus := deviceRun_getinput unit expanded.idle deviceid
    have kept : (pcf8574Getinput unit pcf deviceid).1.pcf8574Pinstatus = pcf.pcf8574Pinstatus := by
      unfold pcf8574Getinput
      split <;> rfl
    rw [expanderCall, List.append_nil]
    exact ⟨by rw [bus, expanded.idle], by rw [bus, expanded.outputs], by rw [kept]; exact expanded.held⟩

/-- **What the device outputs in a run of calls**, whatever the TWI unit answers: the updates whose start
condition was reported and whose two octets were acknowledged, in order, and nothing else; the bus is
released behind every call; and what the driver takes for the levels of the pins is their level as long as
the last update was sent. -/
theorem run_expanderCall {pcf : Pcf8574} (silent : pcf.bus = []) (calls : List ExpanderCall) :
    let ran := run (expanderCall unit) pcf calls
    deviceRun unit ran.1.bus = (.idle, (ran.2.filter (·.sent)).map Update.levels) ∧
      ∀ last ∈ ran.2.getLast?, ran.1.pcf8574Pinstatus 0 = last.levels ∧
        (last.sent = true →
          (deviceRun unit ran.1.bus).2.getLast? = some (ran.1.pcf8574Pinstatus 0)) := by
  have start : Expanded unit pcf [] := by
    refine ⟨?_, ?_, fun last member => by cases member⟩ <;> rw [silent] <;> rfl
  have expanded := run_invariant (expanderCall unit) (Expanded unit)
    (fun _ _ call held => held.call unit call) calls pcf [] start
  rw [List.nil_append] at expanded
  refine ⟨Prod.ext expanded.idle expanded.outputs, fun last member => ?_⟩
  have held := expanded.held last member
  refine ⟨held, fun sent => ?_⟩
  obtain ⟨before, split⟩ := List.getLast?_eq_some_iff.mp member
  rw [expanded.outputs, held, split, List.filter_append, List.map_append]
  simp [sent]

/-- A run in which the second of three updates is lost: nobody acknowledges the address, and nobody the
byte behind it. -/
theorem run_expanderCall_lost :
    let unit : TwiUnit := { acknowledgedUnit with
      twsr := fun bus =>
        if bus.length = 6 then 0x20 else if bus.length = 7 then 0x30 else acknowledgedUnit.twsr bus }
    let ran := run (expanderCall unit) ⟨fun _ => 0, []⟩
      [.setoutput 0 0x0A, .setoutputpin 0 2 1, .getinput 0, .setoutputpin 0 0 1]
    deviceRun unit ran.1.bus = (.idle, (ran.2.filter (·.sent)).map Update.levels) ∧
      ∀ last ∈ ran.2.getLast?, ran.1.pcf8574Pinstatus 0 = last.levels ∧
        (last.sent = true →
          (deviceRun unit ran.1.bus).2.getLast? = some (ran.1.pcf8574Pinstatus 0)) :=
  run_expanderCall _ rfl _

end Calls

/-! ### A group of pins -/

theorem getLsbD_bv {pin : Nat} (inside : pin < 8) (bit : Nat) :
    (bv pin).getLsbD bit = decide (bit = pin) := by
  unfold bv
  rw [BitVec.getLsbD_shiftLeft, BitVec.getLsbD_one]
  by_cases same : bit = pin
  · subst same
    simp [inside]
  · simp [same]
    omega

/-- The bits of the mask of a group. -/
theorem getLsbD_mask (lowest count bit : Nat) (inside : bit < 8) :
    (BitVec.ofNat 8 ((2 ^ count - 1) * 2 ^ lowest)).getLsbD bit =
      decide (lowest ≤ bit ∧ bit < lowest + count) := by
  rw [BitVec.getLsbD_ofNat, Nat.testBit_mul_two_pow, Nat.testBit_two_pow_sub_one]
  by_cases low : lowest ≤ bit
  · simp [inside, low]
    omega
  · simp [low]

section Group

variable (unit : TwiUnit)

/-- The pins of a group, set one after the other. -/
def setEachPin (pcf : Pcf8574) (lowest : Nat) (data : Byte) (count : Nat) : Pcf8574 :=
  (List.range count).foldl (fun pcf place => (pcf8574Setoutputpin unit pcf 0
    (BitVec.ofNat 8 (lowest + place)) (if data.getLsbD place then 1 else 0)).1) pcf

theorem setoutputpin_bit (pcf : Pcf8574) {pin : Nat} (inside : pin < 8) (level : Bool) (bit : Nat) :
    ((pcf8574Setoutputpin unit pcf 0 (BitVec.ofNat 8 pin)
        (if level then 1 else 0)).1.pcf8574Pinstatus 0).getLsbD bit =
      if bit = pin then level else (pcf.pcf8574Pinstatus 0).getLsbD bit := by
  have value : (BitVec.ofNat 8 pin).toNat = pin := by
    rw [BitVec.toNat_ofNat]
    omega
  unfold pcf8574Setoutputpin
  rw [value, if_pos ⟨by decide, inside⟩]
  dsimp only
  rw [send_pinstatus]
  cases level with
  | true =>
    rw [if_pos rfl, if_pos (by decide), BitVec.getLsbD_or, getLsbD_bv inside]
    by_cases same : bit = pin <;> simp [same]
  | false =>
    have zero : ¬ (if false = true then (1 : Byte) else 0) ≠ 0 := by decide
    rw [if_neg zero, BitVec.getLsbD_and, BitVec.getLsbD_not, getLsbD_bv inside]
    by_cases same : bit = pin
    · simp [same]
    · by_cases far : bit < 8
      · simp [same, far]
      · simp [same, BitVec.getLsbD_of_ge _ _ (Nat.not_lt.mp far)]

/-- **The pins one after the other.** -/
theorem setEachPin_bit (pcf : Pcf8574) (lowest : Nat) (data : Byte) (count bit : Nat)
    (inside : lowest + count ≤ 8) :
    ((setEachPin unit pcf lowest data count).pcf8574Pinstatus 0).getLsbD bit =
      if lowest ≤ bit ∧ bit < lowest + count then data.getLsbD (bit - lowest)
      else (pcf.pcf8574Pinstatus 0).getLsbD bit := by
  induction count with
  | zero =>
    rw [if_neg (by omega)]
    rfl
  | succ count ih =>
    unfold setEachPin at ih ⊢
    rw [List.range_succ, List.foldl_append, List.foldl_cons, List.foldl_nil,
      setoutputpin_bit unit _ (by omega), ih (by omega)]
    by_cases last : bit = lowest + count
    · rw [if_pos last, if_pos (by omega), last, Nat.add_sub_cancel_left]
    · rw [if_neg last]
      by_cases before : lowest ≤ bit ∧ bit < lowest + count
      · rw [if_pos before, if_pos (by omega)]
      · rw [if_neg before, if_neg (by omega)]

/-- **Setting a group of pins at once**: one update, to the levels that the pins of the group, set one
after the other to the lowest bits of the data, lead to. -/
theorem pcf8574Setoutputpins_eq (pcf : Pcf8574) {pinstart pinlength : Byte}
    (inside : pinstart.toNat < pcf8574Maxpins) (above : 0 < pinstart.toNat)
    (some : 0 < pinlength.toNat) (fits : pinlength.toNat ≤ pinstart.toNat + 1) (data : Byte) :
    pcf8574Setoutputpins unit pcf 0 pinstart pinlength data =
      (pcf.send unit 0 ((setEachPin unit pcf (pinstart.toNat + 1 - pinlength.toNat) data
        pinlength.toNat).pcf8574Pinstatus 0), 0) := by
  have below : pinstart.toNat < 8 := inside
  unfold pcf8574Setoutputpins
  rw [if_pos ⟨by decide, by omega, inside, above, some⟩]
  refine congrArg (fun b => (pcf.send unit 0 b, (0 : Byte))) (BitVec.eq_of_getLsbD_eq fun bit far => ?_)
  rw [setEachPin_bit unit pcf _ _ _ _ (by omega)]
  simp only [BitVec.getLsbD_or, BitVec.getLsbD_and, BitVec.getLsbD_not, BitVec.getLsbD_shiftLeft,
    getLsbD_mask _ _ _ far, far, decide_true, Bool.true_and]
  generalize pinstart.toNat + 1 - pinlength.toNat = lowest
  by_cases group : lowest ≤ bit ∧ bit < lowest + pinlength.toNat
  · simp [group, Nat.not_lt.mpr group.1]
  · simp [group]

/-- The three pins from 4 to 6. -/
theorem pcf8574Setoutputpins_three :
    let pcf : Pcf8574 := ⟨fun _ => 0x1F, []⟩
    pcf8574Setoutputpins acknowledgedUnit pcf 0 6 3 0b101 =
      (pcf.send acknowledgedUnit 0 ((setEachPin acknowledgedUnit pcf 4 0b101 3).pcf8574Pinstatus 0),
        0) :=
  pcf8574Setoutputpins_eq _ _ (by decide) (by decide) (by decide) (by decide) 0b101

end Group

end HdlcMarquee
