/-
**What the display gets to see.**

The port of the display is the pins of the expander (`Lines`). On it every call of the driver is a
sequence of four operations (`callOps`): a byte is written in two halves, read in two halves, the
backlight is switched, or the display is reset.

`does_call`: the levels that the device outputs during a call are those of its operations, as long as
every start condition is reported and every octet acknowledged.
-/

import HdlcMarquee.Lcd.Driver
import HdlcMarquee.Generic.Strobe

namespace HdlcMarquee

open Generic

/-! ### The port -/

/-- The lines of the display. -/
structure Lines where
  data : BitVec 4
  led : Bool
  e : Bool
  rw : Bool
  rs : Bool
  deriving DecidableEq, Repr

/-- The wiring of the display to the expander. -/
def linesOf (levels : Byte) : Lines where
  data := levels.extractLsb' lcdData0Pin 4
  led := levels.getLsbD lcdLedPin
  e := levels.getLsbD lcdEPin
  rw := levels.getLsbD lcdRwPin
  rs := levels.getLsbD lcdRsPin

/-- What the driver does at the port. -/
inductive PortOp
  | write (data : Byte) (rs : Bool)
  | read (rs : Bool)
  | led (level : Bool)
  | reset
  deriving DecidableEq, Repr

/-- A pulse on E. -/
def Lines.pulse (lines : Lines) : List Lines := [{ lines with e := true }, lines]

/-- One operation, and the levels that it goes through. -/
def portStep (lines : Lines) : PortOp → Lines × List Lines
  | .write data rs =>
    let ready := { lines with rw := false, rs := rs }
    let high := { ready with data := data.extractLsb' 4 4 }
    let low := { ready with data := data.extractLsb' 0 4 }
    let behind := { ready with data := 0xF }
    (behind, [ready] ++ [high] ++ high.pulse ++ [low] ++ low.pulse ++ [behind])
  | .read rs =>
    let ready := { lines with rw := true, rs := rs }
    (ready, [ready] ++ ready.pulse ++ ready.pulse)
  | .led level => ({ lines with led := level }, [{ lines with led := level }])
  | .reset =>
    let eight : Lines := ⟨0x3, false, false, false, false⟩
    let four : Lines := ⟨0x2, false, false, false, false⟩
    (four, [⟨0, false, false, false, false⟩] ++ [eight] ++ eight.pulse ++ eight.pulse ++ eight.pulse ++
      [four] ++ four.pulse)

/-! ### The pins -/

theorem linesOf_rw_low (levels : Byte) :
    linesOf (levels &&& ~~~(bv lcdRwPin)) = { linesOf levels with rw := false } := by
  revert levels
  decide

theorem linesOf_rw_high (levels : Byte) :
    linesOf (levels ||| bv lcdRwPin) = { linesOf levels with rw := true } := by
  revert levels
  decide

theorem linesOf_led_low (levels : Byte) :
    linesOf (levels &&& ~~~(bv lcdLedPin)) = { linesOf levels with led := false } := by
  revert levels
  decide

theorem linesOf_led_high (levels : Byte) :
    linesOf (levels ||| bv lcdLedPin) = { linesOf levels with led := true } := by
  revert levels
  decide

theorem linesOf_e_high (levels : Byte) :
    linesOf (levels ||| bv lcdEPin) = { linesOf levels with e := true } := by
  revert levels
  decide

theorem levels_e (levels : Byte) (low : (linesOf levels).e = false) :
    (levels ||| bv lcdEPin) &&& ~~~(bv lcdEPin) = levels := by
  revert levels
  decide

theorem linesOf_clearData (levels : Byte) :
    linesOf (clearData levels) = { linesOf levels with data := 0 } := by
  revert levels
  decide

theorem linesOf_data_high (levels : Byte) :
    linesOf (levels ||| bv lcdData0Pin ||| bv lcdData1Pin ||| bv lcdData2Pin ||| bv lcdData3Pin) =
      { linesOf levels with data := 0xF } := by
  revert levels
  decide

theorem linesOf_setRs (levels rs : Byte) :
    linesOf (setRs levels rs) = { linesOf levels with rs := decide (rs ≠ 0) } := by
  have high : ∀ levels, linesOf (levels ||| bv lcdRsPin) = { linesOf levels with rs := true } := by
    decide
  have low : ∀ levels, linesOf (levels &&& ~~~(bv lcdRsPin)) = { linesOf levels with rs := false } := by
    decide
  unfold setRs
  split
  · rename_i set
    rw [high, decide_eq_true set]
  · rename_i unset
    rw [low, decide_eq_false unset]

/-- One data pin switched on under a condition. -/
theorem linesOf_ite (pin : Nat) (bit : BitVec 4)
    (set : ∀ levels, linesOf (levels ||| bv pin) =
      { linesOf levels with data := (linesOf levels).data ||| bit })
    (condition : Prop) [Decidable condition] (levels : Byte) :
    linesOf (if condition then levels ||| bv pin else levels) =
      { linesOf levels with
        data := (linesOf levels).data ||| if condition then bit else 0#4 } := by
  split
  · rw [set]
  · rw [BitVec.or_zero]

theorem linesOf_setData (levels data mask3 mask2 mask1 mask0 : Byte) :
    linesOf (setData levels data mask3 mask2 mask1 mask0) =
      { linesOf levels with
        data := (linesOf levels).data ||| (if data &&& mask3 ≠ 0 then 8#4 else 0#4) |||
          (if data &&& mask2 ≠ 0 then 4#4 else 0#4) ||| (if data &&& mask1 ≠ 0 then 2#4 else 0#4) |||
          (if data &&& mask0 ≠ 0 then 1#4 else 0#4) } := by
  unfold setData
  dsimp only
  rw [linesOf_ite lcdData0Pin 1 (by decide), linesOf_ite lcdData1Pin 2 (by decide),
    linesOf_ite lcdData2Pin 4 (by decide), linesOf_ite lcdData3Pin 8 (by decide)]
  rfl

/-- The high half of a byte on the data lines. -/
theorem linesOf_high (levels data : Byte) :
    linesOf (setData (clearData levels) data 0x80 0x40 0x20 0x10) =
      { linesOf levels with data := data.extractLsb' 4 4 } := by
  have half : ∀ data : Byte, 0#4 ||| (if data &&& 0x80 ≠ 0 then 8#4 else 0#4) |||
      (if data &&& 0x40 ≠ 0 then 4#4 else 0#4) ||| (if data &&& 0x20 ≠ 0 then 2#4 else 0#4) |||
      (if data &&& 0x10 ≠ 0 then 1#4 else 0#4) = data.extractLsb' 4 4 := by decide
  rw [linesOf_setData, linesOf_clearData]
  exact congrArg (fun half => { linesOf levels with data := half }) (half data)

/-- The low half of a byte on the data lines. -/
theorem linesOf_low (levels data : Byte) :
    linesOf (setData (clearData levels) data 0x08 0x04 0x02 0x01) =
      { linesOf levels with data := data.extractLsb' 0 4 } := by
  have half : ∀ data : Byte, 0#4 ||| (if data &&& 0x08 ≠ 0 then 8#4 else 0#4) |||
      (if data &&& 0x04 ≠ 0 then 4#4 else 0#4) ||| (if data &&& 0x02 ≠ 0 then 2#4 else 0#4) |||
      (if data &&& 0x01 ≠ 0 then 1#4 else 0#4) = data.extractLsb' 0 4 := by decide
  rw [linesOf_setData, linesOf_clearData]
  exact congrArg (fun half => { linesOf levels with data := half }) (half data)

/-! ### The calls of the driver -/

/-- A call of the driver behind `lcd_init`. -/
inductive LcdCall
  | command (cmd : Byte)
  | data (value : Byte)
  | gotoxy (x y : Byte)
  | getxy
  | clrscr
  | led (onoff : Byte)
  | home
  | putc (c : Byte)

/-- A call. -/
def lcdCall (unit : TwiUnit) (lcd : Lcd) : LcdCall → Lcd
  | .command cmd => lcdCommand unit lcd cmd
  | .data value => lcdData unit lcd value
  | .gotoxy x y => lcdGotoxy unit lcd x y
  | .getxy => (lcdGetxy unit lcd).1
  | .clrscr => lcdClrscr unit lcd
  | .led onoff => lcdLed unit lcd onoff
  | .home => lcdHome unit lcd
  | .putc c => lcdPutc unit lcd c

/-- The instruction of a cursor position. -/
def gotoInstruction (x y : Byte) : Byte :=
  if y = 0 then bv lcdDdram + lcdStartLine1 + x else bv lcdDdram + lcdStartLine2 + x

/-- What `lcd_waitbusy` does. -/
def waitOps : List PortOp := [.read false, .read false]

/-- What `lcd_command` does. -/
def commandOps (cmd : Byte) : List PortOp := waitOps ++ [.write cmd false]

/-- What `lcd_init` does behind its first part. -/
def settingOps (dispAttr : Byte) : List PortOp :=
  commandOps lcdFunctionDefault ++ commandOps lcdDispOff ++ commandOps (bv lcdClr) ++
    commandOps lcdModeDefault ++ commandOps dispAttr

/-- What a call does. -/
def callOps : LcdCall → List PortOp
  | .command cmd => commandOps cmd
  | .data value => waitOps ++ [.write value true]
  | .gotoxy x y => commandOps (gotoInstruction x y)
  | .getxy => waitOps
  | .clrscr => commandOps (bv lcdClr)
  | .led onoff => [.led (decide (onoff = 0))]
  | .home => commandOps (bv lcdHomeBit)
  -- a new line is the second one from wherever the cursor is, and no line is ever wrapped
  | .putc c =>
    if c = 0x0A then waitOps ++ commandOps (bv lcdDdram + lcdStartLine2)
    else waitOps ++ waitOps ++ [.write c true]

/-- What is done from `lcd_init` on. -/
def sessionOps (dispAttr : Byte) (calls : List LcdCall) : List PortOp :=
  .reset :: (settingOps dispAttr ++ calls.flatMap callOps)

/-- `lcd_init` and the calls behind it. -/
def lcdSession (unit : TwiUnit) (lcd : Lcd) (dispAttr : Byte) (calls : List LcdCall) : Lcd :=
  calls.foldl (lcdCall unit) (lcdInit unit lcd dispAttr)

section Refinement

/-- The device is idle and has output some levels. -/
structure Output (unit : TwiUnit) (lcd : Lcd) (past : List Lines) : Prop where
  idle : (deviceRun unit lcd.pcf8574.bus).1 = .idle
  outputs : (deviceRun unit lcd.pcf8574.bus).2.map linesOf = past

/-- The driver between two operations: it and the expander agree on the levels of the lines, and E is
low. -/
structure Wired (unit : TwiUnit) (lcd : Lcd) (lines : Lines) (past : List Lines) : Prop
    extends Output unit lcd past where
  held : lcd.pcf8574.pcf8574Pinstatus 0 = lcd.dataport
  port : linesOf lcd.dataport = lines
  low : lines.e = false

variable {unit : TwiUnit}

theorem setoutput_eq (pcf : Pcf8574) (dataport : Byte) :
    (pcf8574Setoutput unit pcf lcdPcf8574Deviceid dataport).1 = pcf.send unit 0 dataport := rfl

theorem eHigh_eq (pcf : Pcf8574) :
    (pcf8574Setoutputpinhigh unit pcf lcdPcf8574Deviceid (BitVec.ofNat 8 lcdEPin)).1 =
      pcf.send unit 0 (pcf.pcf8574Pinstatus 0 ||| bv lcdEPin) := rfl

theorem eLow_eq (pcf : Pcf8574) :
    (pcf8574Setoutputpinlow unit pcf lcdPcf8574Deviceid (BitVec.ofNat 8 lcdEPin)).1 =
      pcf.send unit 0 (pcf.pcf8574Pinstatus 0 &&& ~~~(bv lcdEPin)) := rfl

/-- What is read back is the lowest data pin, twice. -/
theorem lcdRead_value (lcd : Lcd) (rs : Byte) :
    (lcdRead unit lcd rs).2 = if (linesOf lcd.dataport).data.getLsbD 0 then 0x11 else 0x00 := by
  have raised : ∀ levels : Byte,
      (levels ||| bv lcdEPin).getLsbD lcdData0Pin = (linesOf levels).data.getLsbD 0 := by decide
  have fallen : ∀ levels : Byte,
      linesOf ((levels ||| bv lcdEPin) &&& ~~~(bv lcdEPin)) = { linesOf levels with e := false } := by
    decide
  unfold lcdRead Lcd.eLow Lcd.eHigh Lcd.setoutput
  dsimp only
  rw [getoutputpin_data0, getoutputpin_data0, setoutput_eq, eHigh_eq, eLow_eq, eHigh_eq]
  simp only [send_pinstatus, raised, fallen, linesOf_rw_high, linesOf_setRs]
  split <;> decide

/-- **The position that is read** does not depend on the display. -/
theorem lcdWaitbusy_value (lcd : Lcd) :
    (lcdWaitbusy unit lcd).2 = if (linesOf lcd.dataport).data.getLsbD 0 then 0x11 else 0x00 := by
  have kept : (linesOf (lcdRead unit lcd 0).1.dataport).data = (linesOf lcd.dataport).data := by
    show (linesOf (setRs lcd.dataport 0 ||| bv lcdRwPin)).data = _
    rw [linesOf_rw_high, linesOf_setRs]
  rw [lcdWaitbusy_eq, lcdRead_value, kept]

/-- A function of the driver does some operations. -/
def Does (unit : TwiUnit) (f : Lcd → Lcd) (ops : List PortOp) : Prop :=
  ∀ lcd lines past, Wired unit lcd lines past →
    Wired unit (f lcd) (run portStep lines ops).1 (past ++ (run portStep lines ops).2)

theorem Does.next {f g : Lcd → Lcd} {first second : List PortOp} (doesFirst : Does unit f first)
    (doesSecond : Does unit g second) : Does unit (fun lcd => g (f lcd)) (first ++ second) := by
  intro lcd lines past wired
  have reached := doesSecond _ _ _ (doesFirst lcd lines past wired)
  rw [run_append, ← List.append_assoc]
  exact reached

variable (carries : ∀ bus data, unit.Carries bus deviceWrite data)

include carries

/-- Levels that are sent are output. -/
theorem Output.send {lcd : Lcd} {past : List Lines} (output : Output unit lcd past)
    (dataport levels : Byte) :
    Output unit ⟨dataport, lcd.pcf8574.send unit 0 levels⟩ (past ++ [linesOf levels]) := by
  have sent := deviceRun_send unit output.idle levels
  rw [if_pos (carries _ _)] at sent
  refine ⟨by rw [sent], ?_⟩
  rw [sent, List.map_append, output.outputs]
  rfl

theorem Output.setoutput {lcd : Lcd} {past : List Lines} (output : Output unit lcd past)
    {dataport : Byte} {lines : Lines} (port : linesOf dataport = lines) (low : lines.e = false) :
    Wired unit (lcd.setoutput unit dataport) lines (past ++ [lines]) := by
  have sent := output.send carries dataport dataport
  rw [port] at sent
  exact ⟨sent, send_pinstatus unit lcd.pcf8574 dataport, port, low⟩

/-- A change of `dataport` that leaves E alone. -/
theorem Wired.setoutput {lcd : Lcd} {lines : Lines} {past : List Lines}
    (wired : Wired unit lcd lines past) (change : Lines → Lines)
    (quiet : (change lines).e = lines.e) {dataport : Byte}
    (changed : linesOf dataport = change (linesOf lcd.dataport)) :
    Wired unit (lcd.setoutput unit dataport) (change lines) (past ++ [change lines]) :=
  wired.toOutput.setoutput carries (changed.trans (congrArg change wired.port)) (quiet.trans wired.low)

theorem Wired.toggle {lcd : Lcd} {lines : Lines} {past : List Lines}
    (wired : Wired unit lcd lines past) :
    Wired unit (toggleE unit lcd) lines (past ++ lines.pulse) := by
  have raised := wired.toOutput.send carries lcd.dataport
    (lcd.pcf8574.pcf8574Pinstatus 0 ||| bv lcdEPin)
  have fallen := raised.send carries lcd.dataport
    ((lcd.pcf8574.pcf8574Pinstatus 0 ||| bv lcdEPin) &&& ~~~(bv lcdEPin))
  have port := wired.port
  have low : (linesOf lcd.dataport).e = false := by rw [port, wired.low]
  rw [wired.held, levels_e _ low, linesOf_e_high, port, List.append_assoc] at fallen
  have reached : toggleE unit lcd = ⟨lcd.dataport, (lcd.pcf8574.send unit 0
      (lcd.dataport ||| bv lcdEPin)).send unit 0 lcd.dataport⟩ := by
    unfold toggleE Lcd.eLow Lcd.eHigh
    rw [eHigh_eq, eLow_eq, send_pinstatus, wired.held, levels_e _ low]
  rw [reached]
  exact ⟨fallen, send_pinstatus unit _ _, port, wired.low⟩

/-- `lcd_write`. -/
theorem does_write (data rs : Byte) :
    Does unit (fun lcd => lcdWrite unit lcd data rs) [.write data (decide (rs ≠ 0))] := by
  intro lcd lines past wired
  have ready := wired.setoutput carries
    (fun lines => { lines with rw := false, rs := decide (rs ≠ 0) }) rfl
    ((linesOf_rw_low _).trans (by rw [linesOf_setRs]))
  have high := (ready.setoutput carries (fun lines => { lines with data := data.extractLsb' 4 4 }) rfl
    (linesOf_high _ data)).toggle carries
  have low := (high.setoutput carries (fun lines => { lines with data := data.extractLsb' 0 4 }) rfl
    (linesOf_low _ data)).toggle carries
  have behind := low.setoutput carries (fun lines => { lines with data := 0xF }) rfl
    (linesOf_data_high _)
  simp only [List.append_assoc] at behind
  rw [run_singleton]
  simp only [portStep, List.append_assoc]
  exact behind

/-- `lcd_read`. -/
theorem does_read (rs : Byte) :
    Does unit (fun lcd => (lcdRead unit lcd rs).1) [.read (decide (rs ≠ 0))] := by
  intro lcd lines past wired
  have ready := wired.setoutput carries
    (fun lines => { lines with rw := true, rs := decide (rs ≠ 0) }) rfl
    ((linesOf_rw_high _).trans (by rw [linesOf_setRs]))
  have pulses := (ready.toggle carries).toggle carries
  simp only [List.append_assoc] at pulses
  rw [run_singleton]
  simp only [portStep, List.append_assoc]
  exact pulses

/-- `lcd_waitbusy`. -/
theorem does_waitbusy : Does unit (fun lcd => (lcdWaitbusy unit lcd).1) waitOps := by
  have reads := (does_read carries 0).next (does_read carries 0)
  intro lcd lines past wired
  show Wired unit (lcdWaitbusy unit lcd).1 _ _
  rw [lcdWaitbusy_eq]
  exact reads lcd lines past wired

/-- `lcd_command`. -/
theorem does_command (cmd : Byte) : Does unit (fun lcd => lcdCommand unit lcd cmd) (commandOps cmd) :=
  (does_waitbusy carries).next (does_write carries cmd 0)

/-- `lcd_led`. -/
theorem does_led (onoff : Byte) :
    Does unit (fun lcd => lcdLed unit lcd onoff) [.led (decide (onoff = 0))] := by
  intro lcd lines past wired
  rw [run_singleton]
  show Wired unit (lcdLed unit lcd onoff) _ _
  unfold lcdLed
  by_cases off : onoff = 0
  · rw [if_neg (not_not.mpr off), decide_eq_true off]
    exact wired.setoutput carries (fun lines => { lines with led := true }) rfl (linesOf_led_high _)
  · rw [if_pos off, decide_eq_false off]
    exact wired.setoutput carries (fun lines => { lines with led := false }) rfl (linesOf_led_low _)

/-- `lcd_putc`: the position is neither behind the first line nor behind the second. -/
theorem does_putc (c : Byte) : Does unit (fun lcd => lcdPutc unit lcd c) (callOps (.putc c)) := by
  have newline := (does_waitbusy carries).next (does_command carries (bv lcdDdram + lcdStartLine2))
  have char := ((does_waitbusy carries).next (does_waitbusy carries)).next (does_write carries c 1)
  intro lcd lines past wired
  show Wired unit (lcdPutc unit lcd c) _ _
  unfold lcdPutc lcdNewline callOps
  have position : (lcdWaitbusy unit lcd).2 = 0x11 ∨ (lcdWaitbusy unit lcd).2 = 0x00 := by
    rw [lcdWaitbusy_value]
    split
    · exact .inl rfl
    · exact .inr rfl
  have upper : (lcdWaitbusy unit lcd).2 < lcdStartLine2 := by
    rcases position with read | read <;> rw [read] <;> decide
  have first : (lcdWaitbusy unit lcd).2 ≠ lcdStartLine1 + lcdDispLength := by
    rcases position with read | read <;> rw [read] <;> decide
  have second : (lcdWaitbusy unit lcd).2 ≠ lcdStartLine2 + lcdDispLength := by
    rcases position with read | read <;> rw [read] <;> decide
  dsimp only
  rw [if_pos upper, if_neg first, if_neg second]
  by_cases line : c = 0x0A
  · rw [if_pos line, if_pos line]
    exact newline lcd lines past wired
  · rw [if_neg line, if_neg line]
    exact char lcd lines past wired

/-- The first part of `lcd_init`: whatever the driver takes for the levels is forgotten. -/
theorem Output.reset {lcd : Lcd} {past : List Lines} (output : Output unit lcd past) (lines : Lines) :
    Wired unit (lcdReset unit lcd) (portStep lines .reset).1 (past ++ (portStep lines .reset).2) := by
  have forgotten : Output unit { lcd with pcf8574 := pcf8574Init lcd.pcf8574 } past :=
    ⟨output.idle, output.outputs⟩
  have dark := forgotten.setoutput carries
    (by decide : linesOf 0 = ⟨0, false, false, false, false⟩) rfl
  have eight := dark.toOutput.setoutput carries
    (by decide : linesOf (0 ||| bv lcdData1Pin ||| bv lcdData0Pin) =
      ⟨0x3, false, false, false, false⟩) rfl
  have pulses := ((eight.toggle carries).toggle carries).toggle carries
  have four := (pulses.toOutput.setoutput carries
    (by decide : linesOf ((0 ||| bv lcdData1Pin ||| bv lcdData0Pin) &&& ~~~(bv lcdData0Pin)) =
      ⟨0x2, false, false, false, false⟩) rfl).toggle carries
  simp only [List.append_assoc] at four
  simp only [portStep, List.append_assoc]
  exact four

/-- The second part of `lcd_init`. -/
theorem does_settings (dispAttr : Byte) :
    Does unit (fun lcd => lcdSettings unit lcd dispAttr) (settingOps dispAttr) :=
  ((((does_command carries lcdFunctionDefault).next (does_command carries lcdDispOff)).next
    (does_command carries (bv lcdClr))).next (does_command carries lcdModeDefault)).next
    (does_command carries dispAttr)

/-- **One call.** -/
theorem does_call (call : LcdCall) : Does unit (fun lcd => lcdCall unit lcd call) (callOps call) := by
  cases call with
  | command cmd => exact does_command carries cmd
  | data value => exact (does_waitbusy carries).next (does_write carries value 1)
  | gotoxy x y =>
    have goto : (fun lcd => lcdCall unit lcd (.gotoxy x y)) =
        fun lcd => lcdCommand unit lcd (gotoInstruction x y) := by
      funext lcd
      show lcdGotoxy unit lcd x y = _
      unfold lcdGotoxy gotoInstruction
      split <;> rfl
    rw [goto]
    exact does_command carries (gotoInstruction x y)
  | getxy => exact does_waitbusy carries
  | clrscr => exact does_command carries (bv lcdClr)
  | led onoff => exact does_led carries onoff
  | home => exact does_command carries (bv lcdHomeBit)
  | putc c => exact does_putc carries c

/-- Calls do the operations of the calls. -/
theorem does_calls (calls : List LcdCall) :
    Does unit (fun lcd => calls.foldl (lcdCall unit) lcd) (calls.flatMap callOps) := by
  induction calls with
  | nil =>
    intro lcd lines past wired
    simpa using wired
  | cons call rest ih =>
    rw [List.flatMap_cons]
    exact (does_call carries call).next ih

/-- **A session** does the operations of its calls, from any state of the driver in which the bus is
released. -/
theorem Output.session {lcd : Lcd} {past : List Lines} (output : Output unit lcd past) (lines : Lines)
    (dispAttr : Byte) (calls : List LcdCall) :
    Wired unit (lcdSession unit lcd dispAttr calls) (run portStep lines (sessionOps dispAttr calls)).1
      (past ++ (run portStep lines (sessionOps dispAttr calls)).2) := by
  have reached := ((does_settings carries dispAttr).next (does_calls carries calls)) _ _ _
    (output.reset carries lines)
  rw [List.append_assoc] at reached
  exact reached

end Refinement

end HdlcMarquee
