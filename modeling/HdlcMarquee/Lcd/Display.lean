/-
**What the display does in a run of calls.**

For a unit that reports every start condition and every octet as acknowledged:

* `display_session`: `lcd_init` brings the interface into a known state from whatever state it is in, and
  from then on the display executes the instructions of the calls and no others;
* `session_edges`: the other lines are steady around every pulse on E.
-/

import HdlcMarquee.Lcd.Controller

namespace HdlcMarquee

open Generic

/-! ### Pulses -/

/-- All lines but E. -/
def Lines.value (lines : Lines) : BitVec 4 × Bool × Bool × Bool :=
  (lines.data, lines.led, lines.rw, lines.rs)

theorem portStep_steady (lines : Lines) (op : PortOp) (low : lines.e = false) :
    Steady Lines.e Lines.value (lines :: (portStep lines op).2) ∧
      (lines :: (portStep lines op).2).getLast? = some (portStep lines op).1 ∧
      (portStep lines op).1.e = false := by
  cases op with
  | write data rs => simp [Steady, portStep, Lines.pulse, Lines.value, low]
  | read rs => simp [Steady, portStep, Lines.pulse, Lines.value, low]
  | led level => simp [Steady, portStep, low]
  | reset => simp [Steady, portStep, Lines.pulse, Lines.value, low]

/-! ### Instructions -/

/-- The instructions of an operation on four data lines. -/
def PortOp.instructions : PortOp → List Instruction
  | .write data rs => [⟨rs, data⟩]
  | _ => []

/-- An operation that leaves four data lines. -/
def PortOp.Keeps (op : PortOp) : Prop :=
  op ≠ .reset ∧ ∀ instruction ∈ op.instructions, ¬ instruction.SetsEight

theorem append_halves : ∀ data : Byte, data.extractLsb' 4 4 ++ data.extractLsb' 0 4 = data := by
  decide

/-- **An operation on four data lines.** -/
theorem display_op (lower : BitVec 4) {lines : Lines} (low : lines.e = false) {op : PortOp}
    (keeps : op.Keeps) :
    run (displayStep lower) (lines, .four none) (portStep lines op).2 =
      (((portStep lines op).1, .four none), op.instructions) := by
  cases op with
  | write data rs =>
    have halves := append_halves data
    have width : ¬ (⟨rs, data⟩ : Instruction).SetsEight := keeps.2 _ (List.mem_singleton_self _)
    simp [run_cons, displayStep, piped, sampleStep, controllerStep, portStep, Lines.pulse, low, halves,
      Interface.behind, width, PortOp.instructions]
  | read rs =>
    simp [run_cons, displayStep, piped, sampleStep, controllerStep, portStep, Lines.pulse, low,
      PortOp.instructions]
  | led level =>
    simp [run_cons, displayStep, piped, sampleStep, portStep, low, PortOp.instructions]
  | reset => exact absurd rfl keeps.1

/-- **Operations on four data lines.** -/
theorem display_ops (lower : BitVec 4) {lines : Lines} (low : lines.e = false) {ops : List PortOp}
    (keeps : ∀ op ∈ ops, op.Keeps) :
    run (displayStep lower) (lines, .four none) (run portStep lines ops).2 =
      (((run portStep lines ops).1, .four none), ops.flatMap PortOp.instructions) := by
  induction ops generalizing lines with
  | nil => rfl
  | cons op rest ih =>
    obtain ⟨first, later⟩ := List.forall_mem_cons.mp keeps
    rw [run_cons, run_append, display_op lower low first,
      ih (portStep_steady lines op low).2.2 later, List.flatMap_cons]

/-- The interface behind an instruction on eight data lines. -/
theorem eight_behind (data lower : BitVec 4) :
    Interface.eight.behind ⟨false, data ++ lower⟩ =
      if data = 0x3 then .eight else if data = 0x2 then .four none else .eight := by
  have high : (data ++ lower).extractLsb' 4 4 = data := by
    revert data lower
    decide
  simp [Interface.behind, Instruction.SetsEight, Instruction.SetsFour, high]

/-- The interface behind an instruction on four data lines that is not `0x3_`. -/
theorem four_behind {instruction : Instruction} (other : ¬ instruction.SetsEight) :
    (Interface.four none).behind instruction = .four none := by
  rw [Interface.behind, if_neg other]
  split <;> rfl

theorem controller_reset_eight (lower : BitVec 4) {eight four : Lines}
    (eightLines : eight.rw = false ∧ eight.rs = false ∧ eight.data = 0x3)
    (fourLines : four.rw = false ∧ four.rs = false ∧ four.data = 0x2) :
    (run (controllerStep lower) .eight [eight, four]).1 = .four none ∧
      (controllerStep lower .eight eight).1 = .eight := by
  obtain ⟨write, command, three⟩ := eightLines
  obtain ⟨write', command', two⟩ := fourLines
  simp [run_cons, controllerStep, write, command, three, write', command', two, eight_behind]

/-- Three times `0x3` and once `0x2` lead to four data lines: at the latest the second and the third
`0x3`, of which the first may have completed anything, lead to eight. -/
theorem controller_reset (lower : BitVec 4) (interface : Interface) {eight four : Lines}
    (eightLines : eight.rw = false ∧ eight.rs = false ∧ eight.data = 0x3)
    (fourLines : four.rw = false ∧ four.rs = false ∧ four.data = 0x2) :
    (run (controllerStep lower) interface [eight, eight, eight, four]).1 = .four none := by
  obtain ⟨settles, stays⟩ := controller_reset_eight lower eightLines fourLines
  obtain ⟨write, command, three⟩ := eightLines
  have twice : (run (controllerStep lower) (.four none) [eight, eight]).1 = .eight := by
    simp [run_cons, controllerStep, write, command, three, Interface.behind, Instruction.SetsEight]
  cases interface with
  | eight =>
    show (run (controllerStep lower) (controllerStep lower (controllerStep lower .eight eight).1
      eight).1 [eight, four]).1 = _
    rw [stays, stays, settles]
  | four half =>
    cases half with
    | none =>
      show (run (controllerStep lower) (run (controllerStep lower) (.four none) [eight, eight]).1
        [eight, four]).1 = _
      rw [twice, settles]
    | some high =>
      have first : (controllerStep lower (.four (some high)) eight).1 = .eight ∨
          (controllerStep lower (.four (some high)) eight).1 = .four none := by
        simp only [controllerStep, write]
        by_cases sets : (⟨eight.rs, high ++ eight.data⟩ : Instruction).SetsEight
        · exact .inl (if_pos sets)
        · exact .inr (four_behind sets)
      show (run (controllerStep lower) (controllerStep lower (.four (some high)) eight).1
        [eight, eight, four]).1 = _
      rcases first with behind | behind
      · rw [behind]
        show (run (controllerStep lower) (controllerStep lower .eight eight).1 [eight, four]).1 = _
        rw [stays, settles]
      · rw [behind]
        show (run (controllerStep lower) (run (controllerStep lower) (.four none) [eight, eight]).1
          [four]).1 = _
        rw [twice, ← stays]
        exact settles

/-- **The reset** leads to four data lines, from any interface and any level of the lines. -/
theorem display_reset (lower : BitVec 4) (level lines : Lines) (interface : Interface) :
    ∃ noise, run (displayStep lower) (level, interface) (portStep lines .reset).2 =
      (((portStep lines .reset).1, .four none), noise) := by
  have taken : run (sampleStep Lines.e) level (portStep lines .reset).2 =
      ((portStep lines .reset).1, pending Lines.e level ++
        [⟨0x3, false, true, false, false⟩, ⟨0x3, false, true, false, false⟩,
          ⟨0x3, false, true, false, false⟩, ⟨0x2, false, true, false, false⟩]) := by
    simp [run_cons, sampleStep, portStep, Lines.pulse, pending]
  refine ⟨_, Prod.ext ?_ rfl⟩
  rw [displayStep, run_piped, taken]
  refine Prod.ext rfl ?_
  show (run (controllerStep lower) interface (_ ++ _)).1 = .four none
  rw [run_append, controller_reset lower _ ⟨rfl, rfl, rfl⟩ ⟨rfl, rfl, rfl⟩]

/-! ### Runs of calls -/

/-- The instructions at the end of `lcd_init`. -/
def settingInstructions (dispAttr : Byte) : List Instruction :=
  [⟨false, lcdFunctionDefault⟩, ⟨false, lcdDispOff⟩, ⟨false, bv lcdClr⟩, ⟨false, lcdModeDefault⟩,
    ⟨false, dispAttr⟩]

/-- The instructions of a call. -/
def LcdCall.instructions : LcdCall → List Instruction
  | .command cmd => [⟨false, cmd⟩]
  | .data value => [⟨true, value⟩]
  | .gotoxy x y => [⟨false, gotoInstruction x y⟩]
  | .getxy => []
  | .clrscr => [⟨false, bv lcdClr⟩]
  | .led _ => []
  | .home => [⟨false, bv lcdHomeBit⟩]
  | .putc c => [if c = 0x0A then ⟨false, bv lcdDdram + lcdStartLine2⟩ else ⟨true, c⟩]

theorem callOps_instructions (call : LcdCall) :
    (callOps call).flatMap PortOp.instructions = call.instructions := by
  cases call with
  | putc c =>
    simp only [callOps, LcdCall.instructions]
    split <;> rfl
  | _ => rfl

theorem callOps_reset (call : LcdCall) : PortOp.reset ∉ callOps call := by
  cases call with
  | putc c =>
    simp only [callOps]
    split <;> simp [waitOps, commandOps]
  | _ => simp [callOps, waitOps, commandOps]

/-- Operations without a reset and without an instruction for eight data lines. -/
theorem ops_keep {ops : List PortOp} (quiet : .reset ∉ ops)
    (keeps : ∀ instruction ∈ ops.flatMap PortOp.instructions, ¬ instruction.SetsEight) :
    ∀ op ∈ ops, op.Keeps := by
  intro op member
  refine ⟨fun reset => quiet (reset ▸ member), fun instruction inside => keeps instruction ?_⟩
  exact List.mem_flatMap.mpr ⟨op, member, inside⟩

section Runs

variable {unit : TwiUnit}

/-- What has been output to the lines of the display. -/
def signalOf (unit : TwiUnit) (lcd : Lcd) : List Lines :=
  (deviceRun unit lcd.pcf8574.bus).2.map linesOf

/-- **What a session does to the display**, as long as every transfer to the expander is acknowledged:
whatever state its interface is in, and whatever the levels of its lines are, it executes the instructions
at the end of `lcd_init` and those of the calls, and behind `lcd_init` no others. -/
theorem display_session (carries : ∀ bus data, unit.Carries bus deviceWrite data) {lcd : Lcd}
    (released : (deviceRun unit lcd.pcf8574.bus).1 = .idle) (dispAttr : Byte) (calls : List LcdCall)
    (keeps : ∀ instruction ∈ settingInstructions dispAttr ++ calls.flatMap LcdCall.instructions,
      ¬ instruction.SetsEight)
    (lower : BitVec 4) (level : Lines) (interface : Interface) :
    ∃ signal noise, signalOf unit (lcdSession unit lcd dispAttr calls) = signalOf unit lcd ++ signal ∧
      run (displayStep lower) (level, interface) signal =
        ((linesOf (lcdSession unit lcd dispAttr calls).dataport, .four none),
          noise ++ (settingInstructions dispAttr ++ calls.flatMap LcdCall.instructions)) := by
  have wired := Output.session carries ⟨released, rfl⟩ level dispAttr calls
  obtain ⟨noise, reset⟩ := display_reset lower level level interface
  have instructions : (settingOps dispAttr ++ calls.flatMap callOps).flatMap PortOp.instructions =
      settingInstructions dispAttr ++ calls.flatMap LcdCall.instructions := by
    rw [List.flatMap_append, List.flatMap_assoc]
    simp only [callOps_instructions]
    rfl
  have quiet : PortOp.reset ∉ settingOps dispAttr ++ calls.flatMap callOps := by
    simp [settingOps, commandOps, waitOps, callOps_reset]
  have low : (portStep level .reset).1.e = false := rfl
  have behind := display_ops lower low (ops_keep quiet (by rw [instructions]; exact keeps))
  refine ⟨_, noise, wired.outputs, ?_⟩
  rw [sessionOps, run_cons, run_append, reset, behind, instructions, wired.port]
  rfl

/-- A line feed and a character behind `lcd_init`, for a display that waits for half a byte. -/
theorem display_session_half :
    let unit := acknowledgedUnit
    let lcd : Lcd := ⟨0, ⟨fun _ => 0, []⟩⟩
    ∃ signal noise, signalOf unit (lcdSession unit lcd lcdDispOnBlink [.putc 0x0A, .putc 0x41]) =
        signalOf unit lcd ++ signal ∧
      run (displayStep 0xF) (⟨0, false, false, false, false⟩, .four (some 0x5)) signal =
        ((linesOf (lcdSession unit lcd lcdDispOnBlink [.putc 0x0A, .putc 0x41]).dataport, .four none),
          noise ++ (settingInstructions lcdDispOnBlink ++
            [LcdCall.putc 0x0A, .putc 0x41].flatMap LcdCall.instructions)) :=
  display_session (fun bus => acknowledgedUnit_carries bus (by decide)) rfl lcdDispOnBlink
    [.putc 0x0A, .putc 0x41] (by decide) 0xF ⟨0, false, false, false, false⟩ (.four (some 0x5))

/-- **The pulses of a session** whose transfers are all acknowledged: if E is low before, the other lines
are steady on the way into every pulse on E, within it and out of it, so a display that takes them when E
rises takes the same as one that takes them when it falls. -/
theorem session_edges (carries : ∀ bus data, unit.Carries bus deviceWrite data) {lcd : Lcd}
    (released : (deviceRun unit lcd.pcf8574.bus).1 = .idle) (dispAttr : Byte) (calls : List LcdCall) :
    ∃ signal, signalOf unit (lcdSession unit lcd dispAttr calls) = signalOf unit lcd ++ signal ∧
      ∀ level : Lines, level.e = false →
        Steady Lines.e Lines.value (level :: signal) ∧
          (run (sampleStep Lines.e) level signal).2.map Lines.value =
            (run (riseStep Lines.e) level signal).2.map Lines.value := by
  have dark : Lines := ⟨0, false, false, false, false⟩
  have wired := Output.session carries ⟨released, rfl⟩ dark dispAttr calls
  refine ⟨_, wired.outputs, fun level low => ?_⟩
  obtain ⟨steady, ends, reached⟩ := steady_run portStep_steady (sessionOps dispAttr calls) low
  -- the reset does not depend on the level before it
  have same : (run portStep level (sessionOps dispAttr calls)).2 =
      (run portStep dark (sessionOps dispAttr calls)).2 := rfl
  rw [same] at steady ends
  have last := (sampled_last Lines.e level _).symm.trans ends
  exact ⟨steady, sampled_eq steady low (by rw [Option.some_inj.mp last, reached])⟩

theorem session_edges_first :
    let unit := acknowledgedUnit
    let lcd : Lcd := ⟨0, ⟨fun _ => 0, []⟩⟩
    ∃ signal, signalOf unit (lcdSession unit lcd lcdDispOnBlink [.led 1, .data 0x41]) =
        signalOf unit lcd ++ signal ∧
      ∀ level : Lines, level.e = false →
        Steady Lines.e Lines.value (level :: signal) ∧
          (run (sampleStep Lines.e) level signal).2.map Lines.value =
            (run (riseStep Lines.e) level signal).2.map Lines.value :=
  session_edges (fun bus => acknowledgedUnit_carries bus (by decide)) rfl lcdDispOnBlink
    [.led 1, .data 0x41]

end Runs

/-! ### The position -/

/-- All data lines are on, as the driver leaves them behind a byte. -/
def Lcd.Released (lcd : Lcd) : Prop := (linesOf lcd.dataport).data = 0xF

section Position

variable (unit : TwiUnit)

theorem lcdWrite_released (lcd : Lcd) (data rs : Byte) : (lcdWrite unit lcd data rs).Released := by
  show (linesOf (_ ||| bv lcdData0Pin ||| bv lcdData1Pin ||| bv lcdData2Pin |||
    bv lcdData3Pin)).data = 0xF
  rw [linesOf_data_high]

theorem lcdRead_released {lcd : Lcd} (high : lcd.Released) (rs : Byte) :
    (lcdRead unit lcd rs).1.Released := by
  show (linesOf (setRs lcd.dataport rs ||| bv lcdRwPin)).data = 0xF
  rw [linesOf_rw_high, linesOf_setRs]
  exact high

theorem lcdLed_released {lcd : Lcd} (high : lcd.Released) (onoff : Byte) :
    (lcdLed unit lcd onoff).Released := by
  unfold lcdLed
  split
  · show (linesOf (lcd.dataport &&& ~~~(bv lcdLedPin))).data = 0xF
    rw [linesOf_led_low]
    exact high
  · show (linesOf (lcd.dataport ||| bv lcdLedPin)).data = 0xF
    rw [linesOf_led_high]
    exact high

/-- A call leaves the data lines on. -/
theorem lcdCall_released {lcd : Lcd} (high : lcd.Released) (call : LcdCall) :
    (lcdCall unit lcd call).Released := by
  cases call with
  | gotoxy x y =>
    show (lcdGotoxy unit lcd x y).Released
    unfold lcdGotoxy
    split <;> exact lcdWrite_released unit _ _ _
  | getxy =>
    show (lcdWaitbusy unit lcd).1.Released
    rw [lcdWaitbusy_eq]
    exact lcdRead_released unit (lcdRead_released unit high 0) 0
  | led onoff => exact lcdLed_released unit high onoff
  | putc c =>
    show (lcdPutc unit lcd c).Released
    unfold lcdPutc
    dsimp only
    split <;> exact lcdWrite_released unit _ _ _
  | _ => exact lcdWrite_released unit _ _ _

/-- **The position that is read in a session** is always 17, the same in both rows and behind neither. -/
theorem session_position (lcd : Lcd) (dispAttr : Byte) (calls : List LcdCall) :
    (lcdGetxy unit (lcdSession unit lcd dispAttr calls)).2 = 0x11 := by
  have released : (lcdSession unit lcd dispAttr calls).Released := by
    unfold lcdSession
    induction calls using List.reverseRecOn with
    | nil => exact lcdWrite_released unit _ _ _
    | append_singleton before call ih =>
      rw [List.foldl_append]
      exact lcdCall_released unit ih call
  unfold Lcd.Released at released
  rw [lcdGetxy, lcdWaitbusy_value, released]
  rfl

end Position

end HdlcMarquee
