/-
**The display driver (`MyLCD/MyLCD/lcdpcf8574.cpp`).**

The display is wired to the pins of the expander. The driver keeps the levels that it wants in `dataport`
and sends them whenever they change; the pin E alone is switched through the expander.

The driver never reads the bus: `lcd_read` reads back the output that the driver itself has set. So the
busy flag is never set (`lcdRead_busy`), which is also why the loop of `lcd_waitbusy` ends.
-/

import HdlcMarquee.Lcd.Expander

namespace HdlcMarquee

open Generic

/-! ### Pins and instructions (`lcdpcf8574.h`) -/

/-- `LCD_PCF8574_DEVICEID`. -/
def lcdPcf8574Deviceid : Byte := 0

/-- `LCD_DATA0_PIN`. -/
def lcdData0Pin : Nat := 4

/-- `LCD_DATA1_PIN`. -/
def lcdData1Pin : Nat := 5

/-- `LCD_DATA2_PIN`. -/
def lcdData2Pin : Nat := 6

/-- `LCD_DATA3_PIN`. -/
def lcdData3Pin : Nat := 7

/-- `LCD_RS_PIN`. -/
def lcdRsPin : Nat := 0

/-- `LCD_RW_PIN`. -/
def lcdRwPin : Nat := 1

/-- `LCD_E_PIN`. -/
def lcdEPin : Nat := 2

/-- `LCD_LED_PIN`. -/
def lcdLedPin : Nat := 3

/-- `LCD_START_LINE1`. -/
def lcdStartLine1 : Byte := 0x00

/-- `LCD_START_LINE2`. -/
def lcdStartLine2 : Byte := 0x40

/-- `LCD_DISP_LENGTH`. -/
def lcdDispLength : Byte := 16

/-- `LCD_BUSY`. -/
def lcdBusy : Nat := 7

/-- `LCD_DDRAM`. -/
def lcdDdram : Nat := 7

/-- `LCD_CLR`. -/
def lcdClr : Nat := 0

/-- `LCD_HOME`. -/
def lcdHomeBit : Nat := 1

/-- `LCD_FUNCTION_DEFAULT`: four data lines, two rows. -/
def lcdFunctionDefault : Byte := 0x28

/-- `LCD_DISP_OFF`. -/
def lcdDispOff : Byte := 0x08

/-- `LCD_DISP_ON_BLINK`. -/
def lcdDispOnBlink : Byte := 0x0D

/-- `LCD_MODE_DEFAULT`. -/
def lcdModeDefault : Byte := bv 2 ||| bv 1

/-! ### The driver -/

/-- `dataport`, and the expander. -/
structure Lcd where
  dataport : Byte
  pcf8574 : Pcf8574

section Functions

variable (unit : TwiUnit)

/-- A change of `dataport` that is sent. -/
def Lcd.setoutput (lcd : Lcd) (dataport : Byte) : Lcd :=
  ⟨dataport, (pcf8574Setoutput unit lcd.pcf8574 lcdPcf8574Deviceid dataport).1⟩

/-- The pin E switched on. -/
def Lcd.eHigh (lcd : Lcd) : Lcd :=
  { lcd with
    pcf8574 := (pcf8574Setoutputpinhigh unit lcd.pcf8574 lcdPcf8574Deviceid
      (BitVec.ofNat 8 lcdEPin)).1 }

/-- The pin E switched off. -/
def Lcd.eLow (lcd : Lcd) : Lcd :=
  { lcd with
    pcf8574 := (pcf8574Setoutputpinlow unit lcd.pcf8574 lcdPcf8574Deviceid
      (BitVec.ofNat 8 lcdEPin)).1 }

/-- `toggle_e`. -/
def toggleE (lcd : Lcd) : Lcd := (lcd.eHigh unit).eLow unit

/-- The data pins cleared. -/
def clearData (dataport : Byte) : Byte :=
  let dataport := dataport &&& ~~~(bv lcdData3Pin)
  let dataport := dataport &&& ~~~(bv lcdData2Pin)
  let dataport := dataport &&& ~~~(bv lcdData1Pin)
  dataport &&& ~~~(bv lcdData0Pin)

/-- The data pins of the bits of `data` under the four masks switched on. -/
def setData (dataport data mask3 mask2 mask1 mask0 : Byte) : Byte :=
  let dataport := if data &&& mask3 ≠ 0 then dataport ||| bv lcdData3Pin else dataport
  let dataport := if data &&& mask2 ≠ 0 then dataport ||| bv lcdData2Pin else dataport
  let dataport := if data &&& mask1 ≠ 0 then dataport ||| bv lcdData1Pin else dataport
  if data &&& mask0 ≠ 0 then dataport ||| bv lcdData0Pin else dataport

/-- The pin RS as an argument `rs` asks. -/
def setRs (dataport rs : Byte) : Byte :=
  if rs ≠ 0 then dataport ||| bv lcdRsPin else dataport &&& ~~~(bv lcdRsPin)

/-- `lcd_write`. -/
def lcdWrite (lcd : Lcd) (data rs : Byte) : Lcd :=
  let lcd := lcd.setoutput unit (setRs lcd.dataport rs &&& ~~~(bv lcdRwPin))
  -- the high half
  let lcd := lcd.setoutput unit (setData (clearData lcd.dataport) data 0x80 0x40 0x20 0x10)
  let lcd := toggleE unit lcd
  -- the low half
  let lcd := lcd.setoutput unit (setData (clearData lcd.dataport) data 0x08 0x04 0x02 0x01)
  let lcd := toggleE unit lcd
  lcd.setoutput unit
    (lcd.dataport ||| bv lcdData0Pin ||| bv lcdData1Pin ||| bv lcdData2Pin ||| bv lcdData3Pin)

/-- `lcd_read`: what is read is the output pin, and the other three data pins are not looked at. -/
def lcdRead (lcd : Lcd) (rs : Byte) : Lcd × Byte :=
  let lcd := lcd.setoutput unit (setRs lcd.dataport rs ||| bv lcdRwPin)
  let lcd := lcd.eHigh unit
  let data := pcf8574Getoutputpin lcd.pcf8574 lcdPcf8574Deviceid (BitVec.ofNat 8 lcdData0Pin) <<< 4
  let lcd := lcd.eLow unit
  let lcd := lcd.eHigh unit
  let data := data |||
    (pcf8574Getoutputpin lcd.pcf8574 lcdPcf8574Deviceid (BitVec.ofNat 8 lcdData0Pin) &&& 0x0F)
  let lcd := lcd.eLow unit
  (lcd, data)

theorem getoutputpin_data0 (pcf : Pcf8574) :
    pcf8574Getoutputpin pcf lcdPcf8574Deviceid (BitVec.ofNat 8 lcdData0Pin) =
      if (pcf.pcf8574Pinstatus 0).getLsbD lcdData0Pin then 1 else 0 := by
  have pin : ∀ levels : Byte, levels.sshiftRight 4 &&& 0b00000001 =
      if levels.getLsbD 4 then 1 else 0 := by decide
  exact pin (pcf.pcf8574Pinstatus 0)

/-- **What is read is never the busy flag.** -/
theorem lcdRead_busy (lcd : Lcd) (rs : Byte) : (lcdRead unit lcd rs).2 &&& bv lcdBusy = 0 := by
  unfold lcdRead
  dsimp only
  rw [getoutputpin_data0, getoutputpin_data0]
  split <;> split <;> decide

/-- `lcd_waitbusy`. -/
def lcdWaitbusy (lcd : Lcd) : Lcd × Byte :=
  if (lcdRead unit lcd 0).2 &&& bv lcdBusy ≠ 0 then lcdWaitbusy (lcdRead unit lcd 0).1
  else lcdRead unit (lcdRead unit lcd 0).1 0
termination_by 0
decreasing_by exact absurd (lcdRead_busy unit lcd 0) (by assumption)

/-- `lcd_command`. -/
def lcdCommand (lcd : Lcd) (cmd : Byte) : Lcd := lcdWrite unit (lcdWaitbusy unit lcd).1 cmd 0

/-- `lcd_data`. -/
def lcdData (lcd : Lcd) (data : Byte) : Lcd := lcdWrite unit (lcdWaitbusy unit lcd).1 data 1

/-- `lcd_newline`. -/
def lcdNewline (lcd : Lcd) (pos : Byte) : Lcd :=
  let addressCounter := if pos < lcdStartLine2 then lcdStartLine2 else lcdStartLine1
  lcdCommand unit lcd (bv lcdDdram + addressCounter)

/-- `lcd_gotoxy`. -/
def lcdGotoxy (lcd : Lcd) (x y : Byte) : Lcd :=
  if y = 0 then lcdCommand unit lcd (bv lcdDdram + lcdStartLine1 + x)
  else lcdCommand unit lcd (bv lcdDdram + lcdStartLine2 + x)

/-- `lcd_getxy`. -/
def lcdGetxy (lcd : Lcd) : Lcd × Byte := lcdWaitbusy unit lcd

/-- `lcd_clrscr`. -/
def lcdClrscr (lcd : Lcd) : Lcd := lcdCommand unit lcd (bv lcdClr)

/-- `lcd_led`. -/
def lcdLed (lcd : Lcd) (onoff : Byte) : Lcd :=
  if onoff ≠ 0 then lcd.setoutput unit (lcd.dataport &&& ~~~(bv lcdLedPin))
  else lcd.setoutput unit (lcd.dataport ||| bv lcdLedPin)

/-- `lcd_home`. -/
def lcdHome (lcd : Lcd) : Lcd := lcdCommand unit lcd (bv lcdHomeBit)

/-- `lcd_putc`. -/
def lcdPutc (lcd : Lcd) (c : Byte) : Lcd :=
  let (lcd, pos) := lcdWaitbusy unit lcd
  if c = 0x0A then lcdNewline unit lcd pos
  else
    let lcd :=
      if pos = lcdStartLine1 + lcdDispLength then lcdWrite unit lcd (bv lcdDdram + lcdStartLine2) 0
      else if pos = lcdStartLine2 + lcdDispLength then
        lcdWrite unit lcd (bv lcdDdram + lcdStartLine1) 0
      else lcd
    lcdWrite unit (lcdWaitbusy unit lcd).1 c 1

/-- `lcd_init` up to the change to four data lines. -/
def lcdReset (lcd : Lcd) : Lcd :=
  let lcd := { lcd with pcf8574 := pcf8574Init lcd.pcf8574 }
  let lcd := lcd.setoutput unit 0
  let lcd := lcd.setoutput unit (lcd.dataport ||| bv lcdData1Pin ||| bv lcdData0Pin)
  let lcd := toggleE unit lcd
  let lcd := toggleE unit lcd
  let lcd := toggleE unit lcd
  let lcd := lcd.setoutput unit (lcd.dataport &&& ~~~(bv lcdData0Pin))
  toggleE unit lcd

/-- The commands at the end of `lcd_init`. -/
def lcdSettings (lcd : Lcd) (dispAttr : Byte) : Lcd :=
  let lcd := lcdCommand unit lcd lcdFunctionDefault
  let lcd := lcdCommand unit lcd lcdDispOff
  let lcd := lcdClrscr unit lcd
  let lcd := lcdCommand unit lcd lcdModeDefault
  lcdCommand unit lcd dispAttr

/-- `lcd_init`. -/
def lcdInit (lcd : Lcd) (dispAttr : Byte) : Lcd := lcdSettings unit (lcdReset unit lcd) dispAttr

/-- **The busy flag is waited for in no state.** -/
theorem lcdWaitbusy_eq (lcd : Lcd) :
    lcdWaitbusy unit lcd = lcdRead unit (lcdRead unit lcd 0).1 0 := by
  rw [lcdWaitbusy, if_neg (not_not.mpr (lcdRead_busy unit lcd 0))]

end Functions

end HdlcMarquee
