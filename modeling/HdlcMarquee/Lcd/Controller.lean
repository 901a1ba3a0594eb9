/-
**The display, as the driver uses it.**

The controller of the display is not part of the driver; this is what `lcdpcf8574.h` takes it for. With
every fall of E it takes the level of its lines. With eight data lines a level is an instruction, with four
it is half of one; which of the two it is, an instruction says (`controllerStep`). The instructions act on a
memory with two lines of forty characters, of which sixteen each are visible (`execute`).

The four lower data lines are not wired to anything, and read as anything (`lower`).
-/

import HdlcMarquee.Lcd.Port

namespace HdlcMarquee

open Generic

/-! ### The interface -/

/-- A byte for the controller: a character for `rs`, a command otherwise. -/
structure Instruction where
  rs : Bool
  byte : Byte
  deriving DecidableEq, Repr

/-- How many data lines are in use, and the half that was taken last if its byte is not complete. -/
inductive Interface
  | eight
  | four (half : Option (BitVec 4))
  deriving DecidableEq, Repr

/-- A command that sets the number of data lines: to eight. -/
def Instruction.SetsEight (instruction : Instruction) : Prop :=
  instruction.rs = false ∧ instruction.byte.extractLsb' 4 4 = 0x3

instance (instruction : Instruction) : Decidable instruction.SetsEight :=
  inferInstanceAs (Decidable (_ ∧ _))

/-- A command that sets the number of data lines: to four. -/
def Instruction.SetsFour (instruction : Instruction) : Prop :=
  instruction.rs = false ∧ instruction.byte.extractLsb' 4 4 = 0x2

instance (instruction : Instruction) : Decidable instruction.SetsFour :=
  inferInstanceAs (Decidable (_ ∧ _))

/-- The interface behind an instruction. -/
def Interface.behind (interface : Interface) (instruction : Instruction) : Interface :=
  if instruction.SetsEight then .eight
  else if instruction.SetsFour then .four none
  else interface

/-- One level that the controller takes, and the instruction that it completes. -/
def controllerStep (lower : BitVec 4) (interface : Interface) (lines : Lines) :
    Interface × List Instruction :=
  match lines.rw, interface with
  | true, .eight => (.eight, [])
  | true, .four none => (.four (some lines.data), [])
  | true, .four (some _) => (.four none, [])
  | false, .eight =>
    let instruction : Instruction := ⟨lines.rs, lines.data ++ lower⟩
    (Interface.eight.behind instruction, [instruction])
  | false, .four none => (.four (some lines.data), [])
  | false, .four (some high) =>
    let instruction : Instruction := ⟨lines.rs, high ++ lines.data⟩
    ((Interface.four none).behind instruction, [instruction])

/-- The display behind its lines: what it takes goes to the controller. -/
def displayStep (lower : BitVec 4) : Lines × Interface → Lines → (Lines × Interface) × List Instruction :=
  piped (sampleStep Lines.e) (controllerStep lower)

/-! ### The screen -/

/-- The memory of the display, and where the next character goes. -/
structure Screen where
  ddram : Nat → Byte
  cgram : Nat → Byte
  address : Nat
  /-- The next character goes into a pattern of the character generator. -/
  inCgram : Bool
  increment : Bool
  /-- The visible part moves with every character. -/
  shifts : Bool
  shift : Nat
  displayOn : Bool

/-- The address behind one in the two lines. -/
def nextAddress (address : Nat) : Nat :=
  if address = 0x27 then 0x40 else if address = 0x67 then 0x00 else address + 1

/-- The address before one in the two lines. -/
def previousAddress (address : Nat) : Nat :=
  if address = 0x40 then 0x27 else if address = 0x00 then 0x67 else address - 1

/-- The cursor moved by one character. -/
def Screen.moveCursor (screen : Screen) (right : Bool) : Screen :=
  if screen.inCgram then
    { screen with address := if right then (screen.address + 1) % 64 else (screen.address + 63) % 64 }
  else
    { screen with
      address := if right then nextAddress screen.address else previousAddress screen.address }

/-- The visible part moved by one character. -/
def Screen.moveDisplay (screen : Screen) (right : Bool) : Screen :=
  { screen with shift := if right then (screen.shift + 39) % 40 else (screen.shift + 1) % 40 }

/-- A character. -/
def Screen.putChar (screen : Screen) (c : Byte) : Screen :=
  let written :=
    if screen.inCgram then { screen with cgram := Function.update screen.cgram screen.address c }
    else { screen with ddram := Function.update screen.ddram screen.address c }
  let moved := written.moveCursor screen.increment
  if screen.shifts && !screen.inCgram then moved.moveDisplay (!screen.increment) else moved

/-- A command: the highest bit of the byte says which one. -/
def Screen.command (screen : Screen) (cmd : Byte) : Screen :=
  if cmd.getLsbD lcdDdram then { screen with address := (cmd.setWidth 7).toNat, inCgram := false }
  else if cmd.getLsbD 6 then { screen with address := (cmd.setWidth 6).toNat, inCgram := true }
  -- the number of data lines: of no effect on what is shown
  else if cmd.getLsbD 5 then screen
  else if cmd.getLsbD 4 then
    if cmd.getLsbD 3 then screen.moveDisplay (cmd.getLsbD 2) else screen.moveCursor (cmd.getLsbD 2)
  else if cmd.getLsbD 3 then { screen with displayOn := cmd.getLsbD 2 }
  else if cmd.getLsbD 2 then { screen with increment := cmd.getLsbD 1, shifts := cmd.getLsbD 0 }
  else if cmd.getLsbD lcdHomeBit then { screen with address := 0, inCgram := false, shift := 0 }
  else if cmd.getLsbD lcdClr then
    { screen with
      ddram := fun _ => 0x20
      address := 0
      inCgram := false
      increment := true
      shift := 0 }
  else screen

/-- One instruction. -/
def execute (screen : Screen) (instruction : Instruction) : Screen :=
  if instruction.rs then screen.putChar instruction.byte else screen.command instruction.byte

/-- What is shown in a row. -/
def Screen.visible (screen : Screen) (start column : Nat) : Byte :=
  screen.ddram (start + (screen.shift + column) % 40)

end HdlcMarquee
