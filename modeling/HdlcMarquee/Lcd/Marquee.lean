/-
**What is to be seen of the messages that are shown.**

`marquee_run`: behind `Lcd_inciliation`, whatever the display was doing before, every message that is
printed fills the first row with its window and the second with its numbers, as long as the expander
acknowledges what it is sent. `lcd_puts` draws more than the
row, but what it draws behind the window is covered by the second row or cannot be seen, as long as no more
than forty characters stand from the second half of the array to the next NUL. A cell of the second row that
the numbers do not reach keeps the last character that was drawn there.
-/

import HdlcMarquee.Lcd.Display
import HdlcMarquee.Lcd.Print

namespace HdlcMarquee

open Generic

/-! ### Writing -/

/-- The address of a cell, the cells of both lines counted through. -/
def cellAddress (cell : Nat) : Nat := if cell < 40 then cell else 0x40 + (cell - 40)

theorem nextAddress_cellAddress {cell : Nat} (inside : cell < 80) :
    nextAddress (cellAddress cell) = cellAddress ((cell + 1) % 80) := by
  unfold nextAddress cellAddress
  by_cases last : cell = 79
  · subst last
    rfl
  · rw [Nat.mod_eq_of_lt (by omega)]
    split_ifs <;> omega

theorem cellAddress_inj {cell cell' : Nat} (same : cellAddress cell = cellAddress cell') :
    cell = cell' := by
  unfold cellAddress at same
  split_ifs at same <;> omega

/-- The display as `lcd_init` leaves it: characters go to the next cell, and nothing moves. -/
structure Screen.Ready (screen : Screen) : Prop where
  inDdram : screen.inCgram = false
  increment : screen.increment = true
  still : screen.shifts = false
  home : screen.shift = 0

/-- One character. -/
theorem Screen.Ready.putChar {screen : Screen} (ready : screen.Ready) {cell : Nat} (inside : cell < 80)
    (place : screen.address = cellAddress cell) (c : Byte) :
    (screen.putChar c).Ready ∧ (screen.putChar c).address = cellAddress ((cell + 1) % 80) ∧
      (screen.putChar c).ddram = Function.update screen.ddram (cellAddress cell) c := by
  have next := nextAddress_cellAddress inside
  obtain ⟨inDdram, increment, still, home⟩ := ready
  refine ⟨⟨?_, ?_, ?_, ?_⟩, ?_, ?_⟩ <;>
    simp [Screen.putChar, Screen.moveCursor, inDdram, increment, still, home, place, next]

/-- **Characters one after the other**, at most as many as there are cells. -/
theorem Screen.Ready.putChars {screen : Screen} (ready : screen.Ready) {start : Nat} (inside : start < 80)
    (place : screen.address = cellAddress start) {chars : List Byte} (room : chars.length ≤ 80) :
    (chars.foldl Screen.putChar screen).Ready ∧
      ∀ cell < 80, (chars.foldl Screen.putChar screen).ddram (cellAddress cell) =
        (chars[(cell + 80 - start) % 80]?).getD (screen.ddram (cellAddress cell)) := by
  induction chars generalizing screen start with
  | nil => exact ⟨ready, fun cell _ => rfl⟩
  | cons c rest ih =>
    obtain ⟨ready', place', written⟩ := ready.putChar inside place c
    rw [List.length_cons] at room
    obtain ⟨reached, cells⟩ := ih ready' (Nat.mod_lt _ (by decide)) place' (by omega)
    refine ⟨reached, fun cell bound => ?_⟩
    rw [List.foldl_cons, cells cell bound, written]
    by_cases here : cell = start
    · -- the characters behind this one do not come round to its cell
      have last : (cell + 80 - (start + 1) % 80) % 80 = 79 := by omega
      have first : (cell + 80 - start) % 80 = 0 := by omega
      rw [last, first, List.getElem?_eq_none (by omega), here, Function.update_self]
      rfl
    · have shifted : (cell + 80 - start) % 80 = (cell + 80 - (start + 1) % 80) % 80 + 1 := by omega
      rw [Function.update_of_ne (fun same => here (cellAddress_inj same)), shifted,
        List.getElem?_cons_succ]

/-! ### A message -/

/-- The calls that show a window and what is drawn from the second half of the array on. -/
def printCalls (window text : List Byte) : List LcdCall :=
  .gotoxy 0 0 :: (window ++ text).map .putc ++ .gotoxy 0 1 :: text.map .putc

theorem putc_instructions {chars : List Byte} (plain : (0x0A : Byte) ∉ chars) :
    (chars.map LcdCall.putc).flatMap LcdCall.instructions = chars.map (Instruction.mk true) := by
  induction chars with
  | nil => rfl
  | cons c rest ih =>
    obtain ⟨other, plain⟩ := not_or.mp (fun member => plain (List.mem_cons.mpr member))
    rw [List.map_cons, List.flatMap_cons, ih plain, List.map_cons, LcdCall.instructions,
      if_neg (Ne.symm other)]
    rfl

theorem execute_chars (screen : Screen) (chars : List Byte) :
    (chars.map (Instruction.mk true)).foldl execute screen = chars.foldl Screen.putChar screen := by
  rw [List.foldl_map]
  rfl

/-- The cursor at the start of a row. -/
theorem Screen.Ready.goto {screen : Screen} (ready : screen.Ready) (y : Byte) :
    (execute screen ⟨false, gotoInstruction 0 y⟩).Ready ∧
      (execute screen ⟨false, gotoInstruction 0 y⟩).ddram = screen.ddram ∧
      (execute screen ⟨false, gotoInstruction 0 y⟩).address =
        cellAddress (if y = 0 then 0 else 40) := by
  obtain ⟨-, increment, still, home⟩ := ready
  unfold gotoInstruction
  split
  · exact ⟨⟨rfl, increment, still, home⟩, rfl, rfl⟩
  · exact ⟨⟨rfl, increment, still, home⟩, rfl, rfl⟩

theorem Screen.Ready.visible_first {screen : Screen} (ready : screen.Ready) {column : Nat}
    (inside : column < 16) : screen.visible 0x00 column = screen.ddram (cellAddress column) := by
  rw [Screen.visible, ready.home, cellAddress, if_pos (by omega), Nat.zero_add, Nat.zero_add,
    Nat.mod_eq_of_lt (by omega)]

theorem Screen.Ready.visible_second {screen : Screen} (ready : screen.Ready) {column : Nat}
    (inside : column < 16) :
    screen.visible 0x40 column = screen.ddram (cellAddress (40 + column)) := by
  rw [Screen.visible, ready.home, cellAddress, if_neg (by omega), Nat.zero_add,
    Nat.mod_eq_of_lt (by omega), Nat.add_sub_cancel_left]

/-- **One message**: the window fills the first row; of the second row the cells that the text does not
reach are left as they were. -/
theorem Screen.Ready.print {screen : Screen} (ready : screen.Ready) {window text : List Byte}
    (full : window.length = 16) (room : text.length ≤ 40) (plain : (0x0A : Byte) ∉ window ++ text) :
    let shown := ((printCalls window text).flatMap LcdCall.instructions).foldl execute screen
    shown.Ready ∧ (∀ column < 16, shown.visible 0x00 column = window.getD column 0) ∧
      ∀ column < 16, shown.visible 0x40 column =
        text.getD column (screen.visible 0x40 column) := by
  have plainText : (0x0A : Byte) ∉ text := fun member => plain (List.mem_append_right _ member)
  have instructions : (printCalls window text).flatMap LcdCall.instructions =
      [⟨false, gotoInstruction 0 0⟩] ++ (window ++ text).map (Instruction.mk true) ++
        ([⟨false, gotoInstruction 0 1⟩] ++ text.map (Instruction.mk true)) := by
    rw [printCalls, List.flatMap_append, List.flatMap_cons, List.flatMap_cons,
      putc_instructions plain, putc_instructions plainText]
    rfl
  obtain ⟨ready₁, memory₁, place₁⟩ := ready.goto 0
  have length : (window ++ text).length ≤ 80 := by
    rw [List.length_append]
    omega
  obtain ⟨ready₂, cells₂⟩ := ready₁.putChars (by decide) place₁ length
  obtain ⟨ready₃, memory₃, place₃⟩ := ready₂.goto 1
  obtain ⟨ready₄, cells₄⟩ := ready₃.putChars (by decide) place₃ (by omega : text.length ≤ 80)
  rw [instructions, List.foldl_append, List.foldl_append, List.foldl_append, execute_chars,
    execute_chars]
  refine ⟨ready₄, fun column inside => ?_, fun column inside => ?_⟩
  · have far : text.length ≤ (column + 80 - 40) % 80 := by omega
    have near : (column + 80 - 0) % 80 = column := by omega
    refine (ready₄.visible_first inside).trans ((cells₄ column (by omega)).trans ?_)
    rw [if_neg (by decide), List.getElem?_eq_none far, Option.getD_none, memory₃]
    refine (cells₂ column (by omega)).trans ?_
    rw [if_pos rfl, near, List.getElem?_append_left (by omega), List.getD_eq_getElem?_getD,
      List.getElem?_eq_getElem (by omega)]
    rfl
  · have near : (40 + column + 80 - 40) % 80 = column := by omega
    have place : (40 + column + 80 - 0) % 80 = 40 + column := by omega
    refine (ready₄.visible_second inside).trans ((cells₄ (40 + column) (by omega)).trans ?_)
    rw [if_neg (by decide), near, List.getD_eq_getElem?_getD]
    by_cases reached : column < text.length
    · rw [List.getElem?_eq_getElem reached]
      rfl
    · rw [List.getElem?_eq_none (by omega), Option.getD_none, Option.getD_none, memory₃]
      refine (cells₂ (40 + column) (by omega)).trans ?_
      rw [if_pos rfl, place, List.getElem?_eq_none (by rw [List.length_append]; omega),
        Option.getD_none, memory₁, ready.visible_second inside]

/-! ### The calls of `printLcd` -/

section Drawing

variable (unit : TwiUnit)

/-- `lcd_puts`, within so many passes of its loop. -/
def lcdPutsAt (memory : Nat → Byte) : Nat → Nat → Lcd → Option Lcd
  | 0, _, _ => none
  | fuel + 1, s, lcd =>
    if memory s = 0 then some lcd else lcdPutsAt memory fuel (s + 1) (lcdPutc unit lcd (memory s))

/-- The end of `printLcd`. -/
def drawLcd (memory : Nat → Byte) (fuel : Nat) (lcd : Lcd) : Option Lcd := do
  let lcd := lcdGotoxy unit lcd 0 0
  let lcd ← lcdPutsAt unit memory fuel 0 lcd
  let lcd := lcdGotoxy unit lcd 0 1
  lcdPutsAt unit memory fuel 16 lcd

/-- `Lcd_inciliation`, as far as the display goes. -/
def lcdInciliationDisplay (lcd : Lcd) : Lcd :=
  let lcd := lcdInit unit lcd lcdDispOnBlink
  let lcd := lcdHome unit lcd
  lcdLed unit lcd 0

/-- `lcd_puts` is the calls of `lcd_putc` for the characters up to the NUL. -/
theorem lcdPutsAt_eq (memory : Nat → Byte) (fuel s : Nat) (lcd : Lcd) :
    lcdPutsAt unit memory fuel s lcd =
      (lcdPuts memory fuel s).map fun chars => (chars.map .putc).foldl (lcdCall unit) lcd := by
  induction fuel generalizing s lcd with
  | zero => rfl
  | succ fuel ih =>
    rw [lcdPutsAt, lcdPuts]
    split
    · rfl
    · rw [ih, Option.map_map]
      rfl

/-- The end of `printLcd` in calls of the driver. -/
theorem drawLcd_eq {memory : Nat → Byte} {fuel : Nat} {window text : List Byte}
    (first : lcdPuts memory fuel 0 = some (window ++ text))
    (second : lcdPuts memory fuel 16 = some text) (lcd : Lcd) :
    drawLcd unit memory fuel lcd = some ((printCalls window text).foldl (lcdCall unit) lcd) := by
  unfold drawLcd
  dsimp only
  rw [lcdPutsAt_eq, first, Option.map_some, Option.bind_eq_bind, Option.bind_some, lcdPutsAt_eq,
    second, Option.map_some, printCalls, List.foldl_append]
  rfl

end Drawing

/-- `lcd_puts` draws the same in more passes. -/
theorem lcdPuts_of_le {memory : Nat → Byte} {fuel fuel' s : Nat} {drawn : List Byte}
    (puts : lcdPuts memory fuel s = some drawn) (more : fuel ≤ fuel') :
    lcdPuts memory fuel' s = some drawn := by
  induction fuel generalizing fuel' s drawn with
  | zero => cases puts
  | succ fuel ih =>
    obtain ⟨fuel', rfl⟩ := Nat.exists_eq_succ_of_ne_zero (by omega : fuel' ≠ 0)
    rw [lcdPuts] at puts ⊢
    split at puts
    · rename_i nul
      rw [if_pos nul, puts]
    · rename_i char
      obtain ⟨rest, later, rfl⟩ := Option.map_eq_some_iff.mp puts
      rw [if_neg char, ih later (by omega), Option.map_some]

/-- A message to be shown: when, the text, what `snprintf` makes of the numbers, and what stands behind
`displayArray` up to a NUL. -/
structure Request where
  currentTime : BitVec 32
  str : CString
  formatted : List Byte
  tail : List Byte

/-- What stands from the second half of `displayArray` to the next NUL. -/
def Request.text (request : Request) : List Byte :=
  if request.formatted.length < 16 then request.formatted
  else request.formatted.take 16 ++ request.tail

/-- The texts have characters other than NULs and line feeds, the text to scroll has one, and no more than
forty are drawn in the second row. -/
structure Request.Printable (request : Request) : Prop where
  nonempty : request.str.kept ≠ []
  strPlain : (0x0A : Byte) ∉ request.str.kept
  textNoNul : (0 : Byte) ∉ request.formatted ++ request.tail
  textPlain : (0x0A : Byte) ∉ request.formatted ++ request.tail
  room : request.text.length ≤ 40

theorem Request.mem_text {request : Request} {c : Byte} (member : c ∈ request.text) :
    c ∈ request.formatted ++ request.tail := by
  unfold Request.text at member
  split at member
  · exact List.mem_append_left _ member
  · rcases List.mem_append.mp member with inside | inside
    · exact List.mem_append_left _ (List.mem_of_mem_take inside)
    · exact List.mem_append_right _ inside

/-- The memory from `displayArray` on. -/
def Request.memory (request : Request) (displayArray : List Byte) : Nat → Byte :=
  memoryAt displayArray fun index => request.tail.getD (index - 32) 0

/-- `printLcd`, its calls of the driver included. -/
def showLcd (unit : TwiUnit) (fuel : Nat) (state : TextCounter × Lcd) (request : Request) :
    Option (TextCounter × Lcd) := do
  let printed ← printLcd state.1 request.currentTime request.str request.formatted
  let lcd ← drawLcd unit (request.memory printed.displayArray) fuel state.2
  some (printed.textCounter, lcd)

theorem memoryAt_append (array tail : List Byte) :
    memoryAt array (fun index => tail.getD (index - array.length) 0) =
      memoryAt (array ++ tail) fun _ => 0 := by
  funext index
  simp only [memoryAt, List.getD_eq_getElem?_getD]
  by_cases inside : index < array.length
  · rw [List.getElem?_append_left inside, List.getElem?_eq_getElem inside]
    rfl
  · rw [List.getElem?_append_right (by omega), List.getElem?_eq_none (by omega), Option.getD_none]

theorem memoryAt_zero (array : List Byte) :
    memoryAt array (fun _ => 0) = memoryAt (array ++ [0]) fun _ => 0 := by
  rw [← memoryAt_append]
  funext index
  simp only [memoryAt, List.getD_eq_getElem?_getD]
  cases index - array.length <;> rfl

/-- What stands in memory from `displayArray` on. -/
theorem Request.memory_eq (request : Request) {window : List Byte} (full : window.length = 16) :
    ∃ rest, request.memory (window ++ (request.formatted.take 16 ++
        List.replicate (16 - request.formatted.length) 0)) =
      memoryAt (window ++ (request.text ++ 0 :: rest)) fun _ => 0 := by
  have array : (window ++ (request.formatted.take 16 ++
      List.replicate (16 - request.formatted.length) 0)).length = 32 := by
    rw [List.length_append, List.length_append, List.length_take, List.length_replicate, full]
    omega
  unfold Request.memory Request.text
  rw [← array, memoryAt_append]
  by_cases short : request.formatted.length < 16
  · obtain ⟨padding, positive⟩ :=
      Nat.exists_eq_succ_of_ne_zero (by omega : 16 - request.formatted.length ≠ 0)
    refine ⟨List.replicate padding 0 ++ request.tail, ?_⟩
    rw [if_pos short, List.take_of_length_le (by omega), positive, List.replicate_succ]
    simp only [List.append_assoc, List.cons_append]
  · refine ⟨[], ?_⟩
    rw [if_neg short, Nat.sub_eq_zero_of_le (by omega), List.replicate_zero, List.append_nil,
      memoryAt_zero]
    simp only [List.append_assoc]

/-- The characters of a window are characters of the text. -/
theorem mem_window {str : CString} (nonempty : str.kept ≠ []) {incrementValue : Int}
    {window : List Byte} (filled : fillBuffer1 (topLine str) incrementValue = some (window ++ [0]))
    {c : Byte} (member : c ∈ window) : c ∈ str.kept := by
  have positive : 0 < str.kept.length := List.length_pos_iff.mpr nonempty
  rw [fillBuffer1_topLine, if_neg nonempty, Option.some_inj] at filled
  rw [← List.append_cancel_right filled] at member
  obtain ⟨i, -, rfl⟩ := List.mem_map.mp member
  rw [List.getD_eq_getElem _ _ (Nat.mod_lt _ positive)]
  exact List.getElem_mem _

/-- **What one message draws**: a window of the text, and the numbers. -/
theorem showLcd_eq (unit : TwiUnit) {request : Request} (printable : request.Printable) {fuel : Nat}
    (enough : 57 ≤ fuel) (textCounter : TextCounter) (lcd : Lcd) :
    ∃ window, window.length = 16 ∧ (0x0A : Byte) ∉ window ++ request.text ∧
      fillBuffer1 (topLine request.str)
        (advanceCounter textCounter request.currentTime).incrementValue = some (window ++ [0]) ∧
      showLcd unit fuel (textCounter, lcd) request =
        some (advanceCounter textCounter request.currentTime,
          (printCalls window request.text).foldl (lcdCall unit) lcd) := by
  have absent : (0 : Byte) ∉ request.formatted := fun member =>
    printable.textNoNul (List.mem_append_left _ member)
  obtain ⟨window, full, noNul, filled, printed⟩ :=
    printLcd_eq textCounter request.currentTime printable.nonempty absent
  obtain ⟨rest, memory⟩ := request.memory_eq full
  have textNoNul : (0 : Byte) ∉ request.text := fun member =>
    printable.textNoNul (Request.mem_text member)
  have allNoNul : (0 : Byte) ∉ window ++ request.text := fun member =>
    (List.mem_append.mp member).elim noNul textNoNul
  have room := printable.room
  have first := lcdPuts_memoryAt (fun _ => 0) [] rest allNoNul
  rw [List.nil_append, List.append_assoc, List.length_nil] at first
  have second := lcdPuts_memoryAt (fun _ => 0) window rest textNoNul
  rw [full] at second
  have plain : (0x0A : Byte) ∉ window := fun member =>
    printable.strPlain (mem_window printable.nonempty filled member)
  have allRead : (window ++ request.text).length + 1 ≤ fuel := by
    rw [List.length_append, full]
    omega
  have textRead : request.text.length + 1 ≤ fuel := by omega
  refine ⟨window, full, fun member => ?_, filled, ?_⟩
  · exact (List.mem_append.mp member).elim plain fun inside =>
      printable.textPlain (Request.mem_text inside)
  · have drawn := drawLcd_eq unit (lcdPuts_of_le first allRead) (lcdPuts_of_le second textRead) lcd
    unfold showLcd
    dsimp only
    rw [printed, Option.bind_eq_bind, Option.bind_some]
    dsimp only
    rw [memory, drawn]
    rfl

/-! ### Runs -/

/-- The screen behind `Lcd_inciliation`. -/
theorem execute_inciliation (screen : Screen) :
    let shown := (settingInstructions lcdDispOnBlink ++
      [LcdCall.home, .led 0].flatMap LcdCall.instructions).foldl execute screen
    shown.Ready ∧ ∀ column < 16, shown.visible 0x40 column = 0x20 := by
  exact ⟨⟨rfl, rfl, rfl, rfl⟩, fun column inside => rfl⟩

/-- What is to be seen of some messages. -/
structure Shown (screen : Screen) (requests : List Request) (incrementValue : Int) : Prop where
  ready : screen.Ready
  /-- The first row is the window of the last one. -/
  window : ∀ last ∈ requests.getLast?, ∃ window,
    fillBuffer1 (topLine last.str) incrementValue = some (window ++ [0]) ∧
      ∀ column < 16, screen.visible 0x00 column = window.getD column 0
  /-- In the second row every cell has the character of the last one that reached it. -/
  numbers : ∀ column < 16, screen.visible 0x40 column =
    (requests.map Request.text).foldl (fun shown text => text.getD column shown) 0x20

/-- The calls for a message leave four data lines. -/
theorem printCalls_keep {window text : List Byte} (plain : (0x0A : Byte) ∉ window ++ text) :
    ∀ instruction ∈ (printCalls window text).flatMap LcdCall.instructions,
      ¬ instruction.SetsEight := by
  have plainText : (0x0A : Byte) ∉ text := fun member => plain (List.mem_append_right _ member)
  intro instruction member
  rw [printCalls, List.flatMap_append, List.flatMap_cons, List.flatMap_cons,
    putc_instructions plain, putc_instructions plainText] at member
  have cases_ : instruction = ⟨false, gotoInstruction 0 0⟩ ∨ instruction = ⟨false, gotoInstruction 0 1⟩ ∨
      instruction.rs = true := by
    simp only [LcdCall.instructions, List.mem_append, List.mem_singleton, List.mem_map] at member
    rcases member with (rfl | ⟨c, -, rfl⟩) | rfl | ⟨c, -, rfl⟩
    · exact .inl rfl
    · exact .inr (.inr rfl)
    · exact .inr (.inl rfl)
    · exact .inr (.inr rfl)
  rcases cases_ with rfl | rfl | character
  · decide
  · decide
  · exact fun sets => Bool.false_ne_true (sets.1.symm.trans character)

/-- **A run of messages**, drawn on a screen whose second row is empty. -/
theorem showLcd_run (unit : TwiUnit) {fuel : Nat} (enough : 57 ≤ fuel) (textCounter : TextCounter)
    (lcd : Lcd) {requests : List Request} (printable : ∀ request ∈ requests, request.Printable) :
    ∃ (reached : TextCounter × Lcd) (calls : List LcdCall),
      requests.foldlM (showLcd unit fuel) (textCounter, lcd) = some reached ∧
        reached.2 = calls.foldl (lcdCall unit) lcd ∧
        (∀ instruction ∈ calls.flatMap LcdCall.instructions, ¬ instruction.SetsEight) ∧
        ∀ blank : Screen, blank.Ready → (∀ column < 16, blank.visible 0x40 column = 0x20) →
          Shown ((calls.flatMap LcdCall.instructions).foldl execute blank) requests
            reached.1.incrementValue := by
  induction requests using List.reverseRecOn with
  | nil =>
    exact ⟨(textCounter, lcd), [], rfl, rfl, fun _ member => (List.not_mem_nil member).elim,
      fun blank ready empty => ⟨ready, fun last member => (by cases member), empty⟩⟩
  | append_singleton before last ih =>
    obtain ⟨reached, calls, folded, same, keeps, shown⟩ :=
      ih fun request member => printable request (List.mem_append_left _ member)
    obtain ⟨window, full, plain, filled, next⟩ :=
      showLcd_eq unit (printable last List.mem_concat_self) enough reached.1 reached.2
    have room := (printable last List.mem_concat_self).room
    refine ⟨(advanceCounter reached.1 last.currentTime,
      (printCalls window last.text).foldl (lcdCall unit) reached.2),
      calls ++ printCalls window last.text, ?_, ?_, ?_, fun blank ready empty => ?_⟩
    · rw [List.foldlM_append, folded]
      show [last].foldlM (showLcd unit fuel) (reached.1, reached.2) = _
      rw [List.foldlM_cons, next]
      rfl
    · rw [List.foldl_append, ← same]
    · rw [List.flatMap_append]
      exact fun instruction member => (List.mem_append.mp member).elim (keeps instruction)
        (printCalls_keep plain instruction)
    · have shown := shown blank ready empty
      obtain ⟨ready', first, second⟩ := shown.ready.print full room plain
      rw [List.flatMap_append, List.foldl_append]
      refine ⟨ready', fun request member => ?_, fun column inside => ?_⟩
      · rw [List.getLast?_concat, Option.mem_some_iff] at member
        subst member
        exact ⟨window, filled, first⟩
      · rw [second column inside, shown.numbers column inside, List.map_append, List.foldl_append]
        rfl

/-- **What is to be seen**, as long as every transfer to the expander is acknowledged: behind
`Lcd_inciliation`, in whatever state display and lines are, every run of messages is drawn to its end, and
the first row is the window of the last message, the second row the numbers, over what is left of the
numbers before. -/
theorem marquee_run {unit : TwiUnit} (carries : ∀ bus data, unit.Carries bus deviceWrite data)
    {lcd : Lcd} (released : (deviceRun unit lcd.pcf8574.bus).1 = .idle) {requests : List Request}
    (printable : ∀ request ∈ requests, request.Printable) {fuel : Nat} (enough : 57 ≤ fuel)
    (textCounter : TextCounter) (millis : BitVec 32) (lower : BitVec 4) (level : Lines)
    (interface : Interface) (screen : Screen) :
    ∃ reached signal,
      requests.foldlM (showLcd unit fuel)
          (lcdInciliation textCounter millis, lcdInciliationDisplay unit lcd) = some reached ∧
        signalOf unit reached.2 = signalOf unit lcd ++ signal ∧
        Shown ((run (displayStep lower) (level, interface) signal).2.foldl execute screen) requests
          reached.1.incrementValue := by
  obtain ⟨reached, calls, folded, same, keeps, shown⟩ := showLcd_run unit enough
    (lcdInciliation textCounter millis) (lcdInciliationDisplay unit lcd) printable
  have session : reached.2 = lcdSession unit lcd lcdDispOnBlink ([.home, .led 0] ++ calls) := by
    rw [same, lcdSession, List.foldl_append]
    rfl
  have first : ∀ instruction ∈ settingInstructions lcdDispOnBlink ++
      [LcdCall.home, .led 0].flatMap LcdCall.instructions, ¬ instruction.SetsEight := by decide
  obtain ⟨signal, noise, output, taken⟩ := display_session carries released lcdDispOnBlink
    ([.home, .led 0] ++ calls) (by
      rw [List.flatMap_append, ← List.append_assoc]
      exact fun instruction member => (List.mem_append.mp member).elim (first instruction)
        (keeps instruction)) lower level interface
  obtain ⟨ready, empty⟩ := execute_inciliation (noise.foldl execute screen)
  refine ⟨reached, signal, folded, by rw [session, output], ?_⟩
  rw [taken, List.flatMap_append, List.foldl_append, ← List.append_assoc, List.foldl_append]
  exact shown _ ready empty

/-- Two messages, the first with three characters behind the array; the second has shorter numbers. -/
theorem marquee_run_two :
    let unit := acknowledgedUnit
    let lcd : Lcd := ⟨0, ⟨fun _ => 0, []⟩⟩
    let str : CString := ⟨[0x77, 0x6F, 0x72, 0x64], by decide⟩
    let requests : List Request :=
      [⟨500, str, List.replicate 17 0x31, [0x58, 0x59, 0x5A]⟩, ⟨1000, str, List.replicate 14 0x32, []⟩]
    ∃ reached signal,
      requests.foldlM (showLcd unit 57)
          (lcdInciliation ⟨0, 0⟩ 0, lcdInciliationDisplay unit lcd) = some reached ∧
        signalOf unit reached.2 = signalOf unit lcd ++ signal ∧
        Shown ((run (displayStep 0xF) (⟨0xF, true, true, true, true⟩, .eight) signal).2.foldl execute
          ⟨fun _ => 0, fun _ => 0, 5, true, false, true, 7, false⟩) requests
          reached.1.incrementValue :=
  marquee_run (fun bus => acknowledgedUnit_carries bus (by decide)) rfl
    (List.forall_mem_cons.mpr
      ⟨⟨by decide, by decide, by decide, by decide, by decide⟩,
        List.forall_mem_cons.mpr
          ⟨⟨by decide, by decide, by decide, by decide, by decide⟩, fun _ member => by cases member⟩⟩)
    (le_refl 57) ⟨0, 0⟩ 0 0xF _ _ _

end HdlcMarquee
