/-
**Showing a message (`Lcd_print/lcd_print.cpp`).**

`printLcd` shows 16 characters of a text, one place further on every 500 ms, and three numbers. The text
of the numbers is what `snprintf` formats them to, and is an argument here.

* `scrolls_iff`: `fillBuffer1` takes the place from an `int`, so after `n` advances the window begins at
  `n mod 65536` places instead of `n`, and for an empty text it divides by zero.
* `never_drawn`: the two rows are laid out next to each other in 32 bytes with no room for the character
  that ends a string, so `lcd_puts` never stops where a row ends.
-/

import HdlcMarquee.Generic.Framing
import HdlcMarquee.Hdlc.Fcs
import HdlcMarquee.Target

namespace HdlcMarquee

open Generic

/-! ### Strings -/

/-- The text of a C string: characters other than the NUL behind them. -/
structure CString where
  chars : List Byte
  noNul : (0 : Byte) ∉ chars

/-- `strlen`, of the memory at `source`. -/
def strlen (source : List Byte) : Nat := (source.takeWhile (· ≠ 0)).length

/-- `strncpy`: the `count` bytes stored for the memory at `source`. -/
def strncpy (source : List Byte) (count : Nat) : List Byte :=
  let copied := (source.take count).takeWhile (· ≠ 0)
  copied ++ List.replicate (count - copied.length) 0

/-! ### The buffers -/

/-- `textCounter`, an `unsigned long` and an `int`. -/
structure TextCounter where
  startTime : BitVec 32
  incrementValue : Int
  deriving DecidableEq, Repr

/-- `Lcd_inciliation`, as far as the counter is concerned. -/
def lcdInciliation (textCounter : TextCounter) (millis : BitVec 32) : TextCounter :=
  { textCounter with startTime := millis }

/-- The beginning of `printLcd`: the counter advances when 500 ms have passed. -/
def advanceCounter (textCounter : TextCounter) (currentTime : BitVec 32) : TextCounter :=
  if 500 ≤ currentTime - textCounter.startTime then
    { textCounter with
      incrementValue := toInt (textCounter.incrementValue + 1)
      startTime := currentTime }
  else textCounter

/-- `displayData.topLine`, with the NUL that ends it. -/
def topLine (str : CString) : List Byte := strncpy (str.chars ++ [0]) 63 ++ [0]

/-- `fillBuffer1`: the 17 bytes of `buffer`, or none when it divides by zero. -/
def fillBuffer1 (source : List Byte) (incrementValue : Int) : Option (List Byte) :=
  if strlen source = 0 then none
  else
    let startIndex := toSizeT incrementValue % strlen source
    some ((List.range 16).map (fun i => source.getD ((startIndex + i) % strlen source) 0) ++ [0])

/-- `fillBuffer2`: the bytes that `snprintf` stores of the text of the numbers. -/
def fillBuffer2 (formatted : List Byte) (bufferSize : Nat) : List Byte :=
  formatted.take (bufferSize - 1) ++ [0]

/-! ### The text that is shown -/

/-- The text cut to its first 63 characters. -/
def CString.kept (str : CString) : List Byte := str.chars.take 63

theorem CString.noNul_kept (str : CString) : (0 : Byte) ∉ str.kept :=
  fun member => str.noNul (List.mem_of_mem_take member)

/-- The characters of a string up to the NUL behind it. -/
theorem takeWhile_string {chars : List Byte} (noNul : (0 : Byte) ∉ chars) (rest : List Byte) :
    (chars ++ 0 :: rest).takeWhile (· ≠ 0) = chars := by
  rw [takeWhile_ne_append noNul, takeWhile_ne_cons, List.append_nil]

/-- `strncpy` of a string pads what is missing with NULs. -/
theorem strncpy_string {chars : List Byte} (noNul : (0 : Byte) ∉ chars) (count : Nat) :
    strncpy (chars ++ [0]) count =
      chars.take count ++ List.replicate (count - chars.length) 0 := by
  have copied : ((chars ++ [0]).take count).takeWhile (· ≠ 0) = chars.take count := by
    rcases Nat.lt_or_ge chars.length count with short | long
    · rw [List.take_of_length_le (by simp; omega), takeWhile_string noNul,
        List.take_of_length_le short.le]
    · have absent : (0 : Byte) ∉ chars.take count := fun member => noNul (List.mem_of_mem_take member)
      have kept := takeWhile_ne_append absent []
      rw [List.append_nil, List.takeWhile_nil, List.append_nil] at kept
      rw [List.take_append_of_le_length long, kept]
  unfold strncpy
  rw [copied]
  dsimp only
  rw [List.length_take]
  congr 2
  omega

/-- `topLine` is the text that is kept, and NULs. -/
theorem topLine_split (str : CString) : ∃ padding, topLine str = str.kept ++ 0 :: padding := by
  rw [topLine, strncpy_string str.noNul, List.append_assoc]
  cases 63 - str.chars.length with
  | zero => exact ⟨[], rfl⟩
  | succ more => exact ⟨_, congrArg (str.kept ++ ·) (by rw [List.replicate_succ, List.cons_append])⟩

theorem strlen_topLine (str : CString) : strlen (topLine str) = str.kept.length := by
  obtain ⟨padding, split⟩ := topLine_split str
  rw [strlen, split, takeWhile_string str.noNul_kept]

/-- **The window**: 16 characters of the text from a place on, and the NUL behind them. -/
theorem fillBuffer1_topLine (str : CString) (incrementValue : Int) :
    fillBuffer1 (topLine str) incrementValue =
      if str.kept = [] then none
      else some ((List.range 16).map
        (fun i => str.kept.getD ((toSizeT incrementValue + i) % str.kept.length) 0) ++ [0]) := by
  obtain ⟨padding, split⟩ := topLine_split str
  unfold fillBuffer1
  rw [strlen_topLine]
  by_cases empty : str.kept = []
  · rw [if_pos empty, if_pos (List.length_eq_zero_iff.mpr empty)]
  · have positive : 0 < str.kept.length := List.length_pos_iff.mpr empty
    rw [if_neg empty, if_neg (by omega)]
    dsimp only
    refine congrArg (fun window => some (window ++ [0])) (List.map_congr_left fun i _ => ?_)
    have inside := Nat.mod_lt (toSizeT incrementValue + i) positive
    rw [Nat.mod_add_mod, split, List.getD_eq_getElem?_getD, List.getElem?_append_left inside,
      List.getD_eq_getElem?_getD]

/-! ### Scrolling -/

/-- The counter behind some calls of `printLcd`, by the clock that each reads. -/
def counterAfter (textCounter : TextCounter) (times : List (BitVec 32)) : TextCounter :=
  times.foldl advanceCounter textCounter

/-- How many of them advance it. -/
def advances (textCounter : TextCounter) : List (BitVec 32) → Nat
  | [] => 0
  | currentTime :: rest =>
    (if 500 ≤ currentTime - textCounter.startTime then 1 else 0) +
      advances (advanceCounter textCounter currentTime) rest

/-- **The counter counts the advances**, modulo the range of `int`. -/
theorem incrementValue_counterAfter (textCounter : TextCounter) (times : List (BitVec 32)) {n : Int}
    (counted : textCounter.incrementValue = toInt n) :
    (counterAfter textCounter times).incrementValue = toInt (n + advances textCounter times) := by
  induction times generalizing textCounter n with
  | nil => rw [advances, Nat.cast_zero, Int.add_zero]; exact counted
  | cons currentTime rest ih =>
    rw [counterAfter, List.foldl_cons, ← counterAfter, advances]
    by_cases late : 500 ≤ currentTime - textCounter.startTime
    · have next : (advanceCounter textCounter currentTime).incrementValue = toInt (n + 1) := by
        rw [advanceCounter, if_pos late, counted]
        exact wrapped_add 16 n 1
      rw [ih _ next, if_pos late]
      congr 1
      push_cast
      omega
    · have same : advanceCounter textCounter currentTime = textCounter := if_neg late
      rw [same, if_neg late, Nat.zero_add]
      exact ih textCounter counted

/-- The place that `fillBuffer1` computes from the counter. -/
theorem toSizeT_toInt (n : Nat) : toSizeT (toInt n) = n % 65536 := by
  have reduced : toInt n % 65536 = (n : Int) % 65536 := @Int.bmod_emod n 65536
  unfold toSizeT
  rw [reduced]
  omega

/-- The window behind `n` advances: it is defined, its characters are those of the text from place `n`
on, and a NUL ends it. -/
def Scrolls (str : CString) (incrementValue : Int) (n : Nat) : Prop :=
  ∃ buffer, fillBuffer1 (topLine str) incrementValue = some buffer ∧
    (∀ i < 16, buffer[i]? = str.kept[(n + i) % str.kept.length]?) ∧ buffer[16]? = some 0

theorem scrolls_toInt_iff (str : CString) (n : Nat) :
    Scrolls str (toInt n) n ↔
      str.kept ≠ [] ∧ ∀ i < 16, str.kept[(n % 65536 + i) % str.kept.length]? =
        str.kept[(n + i) % str.kept.length]? := by
  unfold Scrolls
  rw [fillBuffer1_topLine, toSizeT_toInt]
  by_cases empty : str.kept = []
  · rw [if_pos empty]
    exact iff_of_false (fun ⟨_, filled, _⟩ => by cases filled) fun some => some.1 empty
  · have positive : 0 < str.kept.length := List.length_pos_iff.mpr empty
    rw [if_neg empty]
    have shown : ∀ i < 16, ((List.range 16).map
        (fun i => str.kept.getD ((n % 65536 + i) % str.kept.length) 0) ++ [0])[i]? =
          str.kept[(n % 65536 + i) % str.kept.length]? := by
      intro i inside
      have place := Nat.mod_lt (n % 65536 + i) positive
      rw [List.getElem?_append_left (by simpa using inside), List.getElem?_map,
        List.getElem?_range inside, Option.map_some, List.getD_eq_getElem _ _ place,
        List.getElem?_eq_getElem place]
    constructor
    · rintro ⟨buffer, filled, characters, _⟩
      refine ⟨empty, fun i inside => ?_⟩
      rw [← shown i inside, Option.some.inj filled]
      exact characters i inside
    · rintro ⟨_, characters⟩
      exact ⟨_, rfl, fun i inside => (shown i inside).trans (characters i inside), by simp⟩

/-- A text of different characters. -/
def scale (length : Nat) : List Byte := (List.range length).map fun place => BitVec.ofNat 8 (place + 1)

theorem scale_noNul {length : Nat} (short : length ≤ 63) : (0 : Byte) ∉ scale length := by
  intro member
  obtain ⟨place, inside, zero⟩ := List.mem_map.mp member
  have value := congrArg BitVec.toNat zero
  rw [BitVec.toNat_ofNat] at value
  have := List.mem_range.mp inside
  simp at value
  omega

theorem scale_inj {length first second : Nat} (short : length ≤ 63) (inside : first < length)
    (inside' : second < length) (same : (scale length)[first]? = (scale length)[second]?) :
    first = second := by
  unfold scale at same
  rw [List.getElem?_map, List.getElem?_map, List.getElem?_range inside,
    List.getElem?_range inside'] at same
  have value := congrArg BitVec.toNat (Option.some.inj same)
  rw [BitVec.toNat_ofNat, BitVec.toNat_ofNat] at value
  omega

/-- For all texts of one length. -/
theorem scrolls_length_iff (n : Nat) {length : Nat} (short : length ≤ 63) :
    (∀ str : CString, str.kept.length = length → Scrolls str (toInt n) n) ↔
      0 < length ∧ n % 65536 % length = n % length := by
  constructor
  · intro scrolls
    let str : CString := ⟨scale length, scale_noNul short⟩
    have whole : str.kept = scale length := List.take_of_length_le (by simp [str, scale]; omega)
    have size : (scale length).length = length := by simp [scale]
    obtain ⟨some, characters⟩ := (scrolls_toInt_iff str n).mp (scrolls str (by rw [whole, size]))
    have positive : 0 < length := by
      rw [← size, ← whole]
      exact List.length_pos_iff.mpr some
    have first := characters 0 (by omega)
    rw [whole, size, Nat.add_zero, Nat.add_zero] at first
    exact ⟨positive, scale_inj short (Nat.mod_lt _ positive) (Nat.mod_lt _ positive) first⟩
  · rintro ⟨positive, same⟩ str rfl
    refine (scrolls_toInt_iff str n).mpr ⟨List.length_pos_iff.mp positive, fun i _ => ?_⟩
    rw [Nat.add_mod, same, ← Nat.add_mod]

/-- **When the text scrolls cyclically**: behind any calls of `printLcd`, exactly when the text is not
empty and reads alike from the number of advances and from its remainder modulo 65536; for all texts of
a length, exactly when the length is not zero and cannot tell the two apart. -/
theorem scrolls_iff (startTime : BitVec 32) (times : List (BitVec 32)) :
    (∀ str : CString,
      Scrolls str (counterAfter (lcdInciliation ⟨0, 0⟩ startTime) times).incrementValue
          (advances (lcdInciliation ⟨0, 0⟩ startTime) times) ↔
        str.kept ≠ [] ∧ ∀ i < 16,
          str.kept[(advances (lcdInciliation ⟨0, 0⟩ startTime) times % 65536 + i) %
              str.kept.length]? =
            str.kept[(advances (lcdInciliation ⟨0, 0⟩ startTime) times + i) % str.kept.length]?) ∧
    ∀ length ≤ 63,
      ((∀ str : CString, str.kept.length = length →
        Scrolls str (counterAfter (lcdInciliation ⟨0, 0⟩ startTime) times).incrementValue
          (advances (lcdInciliation ⟨0, 0⟩ startTime) times)) ↔
        0 < length ∧ advances (lcdInciliation ⟨0, 0⟩ startTime) times % 65536 % length =
          advances (lcdInciliation ⟨0, 0⟩ startTime) times % length) := by
  have counted := incrementValue_counterAfter (lcdInciliation ⟨0, 0⟩ startTime) times
    (show (0 : Int) = toInt 0 from rfl)
  rw [Int.zero_add] at counted
  rw [counted]
  generalize advances (lcdInciliation ⟨0, 0⟩ startTime) times = n
  exact ⟨fun str => scrolls_toInt_iff str n, fun length short => scrolls_length_iff n short⟩

/-- Calls that read the clock every 500 ms all advance the counter. -/
theorem advances_iterate (textCounter : TextCounter) (count : Nat) :
    advances textCounter (List.iterate (· + 500) (textCounter.startTime + 500) count) = count := by
  induction count generalizing textCounter with
  | zero => rfl
  | succ count ih =>
    have late : 500 ≤ textCounter.startTime + 500 - textCounter.startTime := by
      rw [add_sub_cancel_left]
      exact BitVec.le_refl _
    have next : (advanceCounter textCounter (textCounter.startTime + 500)).startTime =
        textCounter.startTime + 500 := by
      rw [advanceCounter, if_pos late]
    have later := ih (advanceCounter textCounter (textCounter.startTime + 500))
    rw [next] at later
    rw [List.iterate, advances, if_pos late, later]
    omega

/-- The clock readings of 65536 calls of `printLcd`, one every 500 ms. -/
def longRun : List (BitVec 32) := List.iterate (· + 500) 500 65536

/-- **Where it does not.** The empty text divides by zero at the first call, and of a text of three
characters the window jumps at the 65536th advance. -/
theorem not_scrolls :
    ¬ Scrolls ⟨[], List.not_mem_nil⟩ (counterAfter (lcdInciliation ⟨0, 0⟩ 0) []).incrementValue
        (advances (lcdInciliation ⟨0, 0⟩ 0) []) ∧
      advances (lcdInciliation ⟨0, 0⟩ 0) longRun = 65536 ∧
      ¬ Scrolls ⟨[0x61, 0x62, 0x63], by decide⟩
        (counterAfter (lcdInciliation ⟨0, 0⟩ 0) longRun).incrementValue
        (advances (lcdInciliation ⟨0, 0⟩ 0) longRun) := by
  have long : advances (lcdInciliation ⟨0, 0⟩ 0) longRun = 65536 :=
    advances_iterate (lcdInciliation ⟨0, 0⟩ 0) 65536
  have counted := incrementValue_counterAfter (lcdInciliation ⟨0, 0⟩ 0) longRun
    (show (0 : Int) = toInt 0 from rfl)
  rw [Int.zero_add] at counted
  refine ⟨fun scrolls => ?_, long, fun scrolls => ?_⟩
  · exact ((scrolls_toInt_iff ⟨[], List.not_mem_nil⟩ 0).mp scrolls).1 rfl
  · rw [counted, long] at scrolls
    exact absurd (((scrolls_toInt_iff _ 65536).mp scrolls).2 0 (by omega)) (by decide)

/-! ### Drawing -/

/-- What a call of `printLcd` leaves behind: the counter, and the 32 bytes of `displayArray`. -/
structure Printed where
  textCounter : TextCounter
  displayArray : List Byte

/-- `printLcd` up to the display, or none when it divides by zero. -/
def printLcd (textCounter : TextCounter) (currentTime : BitVec 32) (str : CString)
    (formatted : List Byte) : Option Printed := do
  let textCounter := advanceCounter textCounter currentTime
  let buffer1 ← fillBuffer1 (topLine str) textCounter.incrementValue
  let buffer2 := fillBuffer2 formatted 17
  some ⟨textCounter, strncpy buffer1 16 ++ strncpy buffer2 16⟩

/-- The memory from `displayArray` on. -/
def memoryAt (displayArray : List Byte) (behind : Nat → Byte) (index : Nat) : Byte :=
  displayArray.getD index (behind index)

/-- `lcd_puts`: the characters that it passes to `lcd_putc`, if it stops within so many passes of its
loop. The byte behind them is the last one read. -/
def lcdPuts (memory : Nat → Byte) : Nat → Nat → Option (List Byte)
  | 0, _ => none
  | fuel + 1, s =>
    if memory s = 0 then some [] else (lcdPuts memory fuel (s + 1)).map (memory s :: ·)

/-- The first call draws the window. -/
def FirstRow (window : List Byte) (memory : Nat → Byte) : Prop :=
  ∃ fuel, lcdPuts memory fuel 0 = some window

/-- The second call draws 16 characters that start with the numbers. -/
def SecondRow (formatted : List Byte) (memory : Nat → Byte) : Prop :=
  ∃ fuel drawn, lcdPuts memory fuel 16 = some drawn ∧ drawn.length = 16 ∧
    formatted.take 16 <+: drawn

/-- A call stops within `displayArray`. -/
def StopsInside (memory : Nat → Byte) (s : Nat) : Prop :=
  ∃ fuel drawn, lcdPuts memory fuel s = some drawn ∧ s + drawn.length < 32

/-- Each row is drawn in its own 16 cells. -/
structure Drawn (window formatted : List Byte) (memory : Nat → Byte) : Prop where
  first : FirstRow window memory
  second : SecondRow formatted memory
  inside : StopsInside memory 0 ∧ StopsInside memory 16

/-- **`lcd_puts` stops at the first NUL.** -/
theorem lcdPuts_stops {memory : Nat → Byte} {fuel s : Nat} {drawn : List Byte}
    (puts : lcdPuts memory fuel s = some drawn) :
    memory (s + drawn.length) = 0 ∧ ∀ i < drawn.length, memory (s + i) ≠ 0 := by
  induction fuel generalizing s drawn with
  | zero => cases puts
  | succ fuel ih =>
    rw [lcdPuts] at puts
    split at puts
    · rename_i nul
      rw [← Option.some.inj puts]
      exact ⟨nul, fun i inside => absurd inside (Nat.not_lt_zero i)⟩
    · rename_i char
      obtain ⟨rest, puts', rfl⟩ := Option.map_eq_some_iff.mp puts
      obtain ⟨stop, chars⟩ := ih puts'
      rw [List.length_cons]
      refine ⟨by rw [← stop]; congr 1; omega, fun i inside => ?_⟩
      cases i with
      | zero => exact char
      | succ i =>
        have next := chars i (by omega)
        rwa [show s + 1 + i = s + (i + 1) by omega] at next

/-- A string in an array is drawn to its end. -/
theorem lcdPuts_memoryAt (behind : Nat → Byte) (before rest : List Byte) {chars : List Byte}
    (noNul : (0 : Byte) ∉ chars) :
    lcdPuts (memoryAt (before ++ (chars ++ 0 :: rest)) behind) (chars.length + 1) before.length =
      some chars := by
  induction chars generalizing before with
  | nil =>
    have nul : memoryAt (before ++ ([] ++ 0 :: rest)) behind before.length = 0 := by simp [memoryAt]
    rw [lcdPuts, if_pos nul]
  | cons char chars ih =>
    rw [List.mem_cons, not_or] at noNul
    have here : memoryAt (before ++ (char :: chars ++ 0 :: rest)) behind before.length = char := by
      simp [memoryAt]
    have later := ih (before ++ [char]) noNul.2
    rw [List.length_append, List.length_singleton, List.append_assoc, List.singleton_append,
      ← List.cons_append] at later
    rw [lcdPuts, here, if_neg (Ne.symm noNul.1), List.length_cons, later, Option.map_some]

/-- A call that draws 16 characters from the second half on has read behind it. -/
theorem not_secondRow_inside (formatted : List Byte) (memory : Nat → Byte) :
    ¬ (SecondRow formatted memory ∧ StopsInside memory 16) := by
  rintro ⟨⟨_, drawn, puts, long, _⟩, _, drawn', puts', inside⟩
  exact (lcdPuts_stops puts).2 drawn'.length (by omega) (lcdPuts_stops puts').1

/-- **What `displayArray` holds**: the 16 characters of the window, none of them a NUL, and next to them
the numbers. -/
theorem printLcd_eq (textCounter : TextCounter) (currentTime : BitVec 32) {str : CString}
    (nonempty : str.kept ≠ []) {formatted : List Byte} (noNul : (0 : Byte) ∉ formatted) :
    ∃ window : List Byte, window.length = 16 ∧ (0 : Byte) ∉ window ∧
      fillBuffer1 (topLine str) (advanceCounter textCounter currentTime).incrementValue =
        some (window ++ [0]) ∧
      printLcd textCounter currentTime str formatted =
        some ⟨advanceCounter textCounter currentTime,
          window ++ (formatted.take 16 ++ List.replicate (16 - formatted.length) 0)⟩ := by
  have positive : 0 < str.kept.length := List.length_pos_iff.mpr nonempty
  have filled := fillBuffer1_topLine str (advanceCounter textCounter currentTime).incrementValue
  rw [if_neg nonempty] at filled
  generalize toSizeT (advanceCounter textCounter currentTime).incrementValue = place at filled
  obtain ⟨window, spelled⟩ : ∃ window, (List.range 16).map
      (fun i => str.kept.getD ((place + i) % str.kept.length) 0) = window := ⟨_, rfl⟩
  rw [spelled] at filled
  have length : window.length = 16 := by
    rw [← spelled, List.length_map, List.length_range]
  have characters : (0 : Byte) ∉ window := by
    intro member
    rw [← spelled] at member
    obtain ⟨i, _, nul⟩ := List.mem_map.mp member
    rw [List.getD_eq_getElem _ _ (Nat.mod_lt _ positive)] at nul
    exact str.noNul_kept (nul ▸ List.getElem_mem _)
  have absent : (0 : Byte) ∉ formatted.take 16 := fun member => noNul (List.mem_of_mem_take member)
  have first : strncpy (window ++ [0]) 16 = window := by
    rw [strncpy_string characters, List.take_of_length_le length.le, length]
    exact List.append_nil window
  have second : strncpy (formatted.take 16 ++ [0]) 16 =
      formatted.take 16 ++ List.replicate (16 - formatted.length) 0 := by
    have padding : 16 - min 16 formatted.length = 16 - formatted.length := by omega
    rw [strncpy_string absent, List.take_take, Nat.min_self, List.length_take, padding]
  refine ⟨window, length, characters, filled, ?_⟩
  unfold printLcd
  dsimp only
  rw [filled, Option.bind_eq_bind, Option.bind_some, first, fillBuffer2, second]

/-- **The rows are never drawn in their own cells.** For every text that is not empty and all numbers,
the first call does not draw the 16 characters of the window, and the second does not draw 16 characters
within the array. -/
theorem never_drawn (textCounter : TextCounter) (currentTime : BitVec 32) {str : CString}
    (nonempty : str.kept ≠ []) {formatted : List Byte} (noNul : (0 : Byte) ∉ formatted)
    (long : 14 ≤ formatted.length) (behind : Nat → Byte) :
    ∃ printed window, printLcd textCounter currentTime str formatted = some printed ∧
      fillBuffer1 (topLine str) printed.textCounter.incrementValue = some (window ++ [0]) ∧
      ¬ Drawn window formatted (memoryAt printed.displayArray behind) ∧
      ¬ FirstRow window (memoryAt printed.displayArray behind) ∧
      ¬ (SecondRow formatted (memoryAt printed.displayArray behind) ∧
        StopsInside (memoryAt printed.displayArray behind) 16) := by
  obtain ⟨window, length, _, filled, shown⟩ := printLcd_eq textCounter currentTime nonempty noNul
  have notFirst : ¬ FirstRow window (memoryAt (window ++ (formatted.take 16 ++
      List.replicate (16 - formatted.length) 0)) behind) := by
    rintro ⟨fuel, puts⟩
    -- behind the window stands the first character of the numbers
    have nul := (lcdPuts_stops puts).1
    obtain ⟨first, rest, rfl⟩ := List.exists_cons_of_length_pos (by omega : 0 < formatted.length)
    rw [Nat.zero_add, memoryAt, List.getD_eq_getElem?_getD,
      List.getElem?_append_right (le_refl _), Nat.sub_self] at nul
    exact noNul (List.mem_cons.mpr (Or.inl nul.symm))
  refine ⟨_, window, shown, filled, fun drawn => notFirst drawn.first, notFirst,
    not_secondRow_inside _ _⟩

/-- Two characters in turn, and three zeros. -/
theorem never_drawn_zeros :
    ∃ printed window,
      printLcd ⟨0, 0⟩ 0 ⟨[0x61, 0x62], by decide⟩
          [0x30, 0x2E, 0x30, 0x30, 0x2E, 0x30, 0x2E, 0x30, 0x30, 0x2E, 0x30, 0x2E, 0x30, 0x30] =
        some printed ∧
      fillBuffer1 (topLine ⟨[0x61, 0x62], by decide⟩) printed.textCounter.incrementValue =
        some (window ++ [0]) ∧
      ¬ Drawn window
        [0x30, 0x2E, 0x30, 0x30, 0x2E, 0x30, 0x2E, 0x30, 0x30, 0x2E, 0x30, 0x2E, 0x30, 0x30]
        (memoryAt printed.displayArray fun _ => 0) ∧
      ¬ FirstRow window (memoryAt printed.displayArray fun _ => 0) ∧
      ¬ (SecondRow
          [0x30, 0x2E, 0x30, 0x30, 0x2E, 0x30, 0x2E, 0x30, 0x30, 0x2E, 0x30, 0x2E, 0x30, 0x30]
          (memoryAt printed.displayArray fun _ => 0) ∧
        StopsInside (memoryAt printed.displayArray fun _ => 0) 16) :=
  never_drawn ⟨0, 0⟩ 0 (by decide) (by decide) (by decide) fun _ => 0

/-- The first call draws the numbers behind the window, and the second only 14 characters. -/
theorem not_drawn :
    ∃ printed : Printed,
      printLcd ⟨0, 0⟩ 0 ⟨[0x61, 0x62], by decide⟩
          [0x30, 0x2E, 0x30, 0x30, 0x2E, 0x30, 0x2E, 0x30, 0x30, 0x2E, 0x30, 0x2E, 0x30, 0x30] =
        some printed ∧
      (∃ drawn, lcdPuts (memoryAt printed.displayArray fun _ => 0) 32 0 = some drawn ∧
        drawn.length = 30) ∧
      (∃ drawn, lcdPuts (memoryAt printed.displayArray fun _ => 0) 32 16 = some drawn ∧
        drawn.length = 14) ∧
      ∀ window, ¬ Drawn window
        [0x30, 0x2E, 0x30, 0x30, 0x2E, 0x30, 0x2E, 0x30, 0x30, 0x2E, 0x30, 0x2E, 0x30, 0x30]
        (memoryAt printed.displayArray fun _ => 0) := by
  refine ⟨_, rfl, ⟨_, rfl, rfl⟩, ⟨_, rfl, rfl⟩, fun window drawn => ?_⟩
  exact not_secondRow_inside _ _ ⟨drawn.second, drawn.inside.2⟩

/-- **What is drawn instead** when the numbers take less than 16 characters: the first call draws both,
and the second leaves cells of its row as they were. -/
theorem printLcd_short (textCounter : TextCounter) (currentTime : BitVec 32) {str : CString}
    (nonempty : str.kept ≠ []) {formatted : List Byte} (noNul : (0 : Byte) ∉ formatted)
    (short : formatted.length < 16) (behind : Nat → Byte) :
    ∃ printed window, printLcd textCounter currentTime str formatted = some printed ∧
      fillBuffer1 (topLine str) printed.textCounter.incrementValue = some (window ++ [0]) ∧
      lcdPuts (memoryAt printed.displayArray behind) ((window ++ formatted).length + 1) 0 =
        some (window ++ formatted) ∧
      lcdPuts (memoryAt printed.displayArray behind) (formatted.length + 1) 16 = some formatted := by
  obtain ⟨window, length, characters, filled, shown⟩ :=
    printLcd_eq textCounter currentTime nonempty noNul
  obtain ⟨more, padding⟩ : ∃ more, 16 - formatted.length = more + 1 :=
    ⟨15 - formatted.length, by omega⟩
  rw [List.take_of_length_le short.le, padding, List.replicate_succ] at shown
  have both : (0 : Byte) ∉ window ++ formatted := by
    rw [List.mem_append, not_or]
    exact ⟨characters, noNul⟩
  have first := lcdPuts_memoryAt behind [] (List.replicate more 0) both
  have second := lcdPuts_memoryAt behind window (List.replicate more 0) noNul
  rw [List.nil_append, List.length_nil, List.append_assoc] at first
  rw [length] at second
  exact ⟨_, window, shown, filled, first, second⟩

end HdlcMarquee
