/-
**Reflected cyclic redundancy checks of any width.**

The register of a reflected CRC moves down one place for each message bit, least significant bit
first, and takes the reversed generator in when the bit shifted out differs from the message bit
(`Generator.bitStep`). Everything follows from two facts about the move without a message bit,
`Generator.shift`: it is linear in exclusive or (`shift_xor`), and it is injective (`shift_inj`),
because the top bit of a reversed generator is set.

* `crcBits_eq_shifts`: up to a register's width of message bits, reading them is an exclusive or
  with the word they spell followed by that many moves. One octet read at a time from a table of
  moves is the case of eight bits (`tableStep_eq`).
* `crcBits_xor`: the check of an exclusive or is the exclusive or of the checks.
* `crcBits_eq_residue_iff`: one register's width of bits reaches a chosen residue for exactly one
  choice of these bits.
* `crcBits_ne_of_burst`: two messages that differ, but only within one register's width of
  consecutive bits, never have the same check.
-/

import Mathlib.Data.List.GetD
import Mathlib.Data.List.NodupEquivFin
import Mathlib.Order.Monotone.Basic
import Mathlib.Data.BitVec
import Mathlib.Logic.Function.Iterate

namespace HdlcMarquee.Generic.Crc

/-! ### The register -/

/-- A reversed generator polynomial without its constant term: the top bit is the coefficient of
`x ^ 0` and is set in every generator. -/
structure Generator (width : Nat) where
  poly : BitVec width
  top : poly.msb = true

variable {width : Nat}

theorem Generator.width_pos (generator : Generator width) : 0 < width := by
  rcases Nat.eq_zero_or_pos width with rfl | positive
  · have top := generator.top
    have nothing : generator.poly = 0#0 := BitVec.of_length_zero
    rw [nothing] at top
    cases top
  · exact positive

variable (generator : Generator width)

/-- One move of the register without a message bit. -/
def Generator.shift (register : BitVec width) : BitVec width :=
  if register.getLsbD 0 then (register >>> 1) ^^^ generator.poly else register >>> 1

/-- One message bit: the generator comes in when the bit shifted out differs from it. -/
def Generator.bitStep (register : BitVec width) (bit : Bool) : BitVec width :=
  (register >>> 1) ^^^ (if register.getLsbD 0 != bit then generator.poly else 0#(width))

theorem shift_zero : generator.shift 0#(width) = 0#(width) := by
  simp [Generator.shift]

/-- **The move is linear.** -/
theorem shift_xor (first second : BitVec width) :
    generator.shift (first ^^^ second) = generator.shift first ^^^ generator.shift second := by
  unfold Generator.shift
  rw [BitVec.getLsbD_xor, BitVec.ushiftRight_xor_distrib]
  cases first.getLsbD 0 <;> cases second.getLsbD 0
  · rfl
  · simp [BitVec.xor_assoc]
  · simp only [Bool.xor_false, if_true, Bool.false_eq_true, if_false]
    ac_rfl
  · simp only [Bool.xor_true, Bool.not_true, Bool.false_eq_true, if_false, if_true]
    have cancel : generator.poly ^^^ generator.poly = 0#(width) := BitVec.xor_self
    calc first >>> 1 ^^^ second >>> 1
        = (first >>> 1 ^^^ second >>> 1) ^^^ (generator.poly ^^^ generator.poly) := by
          rw [cancel, BitVec.xor_zero]
      _ = (first >>> 1 ^^^ generator.poly) ^^^ (second >>> 1 ^^^ generator.poly) := by ac_rfl

/-- A register that moves to zero was zero: the generator's top bit cannot be shifted in. -/
theorem eq_zero_of_shift_eq_zero {register : BitVec width}
    (moved : generator.shift register = 0#(width)) : register = 0#(width) := by
  have positive := generator.width_pos
  unfold Generator.shift at moved
  split at moved
  · have same : register >>> 1 = generator.poly := by
      have cancelled := congrArg (fun value => value ^^^ generator.poly) moved
      simpa [BitVec.xor_assoc] using cancelled
    have top := generator.top
    rw [← same, BitVec.msb_eq_getLsbD_last, BitVec.getLsbD_ushiftRight,
      BitVec.getLsbD_of_ge register _ (by omega)] at top
    cases top
  · rename_i low
    apply BitVec.eq_of_getLsbD_eq
    intro position _
    cases position with
    | zero => simpa using low
    | succ position =>
      have bit := congrArg (fun value => value.getLsbD position) moved
      simpa [BitVec.getLsbD_ushiftRight, Nat.add_comm] using bit

theorem xor_eq_zero_iff {first second : BitVec width} :
    first ^^^ second = 0#(width) ↔ first = second := by
  constructor
  · intro zero
    have cancelled := congrArg (fun value => value ^^^ second) zero
    simpa [BitVec.xor_assoc] using cancelled
  · rintro rfl
    exact BitVec.xor_self

/-- **The move is injective.** -/
theorem shift_inj {first second : BitVec width}
    (same : generator.shift first = generator.shift second) : first = second := by
  apply xor_eq_zero_iff.mp
  apply eq_zero_of_shift_eq_zero generator
  rw [shift_xor, same, BitVec.xor_self]

/-- Several moves. -/
def Generator.shifts (count : Nat) (register : BitVec width) : BitVec width :=
  generator.shift^[count] register

@[simp] theorem shifts_zero (register : BitVec width) : generator.shifts 0 register = register := rfl

theorem shifts_succ (count : Nat) (register : BitVec width) :
    generator.shifts (count + 1) register = generator.shifts count (generator.shift register) := rfl

theorem shifts_add (first second : Nat) (register : BitVec width) :
    generator.shifts (first + second) register =
      generator.shifts first (generator.shifts second register) :=
  Function.iterate_add_apply _ _ _ _

theorem shifts_of_zero (count : Nat) : generator.shifts count 0#(width) = 0#(width) := by
  induction count with
  | zero => rfl
  | succ count ih => rw [shifts_succ, shift_zero, ih]

theorem shifts_xor (count : Nat) (first second : BitVec width) :
    generator.shifts count (first ^^^ second) =
      generator.shifts count first ^^^ generator.shifts count second := by
  induction count generalizing first second with
  | zero => rfl
  | succ count ih => simp only [shifts_succ, shift_xor, ih]

theorem shifts_inj (count : Nat) {first second : BitVec width}
    (same : generator.shifts count first = generator.shifts count second) : first = second := by
  induction count generalizing first second with
  | zero => exact same
  | succ count ih => exact shift_inj generator (ih same)

/-- A word whose top `count` bits are clear is what `count` moves make of it, moved up. -/
theorem shifts_shiftLeft (count : Nat) (word : BitVec width)
    (empty : ∀ position, width - count ≤ position → word.getLsbD position = false) :
    generator.shifts count (word <<< count) = word := by
  induction count with
  | zero => simp
  | succ count ih =>
    have once : generator.shift (word <<< (count + 1)) = word <<< count := by
      have low : (word <<< (count + 1)).getLsbD 0 = false := by simp
      unfold Generator.shift
      rw [low, if_neg Bool.false_ne_true]
      apply BitVec.eq_of_getLsbD_eq
      intro position inside
      rw [BitVec.getLsbD_ushiftRight, BitVec.getLsbD_shiftLeft, BitVec.getLsbD_shiftLeft]
      by_cases last : 1 + position < width
      · by_cases below : position < count
        · simp [below, show 1 + position < count + 1 by omega]
        · simp [below, inside, last, show ¬ 1 + position < count + 1 by omega,
            show 1 + position - (count + 1) = position - count by omega]
      · have top : word.getLsbD (position - count) = false := empty _ (by omega)
        simp [last, top]
    rw [shifts_succ, once, ih fun position high => empty position (by omega)]

/-! ### Message bits -/

/-- The register with one message bit in its lowest place. -/
def bitWord (width : Nat) (bit : Bool) : BitVec width := if bit then 1#(width) else 0#(width)

theorem getLsbD_bitWord (positive : 0 < width) (bit : Bool) (position : Nat) :
    (bitWord width bit).getLsbD position = (decide (position = 0) && bit) := by
  cases bit
  · simp [bitWord]
  · simp only [bitWord, if_true, Bool.and_true]
    rw [BitVec.getLsbD_one]
    simp [positive]

/-- The word that message bits spell, first bit lowest; bits past the width are lost. -/
def word (width : Nat) : List Bool → BitVec width
  | [] => 0#(width)
  | bit :: rest => bitWord width bit ^^^ (word width rest <<< 1)

theorem getLsbD_word (bits : List Bool) (position : Nat) :
    (word width bits).getLsbD position = (decide (position < width) && bits.getD position false) := by
  induction bits generalizing position with
  | nil => simp [word]
  | cons bit rest ih =>
    rcases Nat.eq_zero_or_pos width with rfl | positive
    · simp
    · rw [word, BitVec.getLsbD_xor, BitVec.getLsbD_shiftLeft, getLsbD_bitWord positive, ih]
      cases position with
      | zero => simp [positive]
      | succ position =>
        by_cases inside : position + 1 < width
        · simp [inside, show position < width by omega]
        · simp [inside]

/-- Up to the width, words spell different bits differently. -/
theorem word_inj {bits bits' : List Bool} (lengths : bits.length = bits'.length)
    (short : bits.length ≤ width) (same : word width bits = word width bits') : bits = bits' := by
  refine List.ext_getElem lengths fun place inside inside' => ?_
  have bit := congrArg (fun value => value.getLsbD place) same
  simp only [getLsbD_word, List.getD_eq_getElem _ _ inside, List.getD_eq_getElem _ _ inside'] at bit
  simpa [show place < width by omega] using bit

/-- A message bit is an exclusive or into the lowest place before the move. -/
theorem bitStep_eq_shift (register : BitVec width) (bit : Bool) :
    generator.bitStep register bit = generator.shift (register ^^^ bitWord width bit) := by
  have positive := generator.width_pos
  have low : (register ^^^ bitWord width bit).getLsbD 0 = (register.getLsbD 0 != bit) := by
    rw [BitVec.getLsbD_xor, getLsbD_bitWord positive]
    cases register.getLsbD 0 <;> cases bit <;> rfl
  have high : (register ^^^ bitWord width bit) >>> 1 = register >>> 1 := by
    apply BitVec.eq_of_getLsbD_eq
    intro position _
    rw [BitVec.getLsbD_ushiftRight, BitVec.getLsbD_ushiftRight, BitVec.getLsbD_xor,
      getLsbD_bitWord positive]
    simp
  unfold Generator.bitStep Generator.shift
  rw [low, high]
  split
  · rfl
  · rw [BitVec.xor_zero]

/-- The check of message bits, from a register. -/
def Generator.crcBits (register : BitVec width) (bits : List Bool) : BitVec width :=
  bits.foldl generator.bitStep register

@[simp] theorem crcBits_nil (register : BitVec width) : generator.crcBits register [] = register :=
  rfl

theorem crcBits_cons (register : BitVec width) (bit : Bool) (rest : List Bool) :
    generator.crcBits register (bit :: rest) =
      generator.crcBits (generator.bitStep register bit) rest := rfl

theorem crcBits_append (register : BitVec width) (first second : List Bool) :
    generator.crcBits register (first ++ second) =
      generator.crcBits (generator.crcBits register first) second :=
  List.foldl_append

/-- **Up to a register's width of message bits are one exclusive or, then moves.** -/
theorem crcBits_eq_shifts (register : BitVec width) (bits : List Bool)
    (short : bits.length ≤ width) :
    generator.crcBits register bits =
      generator.shifts bits.length (register ^^^ word width bits) := by
  induction bits generalizing register with
  | nil => simp [word]
  | cons bit rest ih =>
    rw [List.length_cons] at short
    have empty : ∀ position, width - 1 ≤ position → (word width rest).getLsbD position = false := by
      intro position high
      rw [getLsbD_word, List.getD_eq_default _ _ (by omega), Bool.and_false]
    rw [crcBits_cons, ih _ (by omega), List.length_cons, shifts_succ, bitStep_eq_shift, word,
      ← BitVec.xor_assoc, shift_xor generator (register ^^^ bitWord width bit)]
    congr 2
    exact (shifts_shiftLeft generator 1 (word width rest) empty).symm

/-- **The check is linear**: an exclusive or of messages of one length, from an exclusive or of
registers. -/
theorem crcBits_xor (register register' : BitVec width) (bits bits' : List Bool)
    (same : bits.length = bits'.length) :
    generator.crcBits (register ^^^ register') (List.zipWith (· ^^ ·) bits bits') =
      generator.crcBits register bits ^^^ generator.crcBits register' bits' := by
  induction bits generalizing register register' bits' with
  | nil =>
    cases bits' with
    | nil => rfl
    | cons _ _ => cases same
  | cons bit rest ih =>
    cases bits' with
    | nil => cases same
    | cons bit' rest' =>
      have spell : bitWord width (bit ^^ bit') = bitWord width bit ^^^ bitWord width bit' := by
        cases bit <;> cases bit' <;> simp [bitWord]
      have step : generator.bitStep (register ^^^ register') (bit ^^ bit') =
          generator.bitStep register bit ^^^ generator.bitStep register' bit' := by
        rw [bitStep_eq_shift, bitStep_eq_shift, bitStep_eq_shift, ← shift_xor, spell]
        congr 1
        ac_rfl
      rw [List.zipWith_cons_cons, crcBits_cons, crcBits_cons, crcBits_cons, step]
      exact ih _ _ _ (Nat.succ.inj same)

/-- **One choice of the last bits reaches a residue.** After any register, exactly one word of the
register's width leads to `generator.shifts width residue`: the register exclusive or `residue`. -/
theorem crcBits_eq_residue_iff (register residue : BitVec width) (bits : List Bool)
    (full : bits.length = width) :
    generator.crcBits register bits = generator.shifts width residue ↔
      word width bits = register ^^^ residue := by
  rw [crcBits_eq_shifts generator register bits full.le, full]
  constructor
  · intro same
    have equal := shifts_inj generator width same
    rw [← equal, ← BitVec.xor_assoc, BitVec.xor_self, BitVec.zero_xor]
  · intro same
    rw [same, ← BitVec.xor_assoc, BitVec.xor_self, BitVec.zero_xor]

/-! ### Bursts -/

/-- The set bits of an error pattern lie within `width` consecutive places. -/
def Burst (width : Nat) (pattern : List Bool) : Prop :=
  ∀ first last : Nat, pattern[first]? = some true → pattern[last]? = some true → last < first + width

instance (width : Nat) (pattern : List Bool) : Decidable (Burst width pattern) :=
  decidable_of_iff (∀ first < pattern.length, ∀ last < pattern.length,
      pattern[first]? = some true → pattern[last]? = some true → last < first + width)
    ⟨fun near first last setFirst setLast =>
      near first (List.getElem?_eq_some_iff.mp setFirst).1 last
        (List.getElem?_eq_some_iff.mp setLast).1 setFirst setLast,
    fun burst first _ last _ => burst first last⟩

theorem Burst.tail {bit : Bool} {rest : List Bool} (burst : Burst width (bit :: rest)) :
    Burst width rest := by
  intro first last setFirst setLast
  have := burst (first + 1) (last + 1) setFirst setLast
  omega

/-- Clear bits only move the register. -/
theorem crcBits_replicate_false (register : BitVec width) (count : Nat) :
    generator.crcBits register (List.replicate count false) = generator.shifts count register := by
  induction count generalizing register with
  | zero => rfl
  | succ count ih =>
    have moves : generator.bitStep register false = generator.shift register := by
      rw [bitStep_eq_shift]
      simp [bitWord]
    rw [List.replicate_succ, crcBits_cons, moves, ih, shifts_succ]

/-- **A burst alone leaves a nonzero register.** -/
theorem crcBits_zero_ne_of_burst {pattern : List Bool} (burst : Burst width pattern)
    (nonzero : true ∈ pattern) : generator.crcBits 0#(width) pattern ≠ 0#(width) := by
  have positive := generator.width_pos
  induction pattern with
  | nil => cases nonzero
  | cons bit rest ih =>
    cases bit with
    | false =>
      -- the register stays at zero until the first set bit
      have idle : generator.bitStep 0#(width) false = 0#(width) := by simp [Generator.bitStep]
      rw [crcBits_cons, idle]
      exact ih burst.tail ((List.mem_cons.mp nonzero).resolve_left (by decide))
    | true =>
      -- one width later the burst is over, and what follows only moves the register
      have ended : (true :: rest).drop width =
          List.replicate ((true :: rest).drop width).length false := by
        refine List.eq_replicate_of_mem fun bit member => ?_
        obtain ⟨place, found⟩ := List.mem_iff_getElem?.mp member
        rw [List.getElem?_drop] at found
        cases bit with
        | false => rfl
        | true =>
          have := burst 0 _ rfl found
          omega
      have short : ((true :: rest).take width).length ≤ width := by
        rw [List.length_take]
        exact Nat.min_le_left _ _
      have first : (word width ((true :: rest).take width)).getLsbD 0 = true := by
        obtain ⟨more, rfl⟩ : ∃ more, width = more + 1 := ⟨width - 1, by omega⟩
        rw [getLsbD_word]
        simp
      rw [← List.take_append_drop width (true :: rest), crcBits_append, ended,
        crcBits_replicate_false, crcBits_eq_shifts generator _ _ short, BitVec.zero_xor,
        ← shifts_add]
      intro zero
      have spelled := shifts_inj generator _ (zero.trans (shifts_of_zero generator _).symm)
      rw [spelled] at first
      simp at first

theorem true_mem_zipWith_xor {bits bits' : List Bool} (same : bits.length = bits'.length)
    (differ : bits ≠ bits') : true ∈ List.zipWith (· ^^ ·) bits bits' := by
  induction bits generalizing bits' with
  | nil =>
    cases bits' with
    | nil => exact absurd rfl differ
    | cons _ _ => cases same
  | cons bit rest ih =>
    cases bits' with
    | nil => cases same
    | cons bit' rest' =>
      rw [List.zipWith_cons_cons, List.mem_cons]
      by_cases head : bit = bit'
      · refine Or.inr (ih (Nat.succ.inj same) fun tail => differ ?_)
        rw [head, tail]
      · left
        cases bit <;> cases bit' <;> simp_all

/-- **Bursts no wider than the register are detected**, in messages of any length. -/
theorem crcBits_ne_of_burst (register : BitVec width) {bits bits' : List Bool}
    (same : bits.length = bits'.length) (differ : bits ≠ bits')
    (burst : Burst width (List.zipWith (· ^^ ·) bits bits')) :
    generator.crcBits register bits ≠ generator.crcBits register bits' := by
  intro equal
  apply crcBits_zero_ne_of_burst generator burst (true_mem_zipWith_xor same differ)
  have linear := crcBits_xor generator register register bits bits' same
  rwa [equal, BitVec.xor_self, BitVec.xor_self] at linear

/-! ### Octets -/

/-- The bits of an octet in the order of transmission, least significant first. -/
def octetBits (octet : BitVec 8) : List Bool := (List.range 8).map octet.getLsbD

@[simp] theorem length_octetBits (octet : BitVec 8) : (octetBits octet).length = 8 := by
  simp [octetBits]

theorem getElem?_octetBits (octet : BitVec 8) {position : Nat} (inside : position < 8) :
    (octetBits octet)[position]? = some (octet.getLsbD position) := by
  simp [octetBits, inside]

/-- The bits of a message in the order of transmission. -/
def messageBits (message : List (BitVec 8)) : List Bool := message.flatMap octetBits

theorem length_messageBits (message : List (BitVec 8)) :
    (messageBits message).length = 8 * message.length := by
  induction message with
  | nil => rfl
  | cons octet rest ih =>
    rw [messageBits, List.flatMap_cons, List.length_append, length_octetBits, List.length_cons]
    rw [messageBits] at ih
    omega

theorem getElem?_messageBits (message : List (BitVec 8)) (position : Nat) :
    (messageBits message)[position]? =
      message[position / 8]?.map fun octet => octet.getLsbD (position % 8) := by
  induction message generalizing position with
  | nil => simp [messageBits]
  | cons octet rest ih =>
    rw [messageBits, List.flatMap_cons, ← messageBits, List.getElem?_append, length_octetBits]
    split
    · rename_i inside
      rw [getElem?_octetBits _ inside, Nat.div_eq_of_lt inside, Nat.mod_eq_of_lt inside]
      rfl
    · rename_i outside
      obtain ⟨later, rfl⟩ : ∃ later, position = later + 8 := ⟨position - 8, by omega⟩
      rw [Nat.add_sub_cancel, ih, Nat.add_div_right _ (by omega), Nat.add_mod_right]
      rfl

theorem messageBits_inj {message message' : List (BitVec 8)}
    (same : messageBits message = messageBits message') : message = message' := by
  have lengths : message.length = message'.length := by
    have := congrArg List.length same
    rw [length_messageBits, length_messageBits] at this
    omega
  refine List.ext_getElem lengths fun place inside inside' => ?_
  apply BitVec.eq_of_getLsbD_eq
  intro position small
  have bit := congrArg (fun bits => bits[8 * place + position]?) same
  simp only [getElem?_messageBits] at bit
  rw [show (8 * place + position) / 8 = place by omega,
    show (8 * place + position) % 8 = position by omega, List.getElem?_eq_getElem inside,
    List.getElem?_eq_getElem inside'] at bit
  simpa using bit

/-- The exclusive or of two messages, octet by octet, is that of their bits. -/
theorem messageBits_zipWith_xor (message message' : List (BitVec 8)) :
    messageBits (List.zipWith (· ^^^ ·) message message') =
      List.zipWith (· ^^ ·) (messageBits message) (messageBits message') := by
  apply List.ext_getElem?
  intro position
  rw [getElem?_messageBits, List.getElem?_zipWith, List.getElem?_zipWith, getElem?_messageBits,
    getElem?_messageBits]
  cases message[position / 8]? <;> cases message'[position / 8]? <;>
    simp [BitVec.getLsbD_xor]

/-- **Leaving octets out of an error pattern keeps a burst a burst**: the others only move
closer together. -/
theorem Burst.sublist {errors fewer : List (BitVec 8)} (burst : Burst width (messageBits errors))
    (sublist : fewer.Sublist errors) : Burst width (messageBits fewer) := by
  obtain ⟨place, kept⟩ := List.sublist_iff_exists_orderEmbedding_getElem?_eq.mp sublist
  have spread : ∀ distance first, place first + distance ≤ place (first + distance) := by
    intro distance first
    induction distance with
    | zero => exact le_rfl
    | succ distance ih =>
      have next : place (first + distance) < place (first + distance + 1) :=
        place.strictMono (Nat.lt_succ_self _)
      rw [← Nat.add_assoc, ← Nat.add_assoc]
      omega
  have moved : ∀ position, (messageBits fewer)[position]? = some true →
      (messageBits errors)[8 * place (position / 8) + position % 8]? = some true := by
    intro position set
    rw [getElem?_messageBits, kept] at set
    rw [getElem?_messageBits, show (8 * place (position / 8) + position % 8) / 8 =
      place (position / 8) by omega, show (8 * place (position / 8) + position % 8) % 8 =
      position % 8 by omega]
    exact set
  intro first last setFirst setLast
  have near := burst _ _ (moved first setFirst) (moved last setLast)
  by_cases ordered : first / 8 ≤ last / 8
  · have apart := spread (last / 8 - first / 8) (first / 8)
    rw [Nat.add_sub_cancel' ordered] at apart
    omega
  · have wide := burst _ _ (moved first setFirst) (moved first setFirst)
    omega

theorem word_octetBits (octet : BitVec 8) :
    word width (octetBits octet) = octet.setWidth width := by
  apply BitVec.eq_of_getLsbD_eq
  intro position _
  rw [getLsbD_word, BitVec.getLsbD_setWidth, List.getD_eq_getElem?_getD]
  by_cases inside : position < 8
  · rw [getElem?_octetBits _ inside, Option.getD_some]
  · rw [List.getElem?_eq_none (by rw [length_octetBits]; omega),
      BitVec.getLsbD_of_ge octet position (by omega), Option.getD_none]

/-- The check of octets, from a register. -/
def Generator.crcOctets (register : BitVec width) (message : List (BitVec 8)) : BitVec width :=
  generator.crcBits register (messageBits message)

theorem crcOctets_cons (register : BitVec width) (octet : BitVec 8) (rest : List (BitVec 8)) :
    generator.crcOctets register (octet :: rest) =
      generator.crcOctets (generator.crcBits register (octetBits octet)) rest := by
  rw [Generator.crcOctets, messageBits, List.flatMap_cons, crcBits_append]
  rfl

/-! ### A table of moves -/

/-- One octet from a table: the entry of the register's low octet exclusive or the message octet,
and the rest of the register moved down. -/
def tableStep (table : BitVec 8 → BitVec width) (register : BitVec width) (octet : BitVec 8) :
    BitVec width :=
  (register >>> 8) ^^^ table ((register ^^^ octet.setWidth width).setWidth 8)

/-- A word is its high part, moved up again, exclusive or its low octet. -/
theorem split_octet (value : BitVec width) :
    value = ((value >>> 8) <<< 8) ^^^ (value.setWidth 8).setWidth width := by
  apply BitVec.eq_of_getLsbD_eq
  intro position inside
  rw [BitVec.getLsbD_xor, BitVec.getLsbD_shiftLeft, BitVec.getLsbD_ushiftRight,
    BitVec.getLsbD_setWidth, BitVec.getLsbD_setWidth]
  by_cases low : position < 8
  · simp [low, inside]
  · simp [low, inside, show 8 + (position - 8) = position by omega]

/-- **A table whose entries are eight moves computes the check octet by octet.** -/
theorem tableStep_eq (wide : 8 ≤ width) (table : BitVec 8 → BitVec width)
    (entries : ∀ index, table index = generator.shifts 8 (index.setWidth width))
    (register : BitVec width) (octet : BitVec 8) :
    tableStep table register octet = generator.crcBits register (octetBits octet) := by
  have high : (register ^^^ octet.setWidth width) >>> 8 = register >>> 8 := by
    apply BitVec.eq_of_getLsbD_eq
    intro position _
    simp [BitVec.getLsbD_ushiftRight, BitVec.getLsbD_setWidth]
  have empty : ∀ position, width - 8 ≤ position → (register >>> 8).getLsbD position = false := by
    intro position far
    rw [BitVec.getLsbD_ushiftRight, BitVec.getLsbD_of_ge _ _ (by omega)]
  rw [crcBits_eq_shifts generator register _ (by rw [length_octetBits]; exact wide),
    length_octetBits, word_octetBits, tableStep, entries]
  conv_rhs => rw [split_octet (register ^^^ octet.setWidth width), shifts_xor, high,
    shifts_shiftLeft generator 8 (register >>> 8) empty]

end HdlcMarquee.Generic.Crc
