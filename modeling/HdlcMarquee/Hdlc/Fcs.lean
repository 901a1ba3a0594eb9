/-
**The frame check sequence (`hdlc/fcs.c`).**

`calcFcs` folds one octet into the running check by a table of 256 words. The table is the one of
eight register moves of the reflected CRC-16/CCITT (`fcstab_eq`), so the fold over any message is
that check (`foldl_calcFcs`), and everything the parser and the encoder rely on is an instance of
the general laws of `Generic.Crc`:

* `foldl_calcFcs_good_iff`: two octets after a message lead to the good residue exactly when they
  are the inverted check of the message, low octet first;
* `foldl_calcFcs_ne_of_burst`: a burst of at most 16 bits changes the check;
* `foldl_calcFcs_crcCcitt`: the fold is the bit-by-bit check of the documentation.
-/

import HdlcMarquee.Generic.Crc
import Mathlib.Data.Vector.Basic

set_option maxRecDepth 8000

namespace HdlcMarquee

open Generic Generic.Crc

/-- `uint8_t`, `unsigned char`, and the value of a `char` modulo 256. -/
abbrev Byte := BitVec 8

/-- `FCS_INIT_VALUE`. -/
def fcsInitValue : BitVec 16 := 0xFFFF

/-- `FCS_GOOD_VALUE`. -/
def fcsGoodValue : BitVec 16 := 0xF0B8

/-- `FCS_INVERT_MASK`. -/
def fcsInvertMask : BitVec 16 := 0xFFFF

/-- The reflected lookup table. -/
def fcstab : Vector (BitVec 16) 256 := #v[
  0x0000, 0x1189, 0x2312, 0x329b, 0x4624, 0x57ad, 0x6536, 0x74bf, 0x8c48,
  0x9dc1, 0xaf5a, 0xbed3, 0xca6c, 0xdbe5, 0xe97e, 0xf8f7, 0x1081, 0x0108,
  0x3393, 0x221a, 0x56a5, 0x472c, 0x75b7, 0x643e, 0x9cc9, 0x8d40, 0xbfdb,
  0xae52, 0xdaed, 0xcb64, 0xf9ff, 0xe876, 0x2102, 0x308b, 0x0210, 0x1399,
  0x6726, 0x76af, 0x4434, 0x55bd, 0xad4a, 0xbcc3, 0x8e58, 0x9fd1, 0xeb6e,
  0xfae7, 0xc87c, 0xd9f5, 0x3183, 0x200a, 0x1291, 0x0318, 0x77a7, 0x662e,
  0x54b5, 0x453c, 0xbdcb, 0xac42, 0x9ed9, 0x8f50, 0xfbef, 0xea66, 0xd8fd,
  0xc974, 0x4204, 0x538d, 0x6116, 0x709f, 0x0420, 0x15a9, 0x2732, 0x36bb,
  0xce4c, 0xdfc5, 0xed5e, 0xfcd7, 0x8868, 0x99e1, 0xab7a, 0xbaf3, 0x5285,
  0x430c, 0x7197, 0x601e, 0x14a1, 0x0528, 0x37b3, 0x263a, 0xdecd, 0xcf44,
  0xfddf, 0xec56, 0x98e9, 0x8960, 0xbbfb, 0xaa72, 0x6306, 0x728f, 0x4014,
  0x519d, 0x2522, 0x34ab, 0x0630, 0x17b9, 0xef4e, 0xfec7, 0xcc5c, 0xddd5,
  0xa96a, 0xb8e3, 0x8a78, 0x9bf1, 0x7387, 0x620e, 0x5095, 0x411c, 0x35a3,
  0x242a, 0x16b1, 0x0738, 0xffcf, 0xee46, 0xdcdd, 0xcd54, 0xb9eb, 0xa862,
  0x9af9, 0x8b70, 0x8408, 0x9581, 0xa71a, 0xb693, 0xc22c, 0xd3a5, 0xe13e,
  0xf0b7, 0x0840, 0x19c9, 0x2b52, 0x3adb, 0x4e64, 0x5fed, 0x6d76, 0x7cff,
  0x9489, 0x8500, 0xb79b, 0xa612, 0xd2ad, 0xc324, 0xf1bf, 0xe036, 0x18c1,
  0x0948, 0x3bd3, 0x2a5a, 0x5ee5, 0x4f6c, 0x7df7, 0x6c7e, 0xa50a, 0xb483,
  0x8618, 0x9791, 0xe32e, 0xf2a7, 0xc03c, 0xd1b5, 0x2942, 0x38cb, 0x0a50,
  0x1bd9, 0x6f66, 0x7eef, 0x4c74, 0x5dfd, 0xb58b, 0xa402, 0x9699, 0x8710,
  0xf3af, 0xe226, 0xd0bd, 0xc134, 0x39c3, 0x284a, 0x1ad1, 0x0b58, 0x7fe7,
  0x6e6e, 0x5cf5, 0x4d7c, 0xc60c, 0xd785, 0xe51e, 0xf497, 0x8028, 0x91a1,
  0xa33a, 0xb2b3, 0x4a44, 0x5bcd, 0x6956, 0x78df, 0x0c60, 0x1de9, 0x2f72,
  0x3efb, 0xd68d, 0xc704, 0xf59f, 0xe416, 0x90a9, 0x8120, 0xb3bb, 0xa232,
  0x5ac5, 0x4b4c, 0x79d7, 0x685e, 0x1ce1, 0x0d68, 0x3ff3, 0x2e7a, 0xe70e,
  0xf687, 0xc41c, 0xd595, 0xa12a, 0xb0a3, 0x8238, 0x93b1, 0x6b46, 0x7acf,
  0x4854, 0x59dd, 0x2d62, 0x3ceb, 0x0e70, 0x1ff9, 0xf78f, 0xe606, 0xd49d,
  0xc514, 0xb1ab, 0xa022, 0x92b9, 0x8330, 0x7bc7, 0x6a4e, 0x58d5, 0x495c,
  0x3de3, 0x2c6a, 0x1ef1, 0x0f78]

/-- `calc_fcs`; the index `(fcs ^ value) & 0xff` is the low octet. -/
def calcFcs (fcs : BitVec 16) (value : Byte) : BitVec 16 :=
  (fcs >>> 8) ^^^ fcstab[((fcs ^^^ value.setWidth 16).setWidth 8).toNat]

/-! ### The check it computes -/

/-- CRC-16/CCITT, `x ^ 16 + x ^ 12 + x ^ 5 + 1` reflected. -/
def ccitt : Generator 16 := ⟨0x8408, by decide⟩

/-- **Every table entry is eight register moves of its index.** -/
theorem fcstab_eq (index : BitVec 8) :
    fcstab[index.toNat] = ccitt.shifts 8 (index.setWidth 16) := by
  have entries : ∀ index : Fin 256,
      fcstab[index.val] = ccitt.shifts 8 ((BitVec.ofFin index : BitVec 8).setWidth 16) := by
    decide +kernel
  exact entries index.toFin

theorem calcFcs_eq (fcs : BitVec 16) (value : Byte) :
    calcFcs fcs value = ccitt.crcBits fcs (octetBits value) :=
  tableStep_eq ccitt (by decide) (fun index => fcstab[index.toNat]) fcstab_eq fcs value

/-- **The fold of `calc_fcs` is the bit-serial check.** -/
theorem foldl_calcFcs (fcs : BitVec 16) (message : List Byte) :
    message.foldl calcFcs fcs = ccitt.crcOctets fcs message := by
  induction message generalizing fcs with
  | nil => rfl
  | cons octet rest ih => rw [List.foldl_cons, ih, calcFcs_eq, crcOctets_cons]

/-! ### The documented check, bit by bit -/

/-- The generator `x ^ 16 + x ^ 12 + x ^ 5 + 1` without its first term. -/
def ccittPolynomial : BitVec 16 := 0x1021

/-- One bit of the message: the register moves right, and the reflected generator comes in when the
bit shifted out differs from the message bit. -/
def crcCcittBit (register : BitVec 16) (bit : Bool) : BitVec 16 :=
  if register.getLsbD 0 = bit then register >>> 1 else (register >>> 1) ^^^ 0x8408

/-- One octet, least significant bit first. -/
def crcCcittOctet (register : BitVec 16) (octet : Byte) : BitVec 16 :=
  (List.range 8).foldl (fun register position => crcCcittBit register (octet.getLsbD position))
    register

/-- CRC-16/CCITT of a message, from any value of the register. -/
def crcCcitt (register : BitVec 16) (message : List Byte) : BitVec 16 :=
  message.foldl crcCcittOctet register

theorem crcCcittBit_eq (register : BitVec 16) (bit : Bool) :
    crcCcittBit register bit = ccitt.bitStep register bit := by
  unfold crcCcittBit Generator.bitStep
  by_cases same : register.getLsbD 0 = bit
  · rw [if_pos same, same]
    simp
  · rw [if_neg same, if_pos (by simpa using same)]
    rfl

theorem crcCcittOctet_eq (register : BitVec 16) (octet : Byte) :
    crcCcittOctet register octet = ccitt.crcBits register (octetBits octet) := by
  unfold crcCcittOctet octetBits Generator.crcBits
  rw [List.foldl_map]
  simp only [crcCcittBit_eq]

/-- **The table computes the documented check**: for every message and every starting value, the fold
of `calc_fcs` is the CRC-16/CCITT read bit by bit. -/
theorem foldl_calcFcs_crcCcitt :
    ccittPolynomial.reverse = 0x8408 ∧
      ∀ (fcs : BitVec 16) (message : List Byte), message.foldl calcFcs fcs = crcCcitt fcs message := by
  refine ⟨by decide, fun fcs message => ?_⟩
  have octet : calcFcs = crcCcittOctet := by
    funext fcs value
    rw [calcFcs_eq, crcCcittOctet_eq]
  rw [octet, crcCcitt]

/-! ### The residue -/

/-- The octets of a check in the order they are sent: low, then high. -/
def fcsOctets (fcs : BitVec 16) : List Byte := [fcs.setWidth 8, (fcs >>> 8).setWidth 8]

theorem messageBits_fcsOctets (fcs : BitVec 16) : word 16 (messageBits (fcsOctets fcs)) = fcs := by
  apply BitVec.eq_of_getLsbD_eq
  intro position inside
  rw [getLsbD_word, List.getD_eq_getElem?_getD, getElem?_messageBits, fcsOctets]
  rcases Nat.lt_or_ge position 8 with low | high
  · rw [Nat.div_eq_of_lt low, Nat.mod_eq_of_lt low]
    simp [inside, low]
  · rw [show position / 8 = 1 by omega, show position % 8 = position - 8 by omega]
    simp [inside, show 8 + (position - 8) = position by omega, show position - 8 < 8 by omega]

/-- **The residue law.** From any running check, two octets lead to the good residue exactly when
they are the octets of the inverted check. -/
theorem foldl_calcFcs_good_iff (fcs : BitVec 16) (low high : Byte) :
    [low, high].foldl calcFcs fcs = fcsGoodValue ↔
      [low, high] = fcsOctets (fcs ^^^ fcsInvertMask) := by
  have residue : fcsGoodValue = ccitt.shifts 16 fcsInvertMask := by decide +kernel
  have full : (messageBits [low, high]).length = 16 := length_messageBits _
  have sent : (messageBits (fcsOctets (fcs ^^^ fcsInvertMask))).length = 16 := length_messageBits _
  rw [foldl_calcFcs, residue, Generator.crcOctets, crcBits_eq_residue_iff ccitt _ _ _ full]
  constructor
  · intro spelled
    rw [← messageBits_fcsOctets (fcs ^^^ fcsInvertMask)] at spelled
    exact messageBits_inj (word_inj (full.trans sent.symm) full.le spelled)
  · intro inverted
    rw [inverted, messageBits_fcsOctets]

/-- **Bursts of at most 16 bits change the check**, for messages of any length. -/
theorem foldl_calcFcs_ne_of_burst (fcs : BitVec 16) {message message' : List Byte}
    (same : message.length = message'.length) (differ : message ≠ message')
    (burst : Burst 16 (messageBits (List.zipWith (· ^^^ ·) message message'))) :
    message.foldl calcFcs fcs ≠ message'.foldl calcFcs fcs := by
  rw [foldl_calcFcs, foldl_calcFcs]
  rw [messageBits_zipWith_xor] at burst
  refine crcBits_ne_of_burst ccitt fcs ?_ (fun bits => differ (messageBits_inj bits)) burst
  rw [length_messageBits, length_messageBits, same]

end HdlcMarquee
