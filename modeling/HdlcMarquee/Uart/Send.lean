/-
**Handing a frame to the UART (`UART/uart.c` lines 16–25).**

`UART_send` writes byte after byte into the transmit buffer and stops when it is full. Of a frame that
finds the buffer empty it takes the first `BUFFER_SIZE - 1` bytes, which is all of it exactly when the
frame is no longer (`uartSend_frame`).
-/

import HdlcMarquee.Uart.CircularBuf
import HdlcMarquee.Hdlc.FrameLength

namespace HdlcMarquee

open Generic

/-- `UART_send`, on the transmit buffer; no byte leaves the buffer meanwhile. -/
def uartSend (usartTxBuffer : CircularBuffer) : List Byte → CircularBuffer
  | [] => usartTxBuffer
  | byte :: rest =>
    if bufferFull usartTxBuffer then usartTxBuffer
    else uartSend (writeBuffer usartTxBuffer byte.toNat) rest

/-- **The bytes are appended while there is room.** -/
theorem uartSend_holds {tx : CircularBuffer} {queue : List Byte} (holds : tx.Holds queue)
    (data : List Byte) :
    (uartSend tx data).Holds (queue ++ data.take (bufferSize - 1 - queue.length)) := by
  induction data generalizing tx queue with
  | nil => rwa [List.take_nil, List.append_nil]
  | cons byte rest ih =>
    by_cases full : queue.length = bufferSize - 1
    · rw [uartSend, if_pos ((bufferFull_iff holds).mpr full), full, Nat.sub_self, List.take_zero,
        List.append_nil]
      exact holds
    · have notFull : ¬ bufferFull tx = true := fun is => full ((bufferFull_iff holds).mp is)
      have short : queue.length < bufferSize := CellRing.Holds.short holds
      have room : bufferSize - 1 - queue.length = bufferSize - 1 - (queue.length + 1) + 1 := by omega
      have value : BitVec.ofInt 8 (byte.toNat : Int) = byte := by simp
      have written := ih (writeBuffer_holds holds full byte.toNat)
      rw [value, List.length_append, List.length_singleton, List.append_assoc,
        List.singleton_append] at written
      rwa [uartSend, if_neg notFull, room, List.take_succ_cons]

/-- **What the UART takes of a frame**: its first `BUFFER_SIZE - 1` bytes, and all of it exactly when
it is no longer. -/
theorem uartSend_frame {tx : CircularBuffer} (empty : tx.bufHead = tx.bufTail)
    (inside : tx.bufHead < bufferSize) {control : HdlcControlT} {payload frame : List Byte}
    (built : hdlcFrameData control (some payload) payload.length = .ok frame) :
    (uartSend tx frame).bytes = frame.take (bufferSize - 1) ∧
      ((uartSend tx frame).bytes = frame ↔ frameLength control payload ≤ bufferSize - 1) := by
  have taken : (uartSend tx frame).bytes = frame.take (bufferSize - 1) :=
    bytes_eq (uartSend_holds (holds_nil empty inside) frame)
  refine ⟨taken, ?_⟩
  rw [taken, ← length_hdlcFrameData built]
  exact List.take_eq_self_iff frame

/-- A frame of one octet fits. -/
theorem uartSend_one_octet :
    (uartSend ⟨fun _ => 0, 30, 30⟩ [0x7E, 0xFF, 0x10, 0x21, 0x25, 0xA5, 0x7E]).bytes =
        [0x7E, 0xFF, 0x10, 0x21, 0x25, 0xA5, 0x7E] ∧
      ((uartSend ⟨fun _ => 0, 30, 30⟩ [0x7E, 0xFF, 0x10, 0x21, 0x25, 0xA5, 0x7E]).bytes =
        [0x7E, 0xFF, 0x10, 0x21, 0x25, 0xA5, 0x7E] ↔ frameLength ⟨.iFrame, 0⟩ [0x21] ≤ 31) :=
  uartSend_frame rfl (by decide)
    (show hdlcFrameData ⟨.iFrame, 0⟩ (some [0x21]) 1 = _ by decide +kernel)

/-- Of a payload of 26 octets the closing flag is lost. -/
theorem not_uartSend_26_octets :
    ¬ ∀ (tx : CircularBuffer) (seqNo : BitVec 3) (payload frame : List Byte),
      tx.bufHead = tx.bufTail → tx.bufHead < bufferSize →
      1 ≤ payload.length → payload.length ≤ 64 →
      hdlcFrameData ⟨.iFrame, seqNo⟩ (some payload) payload.length = .ok frame →
      (uartSend tx frame).bytes = frame := by
  intro takes
  have whole := takes ⟨fun _ => 0, 0, 0⟩ 0 (List.replicate 26 0) _ rfl (by decide) (by decide)
    (by decide) (hdlcFrameData_some _ _)
  revert whole
  decide +kernel

end HdlcMarquee
