/-
**The program of `hdlc/main.c`.**

`main` lets one client talk to itself: it connects, polls two hundred times with a byte that nobody has
initialised, reads its own connect frame as the answer, sends the octet 33 and reads its own I-frame.
`hdlcMain_prints`: whatever stands in that byte and in everything else that is not initialised, and whatever
the sizes of the target, no call fails, no null pointer is stored through, and 33 is printed.
-/

import HdlcMarquee.Client.Delivery
import HdlcMarquee.Client.Link
import HdlcMarquee.Client.RawFrame

namespace HdlcMarquee

open Generic

/-! ### The program -/

/-- What `main` finds in memory that nobody has initialised; `recvControl` and `behind` are found by its
decode calls, one after the other. -/
structure Uninitialised where
  hdlc : Client
  bufferForEx : List Byte
  fakeBuffer : Byte
  frameData : HdlcControlT
  bufferForExData : List Byte
  recivedData : Byte
  recvControl : Nat → RecvControl
  behind : Nat → Nat → Byte

/-- The arguments and the memory of a decode call. -/
def Uninitialised.call (found : Uninitialised) (number : Nat) (buffer : List Byte) : DecodeCall :=
  ⟨some buffer, found.recvControl number, found.behind number⟩

/-- What `main` prints. -/
inductive MainOutput
  | errInGetFrame (errno : Errno)
  | errConnect (err : Err)
  | errSend (err : Err)
  | recivedData (value : Byte)
  deriving DecidableEq, Repr

/-- `hdlc_get_raw_frame` into a buffer, and what it prints. -/
def rawFrameInto (client : Client) (frame : HdlcControlT) (layout : Layout) (buffer : List Byte) :
    List Byte × List MainOutput :=
  match hdlcGetRawFrame client frame layout with
  | .ok bytes => (bytes ++ buffer.drop bytes.length, [])
  | .error errno => (buffer, [.errInGetFrame errno])

/-- The body of the loop of `main`; nothing comes of a null pointer that is stored through. -/
def pollFake (found : Uninitialised) (world : Globals × Client) (number : Nat) :
    Option (Globals × Client) :=
  let (client, _) := hdlcTimeoutHandler world.2 1
  let decoded := hdlcDecodeRecivedRawData world.1 client (found.call number [found.fakeBuffer])
  if decoded.delivered = none then some (decoded.globals, decoded.client) else none

/-- `main` up to the answer to the connect frame, and what it prints. -/
def mainConnect (found : Uninitialised) (layout : Layout) :
    Option ((Globals × Client) × List MainOutput) := do
  let (globals, client) := initHdlcClient ⟨0, hdlcState⟩ found.hdlc 200
  let (client, frame) := hdlcConnect client
  let (bufferForEx, first) := rawFrameInto client frame layout found.bufferForEx
  let (globals, client) ← (List.range 200).foldlM (pollFake found) (globals, client)
  let (bufferForEx, second) := rawFrameInto client frame layout bufferForEx
  let decoded := hdlcDecodeRecivedRawData globals client (found.call 200 bufferForEx)
  let errConnect := match decoded.ret with
    | .error err => [MainOutput.errConnect err]
    | .ok () => []
  if decoded.delivered = none then some ((decoded.globals, decoded.client), first ++ second ++ errConnect)
  else none

/-- `main` from there on: what it prints. -/
def mainSend (found : Uninitialised) (layout : Layout) (world : Globals × Client) : List MainOutput :=
  let (client, _, frameData) := hdlcSendData world.2 (fun _ => 33) 1
  let (bufferForExData, third) :=
    rawFrameInto client (frameData.getD found.frameData) layout found.bufferForExData
  let decoded := hdlcDecodeRecivedRawData world.1 client (found.call 201 bufferForExData)
  let errSend := match decoded.ret with
    | .error err => [MainOutput.errSend err]
    | .ok () => []
  third ++ errSend ++ [.recivedData ((decoded.delivered.map Prod.fst).getD found.recivedData)]

/-- `main` of `hdlc/main.c`: what it prints. -/
def hdlcMain (found : Uninitialised) (layout : Layout) : Option (List MainOutput) := do
  let (world, printed) ← mainConnect found layout
  some (printed ++ mainSend found layout world)

/-! ### What it prints -/

theorem rawFrameInto_eq (client : Client) (frame : HdlcControlT) (layout : Layout) (buffer : List Byte) :
    rawFrameInto client frame layout buffer =
      (frameBytes frame (client.payload layout) ++
        buffer.drop (frameBytes frame (client.payload layout)).length, []) := by
  unfold rawFrameInto
  rw [hdlcGetRawFrame_eq]

/-- A single byte begins no frame, however often it comes. -/
theorem run_replicate (count : Nat) (byte : Byte) :
    bodies (List.replicate count byte) = [] ∧ (position (List.replicate count byte)).body = [] := by
  unfold bodies position
  by_cases flag : byte = hdlcFlagSequence
  · subst flag
    cases count with
    | zero => exact ⟨rfl, rfl⟩
    | succ count =>
      rw [List.replicate_succ, run_cons, step_hunting_flag, run_flags]
      exact ⟨rfl, rfl⟩
  · rw [run_hunting fun member => flag (List.eq_of_mem_replicate member).symm]
    exact ⟨rfl, rfl⟩

/-- **The loop** leaves the client as it is, but for its time. -/
theorem foldlM_pollFake (found : Uninitialised) (bf : Int) (client : Client) (count : Nat) :
    (List.range count).foldlM (pollFake found) (globalsAt bf [], client) =
      some (globalsAt bf (List.replicate count found.fakeBuffer),
        { client with connectingFrameTimeout := client.connectingFrameTimeout - count }) := by
  induction count with
  | zero => simp
  | succ count ih =>
    let waiting : Client := { client with connectingFrameTimeout := client.connectingFrameTimeout - count }
    let call := found.call count [found.fakeBuffer]
    have before := (run_replicate count found.fakeBuffer).1
    have waits : bodies (List.replicate count found.fakeBuffer ++ [found.fakeBuffer]) = [] := by
      rw [← List.replicate_succ']
      exact (run_replicate (count + 1) found.fakeBuffer).1
    have decoded := decode_waits bf (hdlcTimeoutHandler waiting 1).1
      (show call.buffer = some [found.fakeBuffer] from rfl) before waits
    have poll : pollFake found (globalsAt bf (List.replicate count found.fakeBuffer), waiting) count =
        some (globalsAt bf (List.replicate (count + 1) found.fakeBuffer),
          (hdlcTimeoutHandler waiting 1).1) := by
      unfold pollFake
      dsimp only
      rw [decoded, List.replicate_succ']
      rfl
    rw [List.range_succ, List.foldlM_append, ih]
    show (pollFake found (globalsAt bf (List.replicate count found.fakeBuffer), waiting) count).bind
      some = _
    rw [poll]
    simp only [Option.bind_some, waiting, hdlcTimeoutHandler]
    push_cast
    rw [sub_sub]

/-- A frame is heard behind any number of one byte. -/
theorem heard_behind_replicate (count : Nat) (byte : Byte) (control : HdlcControlT)
    (payload rest : List Byte) {call : DecodeCall}
    (passed : call.buffer = some (frameBytes control payload ++ rest)) :
    heard (List.replicate count byte) call = .ok (.of control) := by
  -- the bytes are noise, or flags in front of the opening flag
  obtain ⟨noise, flags, quiet, line⟩ : ∃ noise flags, hdlcFlagSequence ∉ noise ∧
      List.replicate count byte ++ [hdlcFlagSequence] =
        noise ++ List.replicate (flags + 1) hdlcFlagSequence := by
    by_cases flag : byte = hdlcFlagSequence
    · rw [flag, ← List.replicate_succ']
      exact ⟨[], count, List.not_mem_nil, rfl⟩
    · exact ⟨_, 0, fun member => flag (List.eq_of_mem_replicate member).symm, rfl⟩
  have bytes : List.replicate count byte ++ (frameBytes control payload ++ rest) =
      noise ++ List.replicate (flags + 1) hdlcFlagSequence ++
        (sentBody control payload ++ [hdlcFlagSequence]) ++ rest := by
    rw [← line]
    simp [frameBytes]
  exact heard_sent quiet (run_replicate count byte).2 bytes passed

/-- A client that waits for the number 0 takes an S-frame for the answer. -/
theorem decode_answer {count : Nat} {byte : Byte} {client : Client} {call : DecodeCall} {decoded : Decoded}
    (made : hdlcDecodeRecivedRawData (globalsAt 200 (List.replicate count byte)) client call = decoded)
    (index : client.currentIndexFrame = 0) {payload rest : List Byte}
    (passed : call.buffer = some (frameBytes ⟨.sFrame, 0⟩ payload ++ rest)) :
    decoded.ret = .ok () ∧ decoded.globals = globalsAt 200 [] ∧
      decoded.client.state = .readyState ∧ decoded.delivered = none := by
  subst made
  have hears := heard_behind_replicate count byte ⟨.sFrame, 0⟩ payload rest passed
  have before := (run_replicate count byte).1
  have globals := decode_globals 200 client before call
  have acted := decode_heard 200 before client call
  have current : (RecvControl.of ⟨.sFrame, 0⟩).seqNo.setWidth 8 = client.currentIndexFrame := index.symm
  rw [bufferStep_of_heard hears] at globals
  rw [hears, respond, hdlcDecodeAccepted, if_neg (not_not_intro current)] at acted
  exact ⟨congrArg Prod.fst acted, globals, congrArg (fun made => made.2.1.state) acted,
    congrArg (fun made => made.2.2) acted⟩

/-- An I-frame with one octet, read from a buffer that begins with it, delivers the octet. -/
theorem decode_octet {client : Client} {call : DecodeCall} {decoded : Decoded}
    (made : hdlcDecodeRecivedRawData (globalsAt 200 []) client call = decoded)
    (index : client.currentIndexFrame = 0) {rest : List Byte}
    (passed : call.buffer = some (frameBytes ⟨.iFrame, 0⟩ [33] ++ rest)) :
    decoded.ret = .ok () ∧ decoded.delivered = some (33, 1) := by
  subst made
  have hears := heard_behind_replicate 0 0 ⟨.iFrame, 0⟩ [33] rest passed
  have acted := decode_heard 200 (show bodies [] = [] from rfl) client call
  have current : (0 : BitVec 3).setWidth 8 = client.currentIndexFrame := index.symm
  have bytes : frameBytes ⟨.iFrame, 0⟩ [33] = [0x7E, 0xFF, 0x10, 0x21, 0x25, 0xA5, 0x7E] := by
    decide +kernel
  have fourth : call.fourth = 33 := fourth_eq passed (by rw [bytes]; rfl)
  rw [List.replicate_zero] at hears
  rw [hears, respond, hdlcDecodeAccepted_iFrame current, fourth] at acted
  exact ⟨congrArg Prod.fst acted, congrArg (fun made => made.2.2) acted⟩

/-- The client sends the octet itself: it stands where the address of the payload should. -/
theorem send_octet (layout : Layout) {client : Client} (ready : client.state = .readyState) :
    (hdlcSendData client (fun _ => 33) 1).1.payload layout = [33] ∧
      (hdlcSendData client (fun _ => 33) 1).1.currentIndexFrame = 0 ∧
      (hdlcSendData client (fun _ => 33) 1).2.2 = some ⟨.iFrame, 0⟩ := by
  have positive := layout.positive
  unfold hdlcSendData
  rw [if_neg (not_not_intro ready)]
  refine ⟨?_, rfl, rfl⟩
  have first : (Client.memory { client with
      state := .reciving
      frameI := ⟨.iFrame, 0⟩
      dataIFrame := 33
      lenDataIFrame := 1
      currentIndexFrame := 0 } layout 0) = 33 := (if_pos positive).trans (show octetAt 33 0 = 33 by decide)
  exact congrArg (· :: []) first

theorem mainConnect_ready (found : Uninitialised) (layout : Layout) :
    ∃ client, mainConnect found layout = some ((globalsAt 200 [], client), []) ∧
      client.state = .readyState := by
  have polled := foldlM_pollFake found 200
    (hdlcConnect (initHdlcClient ⟨0, hdlcState⟩ found.hdlc 200).2).1 200
  have start : initHdlcClient ⟨0, hdlcState⟩ found.hdlc 200 =
      (globalsAt 200 [], (initHdlcClient ⟨0, hdlcState⟩ found.hdlc 200).2) := rfl
  unfold mainConnect
  rw [start]
  simp only [rawFrameInto_eq]
  rw [polled]
  simp only [Option.bind_eq_bind, Option.bind_some]
  generalize made : hdlcDecodeRecivedRawData _ _ _ = decoded
  obtain ⟨ret, globals, ready, delivered⟩ := decode_answer made rfl rfl
  rw [if_pos delivered, ret, globals]
  exact ⟨decoded.client, rfl, ready⟩

theorem mainSend_prints (found : Uninitialised) (layout : Layout) {client : Client}
    (ready : client.state = .readyState) :
    mainSend found layout (globalsAt 200 [], client) = [.recivedData 33] := by
  obtain ⟨payload, index, frame⟩ := send_octet layout ready
  unfold mainSend
  simp only [rawFrameInto_eq, frame, Option.getD_some, payload]
  generalize made : hdlcDecodeRecivedRawData _ _ _ = decoded
  obtain ⟨ret, delivered⟩ := decode_octet made index rfl
  rw [ret, delivered]
  rfl

/-- **The harness passes.** -/
theorem hdlcMain_prints (found : Uninitialised) (layout : Layout) :
    hdlcMain found layout = some [.recivedData 33] := by
  obtain ⟨client, connected, ready⟩ := mainConnect_ready found layout
  unfold hdlcMain
  rw [connected]
  show some ([] ++ mainSend found layout (globalsAt 200 [], client)) = _
  rw [mainSend_prints found layout ready]
  rfl

end HdlcMarquee
