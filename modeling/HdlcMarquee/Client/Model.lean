/-
**The client (`hdlc/client.c`, `struct Client` of `hdlc/client.h`).**

The operations are functions of the client and of the two globals they share, the static parser state
and the backup of the timeout. Their signatures are those of `client.c`. What an operation finds in
memory that nobody initialised is an argument of it: the local `recv_control`, and the bytes behind
an object that is read past its end.
-/

import HdlcMarquee.Hdlc.FrameData

namespace HdlcMarquee

/-- `SIZE_DATA_BUFFERS`. -/
def sizeDataBuffers : Nat := 64

/-- The negative return values; `getData` passes on one of the parser. -/
inductive Err
  | errInvalidDataSize
  | errInvalidState
  | errFrameTimeOut
  | errInvalidSeqNumberFrame
  | getData (errno : Errno)
  deriving DecidableEq, Repr

/-- `enum HDLCState`. -/
inductive HDLCState
  | uninitializedState
  | idleState
  | readyState
  | connecting
  | disconnecting
  | reciving
  deriving DecidableEq, Repr

/-- `struct Client`; `data_i_frame` is a pointer, given as the address it holds. -/
structure Client where
  state : HDLCState
  connectingFrameTimeout : Int
  currentIndexFrame : BitVec 8
  currentStateHdlc : HdlcStateT
  frameS : HdlcControlT
  frameI : HdlcControlT
  dataIFrame : Nat
  lenDataIFrame : Nat
  frameRej : HdlcControlT
  deriving DecidableEq, Repr

/-- A `struct Client` in zeroed memory. -/
def zeroedClient : Client where
  state := .uninitializedState
  connectingFrameTimeout := 0
  currentIndexFrame := 0
  currentStateHdlc := ⟨false, 0, 0, 0, 0, 0⟩
  frameS := ⟨.iFrame, 0⟩
  frameI := ⟨.iFrame, 0⟩
  dataIFrame := 0
  lenDataIFrame := 0
  frameRej := ⟨.iFrame, 0⟩

/-- `connecting_frame_timeout_bf` and the static `hdlc_state`. -/
structure Globals where
  connectingFrameTimeoutBf : Int
  hdlcState : HdlcStateT
  deriving DecidableEq, Repr

/-! ### Connecting and sending -/

/-- `init_hdlc_client`. The other fields keep what they held. -/
def initHdlcClient (globals : Globals) (client : Client) (connectingFrameTimeout : Int) :
    Globals × Client :=
  ({ globals with connectingFrameTimeoutBf := connectingFrameTimeout },
    { client with
      state := .idleState
      connectingFrameTimeout := connectingFrameTimeout
      currentIndexFrame := 20 })

/-- `hdlc_connect`: the client, and the control field stored into `*frame`. -/
def hdlcConnect (client : Client) : Client × HdlcControlT :=
  let client := { client with state := .connecting, frameS := ⟨.sFrame, 0⟩ }
  let client := { client with currentIndexFrame := client.frameS.seqNo.setWidth 8 }
  (client, client.frameS)

/-- `hdlc_send_data`: the client, the return value, and the control field if it is stored into
`*frame`. -/
def hdlcSendData (client : Client) (data : Nat → Byte) (dataLen : Nat) :
    Client × Except Err Unit × Option HdlcControlT :=
  if client.state ≠ .readyState then (client, .error .errInvalidState, none)
  else
    let client := { client with state := .reciving }
    if sizeDataBuffers < dataLen then (client, .error .errInvalidDataSize, none)
    else
      let client := { client with
        frameI := ⟨.iFrame, 0⟩
        -- `data_i_frame = *data`: the first octet becomes the pointer
        dataIFrame := (data 0).toNat
        lenDataIFrame := dataLen }
      let client := { client with currentIndexFrame := client.frameI.seqNo.setWidth 8 }
      (client, .ok (), some client.frameI)

/-- What the target and the linker decide about the memory at `data_i_frame`: the size of a pointer
and of a `size_t`, both stored low octet first and next to each other, and the octets that follow. It
is 2 on the ATmega328P and 4 or 8 on the host of `main.c`. -/
structure Layout where
  sizeofPointer : Nat
  positive : 0 < sizeofPointer
  behind : Nat → Byte

/-- The octet at a place in a number stored low octet first. -/
def octetAt (value place : Nat) : Byte := BitVec.ofNat 8 (value / 256 ^ place)

/-- The octets from the address of `data_i_frame` on: the pointer itself, then
`len_data_i_frame`, then whatever stands behind. -/
def Client.memory (client : Client) (layout : Layout) (place : Nat) : Byte :=
  if place < layout.sizeofPointer then octetAt client.dataIFrame place
  else if place < 2 * layout.sizeofPointer then
    octetAt client.lenDataIFrame (place - layout.sizeofPointer)
  else layout.behind (place - 2 * layout.sizeofPointer)

/-- `hdlc_get_raw_frame`: the bytes stored into `buffer`, if `hdlc_frame_data` succeeds. The return
value is always 0, and `lenBuffer` is only the place where `hdlc_frame_data` leaves the length. -/
def hdlcGetRawFrame (client : Client) (frame : HdlcControlT) (layout : Layout) :
    Except Errno (List Byte) :=
  if frame.frame = .sFrame ∨ frame.frame = .sFrameNack then hdlcFrameData frame none 0
  else
    -- the payload is read from the address of the field `data_i_frame`
    hdlcFrameData frame
      (some ((List.range client.lenDataIFrame).map (client.memory layout))) client.lenDataIFrame

/-! ### Receiving -/

/-- The local `recv_control`. Before it is written, its `frame` need not be an enumerator. -/
structure RecvControl where
  frame : Option HdlcFrameT
  seqNo : BitVec 3
  deriving DecidableEq, Repr

/-- A control field, as the parser writes it. -/
def RecvControl.of (control : HdlcControlT) : RecvControl := ⟨some control.frame, control.seqNo⟩

/-- One store of the parser. -/
def RecvControl.put (recvControl : RecvControl) : Store → RecvControl
  | .control value => .of value
  | .dest _ _ => recvControl

/-- The local behind the stores of the parser. -/
def RecvControl.putAll (recvControl : RecvControl) (stores : List Store) : RecvControl :=
  stores.foldl RecvControl.put recvControl

/-- The arguments of a `hdlc_decode_recived_raw_data` call and the memory it finds: the buffer, or
none for a null pointer; the local `recv_control`; the bytes behind the buffer. -/
structure DecodeCall where
  buffer : Option (List Byte)
  recvControl : RecvControl
  behind : Nat → Byte

/-- `buffer[3]`, which may lie behind the end of the buffer. -/
def DecodeCall.fourth (call : DecodeCall) : Byte :=
  let bytes := call.buffer.getD []
  bytes[3]?.getD (call.behind (3 - bytes.length))

/-- What a `hdlc_decode_recived_raw_data` call does: the return value, the globals and the client;
`recv_control` behind the parser; the stores that the parser made through its pointers; and
`(*recived_data, *len_recived_data)` if they are stored. -/
structure Decoded where
  ret : Except Err Unit
  globals : Globals
  client : Client
  recvControl : RecvControl
  stores : List Store
  delivered : Option (Byte × Nat)

/-- The branch on a frame that the parser accepted. -/
def hdlcDecodeAccepted (globals : Globals) (client : Client) (recvControl : RecvControl)
    (fourth : Byte) : Except Err Unit × Client × Option (Byte × Nat) :=
  let reject := { client with state := .disconnecting, frameRej := ⟨.sFrameNack, 0⟩ }
  let reload (client : Client) :=
    { client with connectingFrameTimeout := globals.connectingFrameTimeoutBf }
  if recvControl.seqNo.setWidth 8 ≠ client.currentIndexFrame then
    (.error .errInvalidSeqNumberFrame, reject, none)
  else
    match recvControl.frame with
    | some .sFrame => (.ok (), reload { client with state := .readyState }, none)
    | some .iFrame => (.ok (), reload client, some (fourth, 1))
    | some .sFrameNack => (.error .errInvalidSeqNumberFrame, reject, none)
    -- no case of the `switch`
    | none => (.ok (), reload client, none)

/-- `hdlc_decode_recived_raw_data`. -/
def hdlcDecodeRecivedRawData (globals : Globals) (client : Client) (call : DecodeCall) : Decoded :=
  let parsed := hdlcGetDataWithState globals.hdlcState call.buffer
  let globals := { globals with hdlcState := parsed.state }
  let recvControl := call.recvControl.putAll parsed.stores
  match parsed.ret with
  | .error errno =>
    { ret := .error (.getData errno), globals := globals, client := client,
      recvControl := recvControl, stores := parsed.stores, delivered := none }
  | .ok _ =>
    let (ret, client, delivered) := hdlcDecodeAccepted globals client recvControl call.fourth
    { ret := ret, globals := globals, client := client, recvControl := recvControl,
      stores := parsed.stores, delivered := delivered }

/-- `hdlc_timeout_handler`. -/
def hdlcTimeoutHandler (client : Client) (deltaTime : Int) : Client × Except Err Unit :=
  let client := { client with connectingFrameTimeout := client.connectingFrameTimeout - deltaTime }
  (client, if client.connectingFrameTimeout ≤ 0 then .error .errFrameTimeOut else .ok ())

end HdlcMarquee
