/-
**Runs of `hdlc_decode_recived_raw_data`.**

The static parser state carries over from one call to the next, `recv_control` and the scratch array
`recive` do not. What a call does is therefore a function of its buffer and of the bytes since the
last completed frame (`decode_waits`, `decode_completes`), and `bufferStep` pairs the two for every
call of a run.

* `putAll_bufferStores`: `recv_control` is that of the frame only if the control octet is in the
  buffer that completes it.
* `stores_inside_iff`: no call stores behind the end of its scratch array exactly when every buffer
  is as long as the data that its frame has so far, or adds none.
-/

import HdlcMarquee.Hdlc.Calls
import HdlcMarquee.Client.Model

namespace HdlcMarquee

open Generic

/-! ### A run of calls -/

/-- One call of a run, and what it did. -/
def decodeStep (world : Globals × Client) (call : DecodeCall) :
    (Globals × Client) × List (DecodeCall × Decoded) :=
  let decoded := hdlcDecodeRecivedRawData world.1 world.2 call
  ((decoded.globals, decoded.client), [(call, decoded)])

/-- The buffer of a call, with the bytes since the last frame completed before it. -/
def bufferStep (fed : List Byte) (call : DecodeCall) : List Byte × List (List Byte × List Byte) :=
  match call.buffer with
  | none => (fed, [])
  | some buffer => ((frameStep fed buffer).1, [(fed, buffer)])

theorem bufferStep_none {call : DecodeCall} (null : call.buffer = none) (fed : List Byte) :
    bufferStep fed call = (fed, []) := by
  unfold bufferStep
  rw [null]

theorem bufferStep_some {call : DecodeCall} {buffer : List Byte} (passed : call.buffer = some buffer)
    (fed : List Byte) : bufferStep fed call = ((frameStep fed buffer).1, [(fed, buffer)]) := by
  unfold bufferStep
  rw [passed]

/-- The globals when these bytes have been read since the last completed frame. -/
def globalsAt (bf : Int) (fed : List Byte) : Globals := ⟨bf, stateAt (position fed)⟩

theorem putAll_dest (recvControl : RecvControl) (index : Int) (octets : List Byte) :
    recvControl.putAll (octets.map (Store.dest index)) = recvControl := by
  induction octets with
  | nil => rfl
  | cons octet rest ih => exact ih

/-- `recv_control` behind the stores for a part of a raw body. -/
theorem putAll_recvControl (recvControl : RecvControl) (body part : List Byte) :
    recvControl.putAll (partStores body part) =
      if body.length ≤ 1 then ((controlOf (body ++ part)).map RecvControl.of).getD recvControl
      else recvControl := by
  induction part using List.reverseRecOn with
  | nil =>
    match body with
    | [] => rfl
    | [_] => rfl
    | _ :: _ :: _ => rfl
  | append_singleton part byte ih =>
    have earlier : recvControl.putAll (partStores body (part ++ [byte])) =
        (recvControl.putAll (partStores body part)).putAll (byteStores (body ++ part) byte) := by
      rw [partStores_snoc]
      exact List.foldl_append
    rw [earlier, ih, ← List.append_assoc, byteStores_eq]
    by_cases one : (body ++ part).length = 1
    · have short : body.length ≤ 1 := by
        rw [← one, List.length_append]
        exact Nat.le_add_right _ _
      obtain ⟨first, single⟩ := List.length_eq_one_iff.mp one
      rw [if_pos one, if_pos short, if_pos short, single]
      cases found : controlOf ([first] ++ [byte]) with
      | none => rfl
      | some control => rfl
    · rw [if_neg one, controlOf_snoc one]
      split <;> rw [apply_ite (RecvControl.putAll _), putAll_dest] <;> exact ite_self _

theorem putAll_bufferStores (recvControl : RecvControl) (fed buffer : List Byte) :
    recvControl.putAll (bufferStores fed buffer) =
      if (position fed).body.length ≤ 1 then
        ((controlOf ((position fed).body ++ received fed buffer)).map RecvControl.of).getD recvControl
      else recvControl :=
  putAll_recvControl recvControl _ _

/-- An accepted frame leaves the index that the client waits for. -/
theorem hdlcDecodeAccepted_index (globals : Globals) (client : Client) (recvControl : RecvControl)
    (fourth : Byte) :
    (hdlcDecodeAccepted globals client recvControl fourth).2.1.currentIndexFrame =
      client.currentIndexFrame := by
  unfold hdlcDecodeAccepted
  dsimp only
  split
  · rfl
  · split <;> rfl

/-- An accepted frame succeeds if it has the number that the client waits for and is no reject. -/
theorem hdlcDecodeAccepted_answer (globals : Globals) (client : Client) (recvControl : RecvControl)
    (fourth : Byte) :
    (hdlcDecodeAccepted globals client recvControl fourth).1 =
      if recvControl.seqNo.setWidth 8 = client.currentIndexFrame ∧
          recvControl.frame ≠ some .sFrameNack then .ok ()
      else .error .errInvalidSeqNumberFrame := by
  unfold hdlcDecodeAccepted
  by_cases current : recvControl.seqNo.setWidth 8 = client.currentIndexFrame
  · rw [if_neg (not_not_intro current)]
    split <;> rename_i frame <;> simp [current, frame]
  · simp [current]

/-- An accepted frame is delivered if it has the number that the client waits for and is an
I-frame. -/
theorem hdlcDecodeAccepted_delivered (globals : Globals) (client : Client)
    (recvControl : RecvControl) (fourth : Byte) :
    (hdlcDecodeAccepted globals client recvControl fourth).2.2 =
      if recvControl.seqNo.setWidth 8 = client.currentIndexFrame ∧
          recvControl.frame = some .iFrame then some (fourth, 1)
      else none := by
  unfold hdlcDecodeAccepted
  by_cases current : recvControl.seqNo.setWidth 8 = client.currentIndexFrame
  · rw [if_neg (not_not_intro current)]
    split <;> rename_i frame <;> simp [current, frame]
  · simp [current]

/-- An accepted frame closes the link if it is a reject or has another number than the client waits
for, and opens it if it is an acknowledgement. -/
theorem hdlcDecodeAccepted_state (globals : Globals) (client : Client) (recvControl : RecvControl)
    (fourth : Byte) :
    (hdlcDecodeAccepted globals client recvControl fourth).2.1.state =
      if recvControl.seqNo.setWidth 8 = client.currentIndexFrame ∧
          recvControl.frame ≠ some .sFrameNack then
        if recvControl.frame = some .sFrame then .readyState else client.state
      else .disconnecting := by
  unfold hdlcDecodeAccepted
  by_cases current : recvControl.seqNo.setWidth 8 = client.currentIndexFrame
  · rw [if_neg (not_not_intro current)]
    split <;> rename_i frame <;> simp [current, frame]
  · simp [current]

section Call

variable {fed buffer : List Byte} (bf : Int) (client : Client) {call : DecodeCall}

/-- A null buffer is refused. -/
theorem decode_null (null : call.buffer = none) (globals : Globals) :
    hdlcDecodeRecivedRawData globals client call =
      { ret := .error (.getData .einval), globals := globals, client := client,
        recvControl := call.recvControl, stores := [], delivered := none } := by
  simp only [hdlcDecodeRecivedRawData, null, hdlcGetDataWithState]
  rfl

/-- A buffer that completes no frame. -/
theorem decode_waits (passed : call.buffer = some buffer) (before : bodies fed = [])
    (waits : bodies (fed ++ buffer) = []) :
    hdlcDecodeRecivedRawData (globalsAt bf fed) client call =
      { ret := .error (.getData .enomsg), globals := globalsAt bf (fed ++ buffer), client := client,
        recvControl := call.recvControl.putAll (bufferStores fed buffer),
        stores := bufferStores fed buffer, delivered := none } := by
  rcases call_fed before buffer with ⟨_, parsed⟩ | ⟨body, more, count, completes, _, _, _⟩
  · simp only [hdlcDecodeRecivedRawData, globalsAt, passed, parsed]
  · rw [waits] at completes
    cases completes

/-- A buffer that completes a frame. -/
theorem decode_completes (passed : call.buffer = some buffer) (before : bodies fed = [])
    {body : List Byte} {more : List (List Byte)} (completes : bodies (fed ++ buffer) = body :: more) :
    hdlcDecodeRecivedRawData (globalsAt bf fed) client call =
      let recvControl := call.recvControl.putAll (bufferStores fed buffer)
      let acted := hdlcDecodeAccepted (globalsAt bf []) client recvControl call.fourth
      if Accepted body then
        { ret := acted.1, globals := globalsAt bf [], client := acted.2.1,
          recvControl := recvControl, stores := bufferStores fed buffer, delivered := acted.2.2 }
      else
        { ret := .error (.getData .eio), globals := globalsAt bf [], client := client,
          recvControl := recvControl, stores := bufferStores fed buffer, delivered := none } := by
  rcases call_fed before buffer with ⟨waits, _⟩ | ⟨body', more', count, completes', _, _, parsed⟩
  · rw [completes] at waits
    cases waits
  · rw [completes] at completes'
    cases completes'
    by_cases accepted : Accepted body
    · rw [if_pos accepted] at parsed
      simp only [hdlcDecodeRecivedRawData, globalsAt, passed, parsed, if_pos accepted]
      rfl
    · rw [if_neg accepted] at parsed
      simp only [hdlcDecodeRecivedRawData, globalsAt, passed, parsed, if_neg accepted]
      rfl

theorem bodies_bufferStep (before : bodies fed = []) (call : DecodeCall) :
    bodies (bufferStep fed call).1 = [] := by
  unfold bufferStep
  split
  · exact before
  · exact bodies_frameStep fed _

/-- A call leaves the globals where the bytes since the last frame lead. -/
theorem decode_globals (before : bodies fed = []) (call : DecodeCall) :
    (hdlcDecodeRecivedRawData (globalsAt bf fed) client call).globals =
      globalsAt bf (bufferStep fed call).1 := by
  cases passed : call.buffer with
  | none => rw [decode_null client passed, bufferStep_none passed]
  | some buffer =>
    have parsed := call_state before buffer
    unfold hdlcDecodeRecivedRawData
    rw [bufferStep_some passed, passed]
    dsimp only [globalsAt]
    split <;> rw [parsed]

theorem decode_stores (passed : call.buffer = some buffer) (before : bodies fed = []) :
    (hdlcDecodeRecivedRawData (globalsAt bf fed) client call).stores = bufferStores fed buffer := by
  have parsed := call_stores before buffer
  unfold hdlcDecodeRecivedRawData
  rw [passed]
  dsimp only [globalsAt]
  split <;> exact parsed

end Call

/-! ### The scratch array -/

/-- Every store of a call through `dest` lies in its array `recive`, which has `len_buffer` bytes. -/
def InScratch (made : DecodeCall × Decoded) : Prop :=
  ∀ index value, Store.dest index value ∈ made.2.stores →
    0 ≤ index ∧ index < (made.1.buffer.getD []).length

/-- The data of the frame in progress is no longer than the buffer, or no longer than before it. -/
def Fits (fed buffer : List Byte) : Prop :=
  (frameData ((position fed).body ++ received fed buffer)).length ≤
    max buffer.length (frameData (position fed).body).length

theorem length_part_le (phase : Phase Byte) (word : List Byte) :
    (Phase.part hdlcFlagSequence phase word).length ≤ word.length := by
  induction word generalizing phase with
  | nil => rw [part_nil]
  | cons byte rest ih =>
    cases phase with
    | hunting skipped =>
      rw [Phase.part]
      split <;> exact (ih _).trans (Nat.le_succ _)
    | inFrame start body =>
      rw [Phase.part]
      split
      · split
        · exact (ih _).trans (Nat.le_succ _)
        · exact Nat.zero_le _
      · exact Nat.succ_le_succ (ih _)

/-- A buffer that does not continue a frame always fits. -/
theorem fits_of_fresh {fed : List Byte} (fresh : (position fed).body = []) (buffer : List Byte) :
    Fits fed buffer := by
  have data : (frameData (received fed buffer)).length ≤ (received fed buffer).length := by
    have carried := length_octets_le hdlcCode (received fed buffer)
    rw [← length_frameData] at carried
    omega
  have part : (received fed buffer).length ≤ buffer.length := length_part_le _ _
  unfold Fits
  rw [fresh, List.nil_append]
  exact le_max_of_le_left (data.trans part)

theorem bufferStores_inside_iff (fed buffer : List Byte) :
    (∀ index value, Store.dest index value ∈ bufferStores fed buffer →
      0 ≤ index ∧ index < buffer.length) ↔ Fits fed buffer := by
  have stored : ∀ index, (∃ value, Store.dest index value ∈ bufferStores fed buffer) ↔ _ :=
    dest_mem_partStores (position fed).body (received fed buffer)
  unfold Fits
  constructor
  · intro inside
    by_contra longer
    rw [not_le, max_lt_iff] at longer
    obtain ⟨value, last⟩ := (stored
      ((frameData ((position fed).body ++ received fed buffer)).length - 1)).mpr (by omega)
    have := inside _ value last
    omega
  · intro fits index value store
    have placed := (stored index).mp ⟨value, store⟩
    rcases le_max_iff.mp fits with short | same <;> omega

/-- **Stores behind the end of the scratch array.** In every run of calls from the reset parser
state, all stores lie in the scratch array of their call exactly when every buffer fits. -/
theorem stores_inside_iff (bf : Int) (client : Client) (calls : List DecodeCall) :
    (∀ made ∈ (run decodeStep (⟨bf, hdlcState⟩, client) calls).2, InScratch made) ↔
      ∀ pair ∈ (run bufferStep [] calls).2, Fits pair.1 pair.2 := by
  have general : ∀ (calls : List DecodeCall) (fed : List Byte) (client : Client),
      bodies fed = [] →
      ((∀ made ∈ (run decodeStep (globalsAt bf fed, client) calls).2, InScratch made) ↔
        ∀ pair ∈ (run bufferStep fed calls).2, Fits pair.1 pair.2) := by
    intro calls
    induction calls with
    | nil =>
      intro fed client before
      simp
    | cons call rest ih =>
      intro fed client before
      have here : (∀ made ∈ (decodeStep (globalsAt bf fed, client) call).2, InScratch made) ↔
          ∀ pair ∈ (bufferStep fed call).2, Fits pair.1 pair.2 := by
        cases passed : call.buffer with
        | none => simp [decodeStep, bufferStep_none passed, InScratch, decode_null client passed]
        | some buffer =>
          have stores := decode_stores bf client passed before
          simp [decodeStep, bufferStep_some passed, InScratch, passed, stores,
            bufferStores_inside_iff]
      have next := ih (bufferStep fed call).1
        (hdlcDecodeRecivedRawData (globalsAt bf fed) client call).client
        (bodies_bufferStep before call)
      rw [← decode_globals bf client before call] at next
      rw [run_cons, run_cons, List.forall_mem_append, List.forall_mem_append]
      exact and_congr here next
  exact general calls [] client rfl

/-- Seven bytes of a frame, then one more: its octet is stored at index 4 of an array of one byte. -/
theorem not_stores_inside :
    ¬ ∀ (bf : Int) (client : Client) (calls : List DecodeCall),
      ∀ made ∈ (run decodeStep (⟨bf, hdlcState⟩, client) calls).2, InScratch made := by
  intro inside
  have stored := inside 200 zeroedClient
    [⟨some [0x7E, 0xFF, 0x10, 0x01, 0x02, 0x03, 0x04], ⟨none, 0⟩, fun _ => 0⟩,
      ⟨some [0x05], ⟨none, 0⟩, fun _ => 0⟩] _ (List.mem_cons_of_mem _ List.mem_cons_self) 4 0x05
    (by decide +kernel)
  exact absurd stored.2 (by decide)

end HdlcMarquee
