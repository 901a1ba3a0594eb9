/-
**Round trips between the encoder and the parser.**

* `sentBody_spec`: the parser accepts the body of every encoded frame, and finds in it the control
  field and the payload that were sent.
* `stream_round_trip`: whatever noise a stream starts with and however it is cut, the driver reports
  every frame sent after the noise, in order, with its control field and its payload. A flag behind
  the noise ends whatever the noise began, so from there on frame after frame is read from the same
  position (`run_receive_sent`).
-/

import HdlcMarquee.Hdlc.FrameData
import HdlcMarquee.Hdlc.Driver

namespace HdlcMarquee

open Generic

/-! ### Reading one frame -/

theorem run_receive_body {part : List Byte} (quiet : hdlcFlagSequence ∉ part) (start : Nat)
    (body : List Byte) (storage : Storage) :
    run receive (.inFrame start body, storage) part =
      ((.inFrame start (body ++ part), storage.putAll (partStores body part)), []) := by
  induction part generalizing body storage with
  | nil => simp [partStores]
  | cons byte rest ih =>
    rw [List.mem_cons, not_or] at quiet
    have other : byte ≠ hdlcFlagSequence := Ne.symm quiet.1
    have step : receive (.inFrame start body, storage) byte =
        ((.inFrame start (body ++ [byte]), storage.putAll (byteStores body byte)), []) := by
      simp [receive, step_inFrame other, phaseStores, other]
    rw [run_cons, step, ih quiet.2, ← List.append_cons, ← putAll_append]
    rfl

theorem run_receive_flags (start count : Nat) (storage : Storage) :
    run receive (.inFrame start [], storage) (List.replicate count hdlcFlagSequence) =
      ((.inFrame start [], storage), []) := by
  induction count with
  | zero => rfl
  | succ count ih =>
    have step : receive (.inFrame start [], storage) hdlcFlagSequence =
        ((.inFrame start [], storage), []) := by
      simp [receive, phaseStores]
    rw [List.replicate_succ, run_cons, step, ih, List.nil_append]

/-- **One frame**, behind any number of flags. -/
theorem run_receive_frame {body : List Byte} (some : body ≠ []) (quiet : hdlcFlagSequence ∉ body)
    (start count : Nat) (storage : Storage) :
    run receive (.inFrame start [], storage)
        (List.replicate count hdlcFlagSequence ++ body ++ [hdlcFlagSequence]) =
      ((.inFrame 0 [], storage.putAll (partStores [] body)),
        [(body, storage.putAll (partStores [] body))]) := by
  have close : receive (.inFrame start body, storage.putAll (partStores [] body)) hdlcFlagSequence =
      ((.inFrame 0 [], storage.putAll (partStores [] body)),
        [(body, storage.putAll (partStores [] body))]) := by
    simp [receive, step_closing_flag some, phaseStores]
  rw [run_append, run_append, run_receive_flags, run_receive_body quiet, List.nil_append,
    run_singleton, close]
  rfl

/-! ### The body of an encoded frame -/

/-- What the receiver of a frame is to be given: the payload of an I-frame, nothing otherwise. -/
def deliverable (control : HdlcControlT) (payload : List Byte) : List Byte :=
  if control.frame = .iFrame then payload else []

theorem sentBody_quiet (control : HdlcControlT) (payload : List Byte) :
    hdlcFlagSequence ∉ sentBody control payload :=
  (stuffed_stuff hdlcCode _).flag_notMem

/-- The address and the control octet are sent as they are, and the rest is stuffed. -/
theorem sentBody_eq (control : HdlcControlT) (payload : List Byte) :
    sentBody control payload =
      hdlcAllStationAddr :: hdlcFrameControlType control ::
        hdlcCode.stuff (deliverable control payload ++
          fcsOctets ((checkedOctets control payload).foldl calcFcs fcsInitValue ^^^
            fcsInvertMask)) := by
  have free : ∀ octet : Byte, octet ≠ hdlcFlagSequence ∧ octet ≠ hdlcControlEscape →
      hdlcCode.escape octet = [octet] := by
    intro octet ⟨notFlag, notEsc⟩
    unfold Code.escape
    rw [if_neg (by simp [notFlag, notEsc])]
  rw [sentBody, frameOctets, checkedOctets, List.cons_append, List.cons_append, stuff_cons,
    stuff_cons, free _ hdlcAllStationAddr_free, free _ (hdlcFrameControlType_free control)]
  rfl

/-- **What the parser makes of an encoded body**: it accepts it, and finds its control field and its
payload. -/
theorem sentBody_spec (control : HdlcControlT) (payload : List Byte) :
    Accepted (sentBody control payload) ∧ controlOf (sentBody control payload) = some control ∧
      frameData (sentBody control payload) = deliverable control payload ++
        fcsOctets ((checkedOctets control payload).foldl calcFcs fcsInitValue ^^^ fcsInvertMask) := by
  have residue : frameFcs (sentBody control payload) = fcsGoodValue := by
    unfold frameFcs sentBody
    rw [octets_stuff, frameOctets_good]
  have long : 3 ≤ (sentBody control payload).length := by
    have carried := length_octets_le hdlcCode (sentBody control payload)
    unfold sentBody at carried
    rw [octets_stuff] at carried
    unfold sentBody
    refine le_trans ?_ carried
    simp [frameOctets, checkedOctets, fcsOctets]
  obtain ⟨found, _, data⟩ := plain_body hdlcAllStationAddr_free.2
    (hdlcFrameControlType_free control).2 (stuffed_stuff hdlcCode (deliverable control payload ++
      fcsOctets ((checkedOctets control payload).foldl calcFcs fcsInitValue ^^^ fcsInvertMask)))
  refine ⟨⟨long, residue⟩, ?_, ?_⟩
  · rw [sentBody_eq, found, hdlcGetControlType_hdlcFrameControlType]
  · rw [sentBody_eq, data]

/-- The verdict on an encoded body reports its control field and its payload. -/
theorem verdict_sentBody (control : HdlcControlT) (payload : List Byte) (storage : Storage) :
    verdict (sentBody control payload,
        storage.putAll (partStores [] (sentBody control payload))) =
      .success control (deliverable control payload).length (deliverable control payload) := by
  obtain ⟨accepted, found, data⟩ := sentBody_spec control payload
  have length : ((frameData (sentBody control payload)).length : Int) - sizeofFcs =
      (deliverable control payload).length := by
    rw [data, List.length_append]
    simp [fcsOctets, sizeofFcs]
  rw [verdict_body, if_pos accepted, found, length, data, Int.toNat_natCast, List.take_left]
  rfl

/-! ### A stream of frames -/

/-- A frame on the line: the output of the encoder, behind any number of extra flags. -/
structure SentFrame where
  extraFlags : Nat
  control : HdlcControlT
  payload : List Byte
  bytes : List Byte
  built : hdlcFrameData control (some payload) payload.length = .ok bytes

/-- The extra flags and the frame. -/
def SentFrame.onLine (sent : SentFrame) : List Byte :=
  List.replicate sent.extraFlags hdlcFlagSequence ++ sent.bytes

/-- What the driver is to report of a frame. -/
def SentFrame.outcome (sent : SentFrame) : Outcome :=
  .success sent.control (deliverable sent.control sent.payload).length
    (deliverable sent.control sent.payload)

theorem SentFrame.bytes_eq (sent : SentFrame) :
    sent.bytes = hdlcFlagSequence :: sentBody sent.control sent.payload ++ [hdlcFlagSequence] := by
  have built := sent.built
  rw [hdlcFrameData_some] at built
  exact (Except.ok.inj built).symm

/-- The flags before a frame and its opening flag are one run of flags. -/
theorem SentFrame.onLine_eq (sent : SentFrame) :
    sent.onLine = hdlcFlagSequence :: (List.replicate sent.extraFlags hdlcFlagSequence ++
      sentBody sent.control sent.payload ++ [hdlcFlagSequence]) := by
  have flags : ∀ rest : List Byte,
      List.replicate sent.extraFlags hdlcFlagSequence ++ hdlcFlagSequence :: rest =
        hdlcFlagSequence :: (List.replicate sent.extraFlags hdlcFlagSequence ++ rest) := by
    intro rest
    rw [List.append_cons, ← List.replicate_succ', List.replicate_succ, List.cons_append]
  unfold SentFrame.onLine
  rw [sent.bytes_eq, List.cons_append, flags, List.append_assoc]

/-- **Behind a flag, a frame is read and the position is again behind a flag.** -/
theorem run_receive_sent (sent : SentFrame) (start : Nat) (storage : Storage) :
    ∃ storage', (run receive (.inFrame start [], storage) (List.replicate sent.extraFlags
          hdlcFlagSequence ++ sentBody sent.control sent.payload ++ [hdlcFlagSequence])).1 =
        (.inFrame 0 [], storage') ∧
      (run receive (.inFrame start [], storage) (List.replicate sent.extraFlags hdlcFlagSequence ++
          sentBody sent.control sent.payload ++ [hdlcFlagSequence])).2.map verdict =
        [sent.outcome] := by
  have nonempty : sentBody sent.control sent.payload ≠ [] := by
    rw [sentBody_eq]
    exact List.cons_ne_nil _ _
  rw [run_receive_frame nonempty (sentBody_quiet _ _)]
  exact ⟨_, rfl, congrArg (· :: []) (verdict_sentBody _ _ _)⟩

/-- Whatever was read, behind a flag nothing of a frame has been received. -/
theorem run_receive_snoc_flag (here : Phase Byte × Storage) (word : List Byte) :
    ∃ start storage,
      (run receive here (word ++ [hdlcFlagSequence])).1 = (.inFrame start [], storage) := by
  obtain ⟨start, behind⟩ := step_flag hdlcFlagSequence (run receive here word).1.1
  rw [run_append, run_singleton]
  exact ⟨start, _, Prod.ext behind rfl⟩

/-- Frames behind a flag are reported in order. -/
theorem run_receive_stream (frames : List SentFrame) (start : Nat) (storage : Storage) :
    (run receive (.inFrame start [], storage) (frames.flatMap SentFrame.onLine)).2.map verdict =
      frames.map SentFrame.outcome := by
  induction frames generalizing start storage with
  | nil => rfl
  | cons sent rest ih =>
    have reread : receive (.inFrame start [], storage) hdlcFlagSequence =
        ((.inFrame start [], storage), []) := by
      simp [receive, phaseStores]
    obtain ⟨storage', reached, reported⟩ := run_receive_sent sent start storage
    rw [List.flatMap_cons, run_append, sent.onLine_eq, run_cons, reread, reached, List.nil_append,
      List.map_append, reported, ih, List.map_cons, List.singleton_append]

/-- **Stream round trip with resynchronisation.** Behind any noise, every frame of the stream is
reported exactly once, in order, with its control field and its payload; what is reported before
them depends on the noise alone. -/
theorem stream_round_trip (storage : Storage) (noise : List Byte) (frames : List SentFrame)
    (chunks : List (List Byte)) (cut : chunks.flatten = noise ++ frames.flatMap SentFrame.onLine) :
    (run feed ⟨hdlcState, storage⟩ chunks).2 =
      (run feed ⟨hdlcState, storage⟩
          [if frames = [] then noise else noise ++ [hdlcFlagSequence]]).2 ++
        frames.map SentFrame.outcome := by
  have start : (⟨hdlcState, storage⟩ : Receiver) = receiverAt (.hunting 0, storage) := rfl
  rw [start, run_feed, run_feed, cut, List.flatten_singleton]
  cases frames with
  | nil => simp
  | cons sent rest =>
    obtain ⟨start, storage₁, opened⟩ := run_receive_snoc_flag (.hunting 0, storage) noise
    obtain ⟨storage₂, reached, reported⟩ := run_receive_sent sent start storage₁
    have stream : noise ++ (sent :: rest).flatMap SentFrame.onLine =
        (noise ++ [hdlcFlagSequence]) ++ ((List.replicate sent.extraFlags hdlcFlagSequence ++
          sentBody sent.control sent.payload ++ [hdlcFlagSequence]) ++
            rest.flatMap SentFrame.onLine) := by
      rw [List.flatMap_cons, sent.onLine_eq, List.cons_append, List.append_cons]
    rw [if_neg (List.cons_ne_nil _ _), stream, run_append receive _ (noise ++ _), opened,
      run_append, reached, List.map_append, List.map_append, reported, run_receive_stream]
    rfl

/-- An acknowledgement and an I-frame with a flag in its payload, behind half a frame. -/
theorem stream_round_trip_two_frames :
    (run feed ⟨hdlcState, ⟨⟨.sFrameNack, 5⟩, fun _ => 0⟩⟩
        [[0x7E, 0x16, 0x7D, 0x7E], [0xFF, 0x01, 0x0E], [], [0xE1, 0x7E, 0x7E, 0x7E],
          [0x7E, 0xFF, 0x16, 0x7D], [0x5E, 0x87, 0x5B, 0x7E]]).2 =
      (run feed ⟨hdlcState, ⟨⟨.sFrameNack, 5⟩, fun _ => 0⟩⟩ [[0x7E, 0x16, 0x7D, 0x7E]]).2 ++
        [.success ⟨.sFrame, 0⟩ 0 [], .success ⟨.iFrame, 3⟩ 1 [0x7E]] :=
  stream_round_trip ⟨⟨.sFrameNack, 5⟩, fun _ => 0⟩ [0x7E, 0x16, 0x7D]
    [⟨0, ⟨.sFrame, 0⟩, [], _, hdlcFrameData_some _ _⟩,
      ⟨2, ⟨.iFrame, 3⟩, [0x7E], _, hdlcFrameData_some _ _⟩]
    [[0x7E, 0x16, 0x7D, 0x7E], [0xFF, 0x01, 0x0E], [], [0xE1, 0x7E, 0x7E, 0x7E],
      [0x7E, 0xFF, 0x16, 0x7D], [0x5E, 0x87, 0x5B, 0x7E]] (by decide +kernel)

end HdlcMarquee
