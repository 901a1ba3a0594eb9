/-
**The parser as a function of the stream.**

`feed_segments`: however a stream is cut into chunks, the outcomes of the documented loop are one for each
segment of it between two flags, the empty ones left out. Each is judged by itself, but for the control
field, which a frame whose second byte is an escape leaves as the frame before it has left it. So a frame of
the encoder is reported wherever it stands between two flags (`sent_reported`).
-/

import HdlcMarquee.Hdlc.RoundTrip

namespace HdlcMarquee

open Generic

/-! ### Segments -/

section Split

variable {α : Type*} [DecidableEq α] (flag : α)

/-- What stands between two flags, unless it is nothing. -/
def segmentsOf (stream : List α) : List (List α) :=
  (stream.splitOn flag).tail.dropLast.filter (· ≠ [])

theorem run_inFrame_splitOn (start : Nat) (body word : List α) :
    (run (Phase.step flag) (.inFrame start body) word).2 =
      (((word.splitOn flag).modifyHead (body ++ ·)).dropLast).filter (· ≠ []) := by
  induction word generalizing start body with
  | nil => rfl
  | cons symbol rest ih =>
    obtain ⟨first, later, split⟩ := List.exists_cons_of_ne_nil (List.splitOn_ne_nil flag rest)
    rw [run_cons, List.splitOn_cons_eq_if_modifyHead]
    by_cases closing : symbol = flag
    · subst closing
      rw [if_pos (BEq.refl symbol)]
      by_cases opened : body = []
      · subst opened
        rw [step_opening_flag, ih, split]
        simp
      · rw [step_closing_flag opened, ih, split]
        simp [opened]
    · rw [if_neg (by simpa using closing), step_inFrame closing, ih, split]
      simp

/-- **The bodies that are completed** are the segments. -/
theorem run_step_segmentsOf (skipped : Nat) (word : List α) :
    (run (Phase.step flag) (.hunting skipped) word).2 = segmentsOf flag word := by
  unfold segmentsOf
  induction word generalizing skipped with
  | nil => rfl
  | cons symbol rest ih =>
    obtain ⟨first, later, split⟩ := List.exists_cons_of_ne_nil (List.splitOn_ne_nil flag rest)
    rw [run_cons, List.splitOn_cons_eq_if_modifyHead]
    by_cases opening : symbol = flag
    · subst opening
      rw [if_pos (BEq.refl symbol), step_hunting_flag, run_inFrame_splitOn, split]
      simp
    · rw [if_neg (by simpa using opening), step_hunting opening, ih, split]
      simp

end Split

/-! ### Frames -/

/-- One frame, stored over what the frames before it have left. -/
def completeStep (storage : Storage) (body : List Byte) : Storage × List (List Byte × Storage) :=
  (storage.putAll (partStores [] body), [(body, storage.putAll (partStores [] body))])

/-- The receiver has stored the part of a body that it has received. -/
theorem run_receive_completeStep (phase : Phase Byte) (storage : Storage) (word : List Byte) :
    (run receive (phase, storage.putAll (partStores [] phase.body)) word).2 =
      (run completeStep storage (run (Phase.step hdlcFlagSequence) phase word).2).2 := by
  induction word generalizing phase storage with
  | nil => rfl
  | cons byte rest ih =>
    rw [run_cons, run_cons]
    cases phase with
    | hunting skipped =>
      by_cases opening : byte = hdlcFlagSequence
      · subst opening
        simp only [receive, step_hunting_flag]
        exact ih (.inFrame skipped []) storage
      · simp only [receive, step_hunting opening]
        exact ih (.hunting (skipped + 1)) storage
    | inFrame start body =>
      by_cases closing : byte = hdlcFlagSequence
      · subst closing
        have kept : phaseStores (.inFrame start body) hdlcFlagSequence = [] := by
          rw [phaseStores, if_pos rfl]
        by_cases opened : body = []
        · subst opened
          simp only [receive, step_opening_flag, kept]
          exact ih (.inFrame start []) storage
        · simp only [receive, step_closing_flag opened, kept]
          -- the next frame is stored over this one
          exact congrArg (_ :: ·) (ih (.inFrame 0 []) (storage.putAll (partStores [] body)))
      · have stored : (storage.putAll (partStores [] body)).putAll
            (phaseStores (.inFrame start body) byte) =
              storage.putAll (partStores [] (body ++ [byte])) := by
          rw [partStores_snoc, putAll_append, List.nil_append]
          exact congrArg _ (if_neg closing)
        have next := ih (.inFrame start (body ++ [byte])) storage
        rw [show (Phase.inFrame start (body ++ [byte])).body = body ++ [byte] from rfl, ← stored] at next
        simp only [receive, step_inFrame closing]
        exact next

/-- What the documented loop says of a frame, and the control field that it leaves. -/
def judge (control : HdlcControlT) (body : List Byte) : HdlcControlT × List Outcome :=
  let control := (controlOf body).getD control
  let destLen := (frameData body).length - sizeofFcs
  (control,
    [if Accepted body then .success control destLen ((frameData body).take destLen.toNat) else .eio])

theorem run_judge (storage : Storage) (bodies : List (List Byte)) :
    (run completeStep storage bodies).2.map verdict = (run judge storage.control bodies).2 := by
  refine congrArg Prod.snd (run_sim completeStep Storage.control verdict (fun storage body => ?_)
    storage bodies).symm
  have left := putAll_partStores storage body
  unfold judge completeStep
  rw [List.map_singleton, verdict_body, left]

/-- What follows a stream only adds outcomes. -/
theorem run_judge_append (control : HdlcControlT) (first second : List Byte) :
    (run judge control (segmentsOf hdlcFlagSequence (first ++ second))).2 =
      (run judge control (segmentsOf hdlcFlagSequence first)).2 ++
        (run judge (run judge control (segmentsOf hdlcFlagSequence first)).1
          (run (Phase.step hdlcFlagSequence)
            (run (Phase.step hdlcFlagSequence) (.hunting 0) first).1 second).2).2 := by
  rw [← run_step_segmentsOf _ 0, run_append, run_append, run_step_segmentsOf]

theorem run_feed_judge (control : HdlcControlT) (dest : Int → Byte) (chunks : List (List Byte)) :
    (run feed ⟨hdlcState, ⟨control, dest⟩⟩ chunks).2 =
      (run judge control (run (Phase.step hdlcFlagSequence) (.hunting 0) chunks.flatten).2).2 := by
  have received := run_receive_completeStep (.hunting 0) ⟨control, dest⟩ chunks.flatten
  have fed := congrArg Prod.snd (run_feed (.hunting 0, ⟨control, dest⟩) chunks)
  rw [← run_judge ⟨control, dest⟩, ← received]
  exact fed

/-- **The outcomes of a stream**, however it is cut. -/
theorem feed_segments (control : HdlcControlT) (dest : Int → Byte) (chunks : List (List Byte)) :
    (run feed ⟨hdlcState, ⟨control, dest⟩⟩ chunks).2 =
      (run judge control (segmentsOf hdlcFlagSequence chunks.flatten)).2 := by
  rw [run_feed_judge, run_step_segmentsOf]

/-! ### Frames among anything -/

/-- A frame of the encoder is judged by itself, whatever control field stands before it. -/
theorem judge_sentBody (control sent : HdlcControlT) (payload : List Byte) :
    judge control (sentBody sent payload) =
      (sent, [.success sent (deliverable sent payload).length (deliverable sent payload)]) := by
  obtain ⟨accepted, found, data⟩ := sentBody_spec sent payload
  have length : ((frameData (sentBody sent payload)).length : Int) - sizeofFcs =
      (deliverable sent payload).length := by
    rw [data, List.length_append]
    simp [fcsOctets, sizeofFcs]
  unfold judge
  dsimp only
  rw [if_pos accepted, found, length, data, Int.toNat_natCast, List.take_left]
  rfl

theorem getElem?_run_judge (control : HdlcControlT) (segments : List (List Byte)) {place : Nat}
    {sent : HdlcControlT} {payload : List Byte} (stands : segments[place]? = some (sentBody sent payload)) :
    (run judge control segments).2[place]? =
      some (.success sent (deliverable sent payload).length (deliverable sent payload)) := by
  induction segments generalizing control place with
  | nil => cases stands
  | cons body rest ih =>
    rw [run_cons]
    cases place with
    | zero =>
      obtain rfl := Option.some.inj stands
      rw [judge_sentBody]
      rfl
    | succ place => exact ih _ stands

/-- **A frame between two flags is reported**, at its place, whatever stands around it: noise, damaged
frames, halves of frames, single flags that end one frame and begin the next. -/
theorem sent_reported (control : HdlcControlT) (dest : Int → Byte) (chunks : List (List Byte)) {place : Nat}
    {sent : HdlcControlT} {payload : List Byte}
    (stands : (segmentsOf hdlcFlagSequence chunks.flatten)[place]? = some (sentBody sent payload)) :
    (run feed ⟨hdlcState, ⟨control, dest⟩⟩ chunks).2[place]? =
      some (.success sent (deliverable sent payload).length (deliverable sent payload)) := by
  rw [run_feed_judge, run_step_segmentsOf]
  exact getElem?_run_judge control _ stands

/-- An I-frame between a damaged frame and half a frame, with which it shares its flags. -/
theorem sent_reported_shared_flags :
    (run feed ⟨hdlcState, ⟨⟨.sFrame, 0⟩, fun _ => 0⟩⟩
        [[0x55, 0x7E, 0xFF, 0x11], [0x7E, 0xFF, 0x10, 0x21, 0x25], [0xA5, 0x7E, 0xFF, 0x01, 0x7E]]).2[1]? =
      some (.success ⟨.iFrame, 0⟩ 1 [0x21]) :=
  sent_reported ⟨.sFrame, 0⟩ (fun _ => 0)
    [[0x55, 0x7E, 0xFF, 0x11], [0x7E, 0xFF, 0x10, 0x21, 0x25], [0xA5, 0x7E, 0xFF, 0x01, 0x7E]]
    (by decide +kernel : _ = some (sentBody ⟨.iFrame, 0⟩ [0x21]))

end HdlcMarquee
