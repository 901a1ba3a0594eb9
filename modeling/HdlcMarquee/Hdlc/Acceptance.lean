/-
**What the parser accepts, and what it makes of it.**

The parser looks for the control octet and the start of the data at raw positions, and measures a
frame by its raw length, while escapes count among the raw bytes.

* `delivers_iff_plain`: it delivers what a frame carries exactly when the first two octets were sent
  as they are.
* `successes_sound_iff`: it reports the length of what it stored, in every success of a run, exactly
  when no accepted body escapes one of its first two octets or carries less than an address, a
  control octet and a check (`Bare`).
* `malformed_judged`: escapes that mask nothing are dropped, and what remains is judged.
-/

import HdlcMarquee.Hdlc.Calls

namespace HdlcMarquee

open Generic

/-! ### Transparency of byte stuffing -/

/-- The frame of a raw body, read from the reset state, succeeds with the control field and the data
of the octets given. -/
def Delivers (octets body : List Byte) : Prop :=
  let call := hdlcGetDataWithState hdlcState
    (some (hdlcFlagSequence :: body ++ [hdlcFlagSequence]))
  ∀ storage : Storage,
    (∃ count, call.ret = .ok count) ∧
      some (storage.putAll call.stores).control = octets[1]?.map hdlcGetControlType ∧
      call.destLen = some ((octets.length : Int) - 4) ∧
      (storage.putAll call.stores).read (octets.length - 4) =
        (octets.drop 2).take (octets.length - 4)

/-- **The first two octets of a plain stuffing**, and the stuffing of the others. -/
theorem plain_stuffed {octets body : List Byte} (stuffed : Stuffed hdlcCode octets body)
    (long : 2 ≤ octets.length) (plain : Plain body) :
    ∃ first second octets' body', octets = first :: second :: octets' ∧
      body = first :: second :: body' ∧ first ≠ hdlcControlEscape ∧ second ≠ hdlcControlEscape ∧
      Stuffed hdlcCode octets' body' := by
  cases stuffed with
  | nil => exact absurd long (by decide)
  | @raw first octets₁ body₁ _ notEsc rest =>
    cases rest with
    | nil => exact absurd long (by simp)
    | @raw second octets₂ body₂ _ notEsc' rest' =>
      exact ⟨first, second, octets₂, body₂, rfl, rfl, notEsc, notEsc', rest'⟩
    | escaped _ _ _ => exact absurd rfl plain.2
  | escaped _ _ _ => exact absurd rfl plain.1

/-- **Byte stuffing is transparent exactly where the address and the control octet were sent as they
are.** -/
theorem delivers_iff_plain {octets body : List Byte} (long : 4 ≤ octets.length)
    (good : octets.foldl calcFcs fcsInitValue = fcsGoodValue)
    (stuffed : Stuffed hdlcCode octets body) : Delivers octets body ↔ Plain body := by
  have carried := stuffed.octets_eq
  have grown := stuffed.length_le
  have accepted : Accepted body := ⟨by omega, by rw [frameFcs, carried, good]⟩
  have nonempty : body ≠ [] := List.ne_nil_of_length_pos (by omega)
  obtain ⟨count, call⟩ := call_frame nonempty stuffed.flag_notMem
  rw [if_pos accepted] at call
  have lengths := length_frameData body
  rw [carried] at lengths
  rw [Delivers, call]
  constructor
  · intro delivers
    obtain ⟨_, _, reported, _⟩ := delivers .fresh
    have stored : ((frameData body).length : Int) - sizeofFcs = octets.length - 4 :=
      Option.some.inj reported
    unfold sizeofFcs at stored
    exact (length_octets_take_two (by omega)).mp (by omega)
  · intro plain storage
    obtain ⟨first, second, octets', body', rfl, rfl, notEsc, notEsc', rest⟩ :=
      plain_stuffed stuffed (by omega) plain
    obtain ⟨control, _, data⟩ := plain_body notEsc notEsc' rest
    refine ⟨⟨count, rfl⟩, ?_, ?_, ?_⟩
    · rw [putAll_partStores, control]
      rfl
    · rw [data, sizeofFcs, List.length_cons, List.length_cons]
      exact congrArg some (by omega)
    · have inside : (((first :: second :: octets').length : Int) - 4) ≤ octets'.length := by
        rw [List.length_cons, List.length_cons]
        omega
      have same : (((first :: second :: octets').length : Int) - 4).toNat =
          (first :: second :: octets').length - 4 := by omega
      rw [putAll_partStores, data, read_overlay _ _ inside, same]
      rfl

/-- An acknowledgement whose check contains no reserved octet, with one octet of it escaped. -/
theorem delivers_escaped_check :
    Delivers [0xFF, 0x01, 0x0E, 0xE1] [0xFF, 0x01, 0x7D, 0x2E, 0xE1] :=
  (delivers_iff_plain (show 4 ≤ ([0xFF, 0x01, 0x0E, 0xE1] : List Byte).length by decide)
    (by decide +kernel)
    (.raw (by decide) (by decide) (.raw (by decide) (by decide)
      (.escaped (by decide) (by decide) (.raw (by decide) (by decide) .nil))))).mpr (by decide)

/-- The same acknowledgement with its control octet escaped: three octets are stored, and the
control storage is never written. -/
theorem not_delivers_escaped_control :
    ¬ ∀ octets body : List Byte, 4 ≤ octets.length →
      octets.foldl calcFcs fcsInitValue = fcsGoodValue → Stuffed hdlcCode octets body →
      Delivers octets body := by
  intro transparent
  have stuffed : Stuffed hdlcCode [0xFF, 0x01, 0x0E, 0xE1] [0xFF, 0x7D, 0x21, 0x0E, 0xE1] :=
    .raw (by decide) (by decide) (.escaped (by decide) (by decide)
      (.raw (by decide) (by decide) (.raw (by decide) (by decide) .nil)))
  obtain ⟨_, _, reported, _⟩ := transparent _ _ (by decide) (by decide +kernel) stuffed .fresh
  revert reported
  decide +kernel

/-! ### Frames that are too short -/

/-- The octets end with the check of those before it. -/
def Checked (octets : List Byte) : Prop :=
  ∃ message : List Byte, octets =
    message ++ fcsOctets (message.foldl calcFcs fcsInitValue ^^^ fcsInvertMask)

/-- **A good residue is a check** behind the octets that it is of. -/
theorem checked_iff (octets : List Byte) :
    octets.foldl calcFcs fcsInitValue = fcsGoodValue ↔ Checked octets := by
  constructor
  · intro good
    rcases List.eq_nil_or_concat octets with rfl | ⟨octets, high, rfl⟩
    · exact absurd good (by decide)
    rcases List.eq_nil_or_concat octets with rfl | ⟨message, low, rfl⟩
    · have never : ∀ octet : Byte, [octet].foldl calcFcs fcsInitValue ≠ fcsGoodValue := by
        decide +kernel
      exact absurd good (never high)
    · rw [List.concat_eq_append, List.concat_eq_append, List.append_assoc, List.foldl_append] at good
      refine ⟨message, ?_⟩
      rw [List.concat_eq_append, List.concat_eq_append, List.append_assoc]
      exact congrArg (message ++ ·) ((foldl_calcFcs_good_iff _ low high).mp good)
  · rintro ⟨message, rfl⟩
    rw [List.foldl_append]
    exact (foldl_calcFcs_good_iff _ _ _).mpr rfl

/-- The octets are a check and at most one octet before it. -/
def Bare (body : List Byte) : Prop :=
  ∃ message : List Byte, message.length ≤ 1 ∧ hdlcCode.octets body =
    message ++ fcsOctets (message.foldl calcFcs fcsInitValue ^^^ fcsInvertMask)

/-- A good residue takes a check, so less than four octets with a good residue are bare. -/
theorem bare_iff {body : List Byte} (good : frameFcs body = fcsGoodValue) :
    Bare body ↔ (hdlcCode.octets body).length < 4 := by
  have check : ∀ fcs : BitVec 16, (fcsOctets fcs).length = 2 := fun _ => rfl
  constructor
  · rintro ⟨message, short, carried⟩
    rw [carried, List.length_append, check]
    omega
  · intro short
    obtain ⟨message, carried⟩ := (checked_iff _).mp good
    rw [carried, List.length_append, check] at short
    exact ⟨message, by omega, carried⟩

/-- A success is sound: its frame carries an address, a control octet and a check, the check has been
stored, and the reported length is that of the octets between. -/
def Success.Sound (success : Success) : Prop :=
  4 ≤ (hdlcCode.octets success.body).length ∧ sizeofFcs ≤ success.destIndex ∧
    success.destLen = some (((hdlcCode.octets success.body).length : Int) - 4) ∧
    ∀ length ∈ success.destLen, 0 ≤ length ∧ length ≤ success.destIndex

theorem sound_successOf {body : List Byte} (accepted : Accepted body) :
    (successOf body).Sound ↔ Plain body ∧ ¬ Bare body := by
  have lengths := length_frameData body
  have two := length_octets_take_two_le body
  have long : 2 ≤ body.length := le_trans (by decide) accepted.1
  have plain := length_octets_take_two long
  rw [bare_iff accepted.2, ← plain, Success.Sound, successOf, sizeofFcs]
  simp only [Option.some.injEq, Option.mem_def, forall_eq']
  omega

/-- **Short frames and the reported length.** In every run of calls from the reset state, all
successes are sound exactly when no accepted body escapes one of its first two octets or is bare. -/
theorem successes_sound_iff (buffers : List (List Byte)) :
    (∀ success ∈ (run callStep (hdlcState, []) buffers).2, success.Sound) ↔
      ∀ body ∈ (run frameStep [] buffers).2, Accepted body → Plain body ∧ ¬ Bare body := by
  have none : bodies [] = [] := rfl
  have successes := run_callStep none buffers
  rw [show stateAt (position []) = hdlcState from rfl] at successes
  rw [successes]
  simp only [List.forall_mem_map, List.mem_filter, decide_eq_true_eq, and_imp]
  exact forall₂_congr fun body _ => forall_congr' fun accepted => sound_successOf accepted

/-- An octet and its check: accepted, with one octet stored and a length of minus one. -/
theorem not_successes_sound :
    ¬ ∀ buffers : List (List Byte),
      ∀ success ∈ (run callStep (hdlcState, []) buffers).2, success.Sound := by
  intro sound
  have carried : 4 ≤ (hdlcCode.octets [0x01, 0xF1, 0xE1]).length :=
    (sound [[0x7E, 0x01, 0xF1, 0xE1, 0x7E]] ⟨[0x01, 0xF1, 0xE1], 1, some (-1)⟩ (by decide +kernel)).1
  exact absurd carried (by decide)

/-! ### Malformed escapes -/

/-- A run of calls from the reset state reports a body as a success. -/
def Reported (buffers : List (List Byte)) (body : List Byte) : Prop :=
  ∃ success ∈ (run callStep (hdlcState, []) buffers).2, success.body = body

/-- What is reported as a success are the accepted bodies that the run completes. -/
theorem reported_iff (buffers : List (List Byte)) (body : List Byte) :
    Reported buffers body ↔ body ∈ (run frameStep [] buffers).2 ∧ Accepted body := by
  have none : bodies [] = [] := rfl
  have successes := run_callStep none buffers
  rw [show stateAt (position []) = hdlcState from rfl] at successes
  unfold Reported
  rw [successes]
  simp [successOf]

/-- **Malformed escapes are dropped.** In every run of calls from the reset state, a completed body
is judged by its length and by what remains when each escape in front of another one, or in front of
the closing flag, is dropped: it is a success only if that ends with its own check, and then, from
four raw bytes on, always. -/
theorem malformed_judged (buffers : List (List Byte)) :
    ∀ body ∈ (run frameStep [] buffers).2,
      let settled := hdlcCode.settle body
      ¬ hdlcCode.Malformed settled ∧
        (Reported buffers body → Checked (hdlcCode.octets settled)) ∧
        (4 ≤ body.length → Checked (hdlcCode.octets settled) → Reported buffers body) := by
  intro body completed
  dsimp only
  rw [reported_iff, octets_settle, ← checked_iff]
  refine ⟨not_malformed_settle hdlcCode body, fun reported => reported.2.2, fun long good => ?_⟩
  exact ⟨completed, le_trans (by decide) long, good⟩

/-- An acknowledgement with two escapes in front of an octet of its check. -/
theorem malformed_judged_twice :
    Checked (hdlcCode.octets (hdlcCode.settle [0xFF, 0x01, 0x0E, 0x7D, 0x7D, 0xC1])) :=
  (malformed_judged [[0x7E, 0xFF, 0x01, 0x0E, 0x7D, 0x7D, 0xC1, 0x7E]] _ List.mem_cons_self).2.1
    ⟨⟨[0xFF, 0x01, 0x0E, 0x7D, 0x7D, 0xC1], 2, some 0⟩, by decide +kernel, rfl⟩

/-- It is accepted. -/
theorem not_malformed_refused :
    ¬ ∀ buffers : List (List Byte), ∀ body ∈ (run frameStep [] buffers).2, hdlcCode.Malformed body →
      ¬ Reported buffers body := by
  intro refused
  exact refused [[0x7E, 0xFF, 0x01, 0x0E, 0x7D, 0x7D, 0xC1, 0x7E]] _ List.mem_cons_self
    (.inl ⟨[0xFF, 0x01, 0x0E], [0xC1], rfl⟩)
    ⟨⟨[0xFF, 0x01, 0x0E, 0x7D, 0x7D, 0xC1], 2, some 0⟩, by decide +kernel, rfl⟩

end HdlcMarquee
