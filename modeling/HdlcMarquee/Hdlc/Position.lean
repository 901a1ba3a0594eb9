/-
**What the parser state stands for.**

Every state that the parser reaches is `stateAt phase` for a position in the stream of frames:
before the first flag, or behind a flag with a raw body received since. The stores of a byte are
a function of the raw body before it (`byteStores`).

* `pass_at`: what one pass of the loop does at a position, for all that it can find there.
* `passes_scan`: one run of the loop, from any position over any buffer. Either the buffer completes
  no frame, and the loop reads it all; or the loop breaks at the last of the flags that close the
  first frame, and a receiver that reads on goes on behind that flag. The stores are those of the
  first frame in the buffer.
* `call_waits`, `call_completes`: what a call returns in the two cases.
-/

import HdlcMarquee.Hdlc.GetData

namespace HdlcMarquee

open Generic

/-! ### The state of a position -/

/-- The octets of a raw body that the parser stores: those completed at its third raw byte or
later. -/
def frameData (body : List Byte) : List Byte :=
  (hdlcCode.octets body).drop (hdlcCode.octets (body.take 2)).length

/-- The check of what a raw body carries. -/
def frameFcs (body : List Byte) : BitVec 16 := (hdlcCode.octets body).foldl calcFcs fcsInitValue

/-- The parser state at a position. -/
def stateAt : Phase Byte → HdlcStateT
  | .hunting skipped => { hdlcState with srcIndex := skipped }
  | .inFrame start body =>
    { controlEscape := hdlcCode.pending body
      fcs := frameFcs body
      startIndex := start
      endIndex := -1
      srcIndex := start + 1 + body.length
      destIndex := (frameData body).length }

/-- The state in which the loop breaks: the body is complete and its end is recorded. -/
def closedAt (start : Nat) (body : List Byte) : HdlcStateT :=
  { stateAt (.inFrame start body) with endIndex := (stateAt (.inFrame start body)).srcIndex }

@[simp] theorem stateAt_hunting_zero : stateAt (.hunting 0) = hdlcState := rfl

theorem frameData_short (body : List Byte) (short : body.length ≤ 2) : frameData body = [] := by
  unfold frameData
  rw [List.take_of_length_le short, List.drop_length]

theorem frameData_snoc {body : List Byte} (long : 2 ≤ body.length) (byte : Byte) :
    frameData (body ++ [byte]) =
      frameData body ++ (hdlcCode.unescape (hdlcCode.pending body) byte).2 := by
  have carried : (hdlcCode.octets (body.take 2)).length ≤ (hdlcCode.octets body).length := by
    conv_rhs => rw [← List.take_append_drop 2 body, octets_append, List.length_append]
    exact Nat.le_add_right _ _
  rw [frameData, frameData, octets_snoc, List.take_append_of_le_length long,
    List.drop_append_of_le_length carried]

/-- A raw byte that carries nothing leaves the stored octets as they are. -/
theorem frameData_snoc_esc (body : List Byte) :
    frameData (body ++ [hdlcControlEscape]) = frameData body := by
  rcases Nat.lt_or_ge body.length 2 with short | long
  · rw [frameData_short (body ++ [_]) (by simp; omega), frameData_short body (by omega)]
  · rw [frameData_snoc long]
    simp [Code.unescape]

/-! ### One pass -/

/-- The stores of a byte, behind a raw body. -/
def byteStores (body : List Byte) (byte : Byte) : List Store :=
  if byte = hdlcControlEscape then []
  else
    let value := if hdlcCode.pending body then byte ^^^ 0x20 else byte
    if body.length = 1 then [.control (hdlcGetControlType value)]
    else if 2 ≤ body.length then [.dest (frameData body).length value]
    else []

theorem pass_hunting {byte : Byte} (other : byte ≠ hdlcFlagSequence) (skipped : Nat)
    (following : Option Byte) :
    pass (stateAt (.hunting skipped)) byte following = .next (stateAt (.hunting (skipped + 1))) [] := by
  simp [pass, stateAt, hdlcState, other]

theorem pass_hunting_flag (skipped : Nat) (following : Option Byte) :
    pass (stateAt (.hunting skipped)) hdlcFlagSequence following =
      if following = some hdlcFlagSequence then .next (stateAt (.hunting skipped)) []
      else .next (stateAt (.inFrame skipped [])) [] := by
  simp [pass, stateAt, hdlcState, frameFcs, frameData]

theorem pass_opening_flag (start : Nat) (following : Option Byte) :
    pass (stateAt (.inFrame start [])) hdlcFlagSequence following =
      .next (stateAt (.inFrame start [])) [] := by
  simp [pass, stateAt]

theorem pass_closing_flag {body : List Byte} (some : body ≠ []) (start : Nat)
    (following : Option Byte) :
    pass (stateAt (.inFrame start body)) hdlcFlagSequence following =
      if following = .some hdlcFlagSequence then .next (stateAt (.inFrame start body)) []
      else .break (closedAt start body) := by
  have positive : 0 < body.length := List.length_pos_iff.mpr some
  have begun : ¬ (start : Int) < 0 := by omega
  have apart : ¬ (start : Int) + 1 = start + 1 + body.length := by omega
  simp [pass, stateAt, closedAt, begun, apart]

/-- **A byte other than the flag moves the state along.** -/
theorem pass_inFrame {byte : Byte} (other : byte ≠ hdlcFlagSequence) (start : Nat)
    (body : List Byte) (following : Option Byte) :
    pass (stateAt (.inFrame start body)) byte following =
      .next (stateAt (.inFrame start (body ++ [byte]))) (byteStores body byte) := by
  have begun : ¬ (start : Int) < 0 := by omega
  have further : (start : Int) + 1 + ((body.length + 1 : Nat) : Int) =
      start + 1 + body.length + 1 := by omega
  by_cases escape : byte = hdlcControlEscape
  · subst escape
    simp [pass, stateAt, byteStores, begun, other, pending_snoc, octets_snoc, frameFcs,
      Code.unescape, frameData_snoc_esc, Int.add_assoc]
  · have second : (start : Int) + 1 + body.length = start + 2 ↔ body.length = 1 := by omega
    have later : (start : Int) + 2 < start + 1 + body.length ↔ 2 ≤ body.length := by omega
    obtain ⟨value, unmasked⟩ :
        ∃ value, (if hdlcCode.pending body then byte ^^^ 0x20 else byte) = value := ⟨_, rfl⟩
    have carried : hdlcCode.unescape (hdlcCode.pending body) byte = (false, [value]) := by
      rw [← unmasked, Code.unescape, if_neg (by simpa using escape)]
      rfl
    have folded : frameFcs (body ++ [byte]) = calcFcs (frameFcs body) value := by
      unfold frameFcs
      rw [octets_snoc, carried, List.foldl_append]
      rfl
    have received : (if (stateAt (.inFrame start body)).controlEscape then byte ^^^ 0x20 else byte) =
        value := unmasked
    unfold pass byteStores
    rw [received, unmasked]
    simp only [stateAt, begun, other, escape, if_false, second, gt_iff_lt, later, pending_snoc,
      carried, folded, List.length_append, List.length_singleton, further]
    by_cases one : body.length = 1
    · simp [one, frameData_short (body ++ [byte]) (by simp [one]),
        frameData_short body (by omega)]
    · by_cases long : 2 ≤ body.length
      · simp [one, long, frameData_snoc long, carried]
      · simp [one, long, frameData_short (body ++ [byte]) (by simp; omega),
          frameData_short body (by omega)]

/-- What a pass finds at a position, and what it does. -/
inductive PassAt : Phase Byte → Byte → Option Byte → Pass → Prop
  /-- A flag that another one follows is skipped. -/
  | again (phase : Phase Byte) :
      PassAt phase hdlcFlagSequence (some hdlcFlagSequence) (.next (stateAt phase) [])
  | opens (skipped : Nat) {following : Option Byte} (last : following ≠ some hdlcFlagSequence) :
      PassAt (.hunting skipped) hdlcFlagSequence following (.next (stateAt (.inFrame skipped [])) [])
  /-- The start flag of a frame is read once more at the beginning of a buffer. -/
  | reopens (start : Nat) {following : Option Byte} (last : following ≠ some hdlcFlagSequence) :
      PassAt (.inFrame start []) hdlcFlagSequence following (.next (stateAt (.inFrame start [])) [])
  | closes (start : Nat) {body : List Byte} (some : body ≠ []) {following : Option Byte}
      (last : following ≠ .some hdlcFlagSequence) :
      PassAt (.inFrame start body) hdlcFlagSequence following (.break (closedAt start body))
  | noise (skipped : Nat) {byte : Byte} (other : byte ≠ hdlcFlagSequence) (following : Option Byte) :
      PassAt (.hunting skipped) byte following (.next (stateAt (.hunting (skipped + 1))) [])
  | carries (start : Nat) (body : List Byte) {byte : Byte} (other : byte ≠ hdlcFlagSequence)
      (following : Option Byte) :
      PassAt (.inFrame start body) byte following
        (.next (stateAt (.inFrame start (body ++ [byte]))) (byteStores body byte))

/-- **One pass at any position.** -/
theorem pass_at (phase : Phase Byte) (byte : Byte) (following : Option Byte) :
    PassAt phase byte following (pass (stateAt phase) byte following) := by
  by_cases other : byte = hdlcFlagSequence
  · subst other
    by_cases followed : following = some hdlcFlagSequence
    · subst followed
      have skips : pass (stateAt phase) hdlcFlagSequence (some hdlcFlagSequence) =
          .next (stateAt phase) [] := by
        cases phase with
        | hunting skipped => rw [pass_hunting_flag, if_pos rfl]
        | inFrame start body =>
          by_cases empty : body = []
          · rw [empty, pass_opening_flag]
          · rw [pass_closing_flag empty, if_pos rfl]
      rw [skips]
      exact .again phase
    · cases phase with
      | hunting skipped =>
        rw [pass_hunting_flag, if_neg followed]
        exact .opens skipped followed
      | inFrame start body =>
        by_cases empty : body = []
        · rw [empty, pass_opening_flag]
          exact .reopens start followed
        · rw [pass_closing_flag empty, if_neg followed]
          exact .closes start empty followed
  · cases phase with
    | hunting skipped =>
      rw [pass_hunting other]
      exact .noise skipped other following
    | inFrame start body =>
      rw [pass_inFrame other]
      exact .carries start body other following

/-! ### A run of the loop -/

/-- The stores of a byte, at a position. -/
def phaseStores : Phase Byte → Byte → List Store
  | .hunting _, _ => []
  | .inFrame _ body, byte => if byte = hdlcFlagSequence then [] else byteStores body byte

/-- A raw body growing by one byte, and the stores of that byte. -/
def grow (body : List Byte) (byte : Byte) : List Byte × List Store :=
  (body ++ [byte], byteStores body byte)

/-- The stores of raw bytes that follow a raw body. -/
def partStores (body part : List Byte) : List Store := (run grow body part).2

theorem run_grow (body part : List Byte) : (run grow body part).1 = body ++ part := by
  induction part generalizing body with
  | nil => simp
  | cons byte rest ih => rw [run_cons, ih, grow, List.append_assoc, List.singleton_append]

theorem partStores_append (body first second : List Byte) :
    partStores body (first ++ second) =
      partStores body first ++ partStores (body ++ first) second := by
  unfold partStores
  rw [run_append]
  dsimp only
  rw [run_grow]

theorem partStores_snoc (body part : List Byte) (byte : Byte) :
    partStores body (part ++ [byte]) = partStores body part ++ byteStores (body ++ part) byte := by
  rw [partStores_append, partStores, partStores, run_singleton]
  rfl

/-- The receiver one byte at a time, without looking ahead: a completed body is emitted together
with the caller's memory at that moment. -/
def receive (here : Phase Byte × Storage) (byte : Byte) :
    (Phase Byte × Storage) × List (List Byte × Storage) :=
  let moved := Phase.step hdlcFlagSequence here.1 byte
  ((moved.1, here.2.putAll (phaseStores here.1 byte)), moved.2.map fun body => (body, here.2))

/-- The receiver moves through the positions and completes their bodies. -/
theorem run_receive_phase (phase : Phase Byte) (storage : Storage) (word : List Byte) :
    run (Phase.step hdlcFlagSequence) phase word =
      ((run receive (phase, storage) word).1.1,
        (run receive (phase, storage) word).2.map Prod.fst) := by
  refine run_sim receive Prod.fst Prod.fst (fun here byte => ?_) (phase, storage) word
  unfold receive
  simp [Function.comp_def]

theorem run_receive_flag_flag (here : Phase Byte × Storage) (rest : List Byte) :
    run receive here (hdlcFlagSequence :: hdlcFlagSequence :: rest) =
      run receive here (hdlcFlagSequence :: rest) := by
  obtain ⟨phase, storage⟩ := here
  obtain ⟨start, behind⟩ := step_flag hdlcFlagSequence phase
  have quiet : ∀ phase, phaseStores phase hdlcFlagSequence = [] := by
    intro phase
    cases phase <;> simp [phaseStores]
  have reread : receive (.inFrame start [], storage) hdlcFlagSequence =
      ((.inFrame start [], storage), []) := by
    simp [receive, quiet]
  have first : (receive (phase, storage) hdlcFlagSequence).1 = (.inFrame start [], storage) := by
    simp [receive, quiet, behind]
  rw [run_cons, first, run_cons, reread, run_cons receive (phase, storage), first, List.nil_append]

/-- How a run of the loop over a buffer ends: with the number of bytes before the end of the loop,
the state there and the stores made. -/
inductive Scan (phase : Phase Byte) (src : List Byte) : Nat × HdlcStateT × List Store → Prop
  /-- No frame is completed: the loop reads everything. -/
  | readsAll (reached : Phase Byte) (stores : List Store)
      (body : reached.body = phase.body ++ Phase.part hdlcFlagSequence phase src)
      (made : stores = partStores phase.body (Phase.part hdlcFlagSequence phase src))
      (reads : ∀ storage, run receive (phase, storage) src = ((reached, storage.putAll stores), [])) :
      Scan phase src (src.length, stateAt reached, stores)
  /-- The loop breaks at the last of the flags that close the first frame. -/
  | breaks (before rest : List Byte) (start : Nat) (body : List Byte) (stores : List Store)
      (split : src = before ++ hdlcFlagSequence :: rest) (some : body ≠ [])
      (received : body = phase.body ++ Phase.part hdlcFlagSequence phase src)
      (made : stores = partStores phase.body (Phase.part hdlcFlagSequence phase src))
      (reads : ∀ storage, run receive (phase, storage) src =
        ((run receive (.inFrame 0 [], storage.putAll stores) rest).1,
          (body, storage.putAll stores) ::
            (run receive (.inFrame 0 [], storage.putAll stores) rest).2)) :
      Scan phase src (before.length, closedAt start body, stores)

/-- A pass that completes nothing extends the run behind it. -/
theorem Scan.cons {phase next : Phase Byte} {byte : Byte} {rest : List Byte} {count : Nat}
    {state : HdlcStateT} {stores : List Store} (scan : Scan next rest (count, state, stores))
    (moves : Phase.step hdlcFlagSequence phase byte = (next, []))
    (body : phase.body ++ Phase.part hdlcFlagSequence phase (byte :: rest) =
      next.body ++ Phase.part hdlcFlagSequence next rest)
    (made : partStores phase.body (Phase.part hdlcFlagSequence phase (byte :: rest)) =
      phaseStores phase byte ++ partStores next.body (Phase.part hdlcFlagSequence next rest)) :
    Scan phase (byte :: rest) (count + 1, state, phaseStores phase byte ++ stores) := by
  have step : ∀ storage : Storage, receive (phase, storage) byte =
      ((next, storage.putAll (phaseStores phase byte)), []) := by
    intro storage
    simp [receive, moves]
  cases scan with
  | readsAll reached stores body' made' reads =>
    refine @Scan.readsAll phase (byte :: rest) reached _ (body'.trans body.symm) (by rw [made, made']) ?_
    intro storage
    rw [run_cons, step, reads, putAll_append, List.nil_append]
  | breaks before after start received stores split some body' made' reads =>
    refine .breaks (byte :: before) after start received _ (by rw [split, List.cons_append]) some
      (body'.trans body.symm) (by rw [made, made']) ?_
    intro storage
    rw [run_cons, step, reads, putAll_append, List.nil_append]

/-- A flag skipped because another one follows it extends the run from the same position. -/
theorem Scan.flag_flag {phase : Phase Byte} {rest : List Byte} {count : Nat} {state : HdlcStateT}
    {stores : List Store} (scan : Scan phase (hdlcFlagSequence :: rest) (count, state, stores)) :
    Scan phase (hdlcFlagSequence :: hdlcFlagSequence :: rest) (count + 1, state, stores) := by
  have part : Phase.part hdlcFlagSequence phase (hdlcFlagSequence :: hdlcFlagSequence :: rest) =
      Phase.part hdlcFlagSequence phase (hdlcFlagSequence :: rest) := by
    cases phase with
    | hunting skipped => simp
    | inFrame start body =>
      by_cases empty : body = []
      · simp [empty]
      · simp [part_closing_flag empty]
  cases scan with
  | readsAll reached stores body made reads =>
    refine @Scan.readsAll phase (_ :: _ :: rest) reached stores (by rw [part, body]) (by rw [part, made])
      ?_
    intro storage
    rw [run_receive_flag_flag, reads]
  | breaks before after start received stores split some body made reads =>
    refine .breaks (hdlcFlagSequence :: before) after start received stores
      (by rw [split, List.cons_append]) some (by rw [part, body]) (by rw [part, made]) ?_
    intro storage
    rw [run_receive_flag_flag, reads]

/-- **A run of the loop from any position.** -/
theorem passes_scan (phase : Phase Byte) (src : List Byte) :
    Scan phase src (passes (stateAt phase) src) := by
  induction src generalizing phase with
  | nil => exact .readsAll phase [] (by simp) (by simp [partStores]) fun storage => by simp
  | cons byte rest ih =>
    have here := pass_at phase byte rest.head?
    rw [passes]
    generalize followed : rest.head? = following at here ⊢
    generalize pass (stateAt phase) byte following = moved at here ⊢
    cases here with
    | again =>
      obtain ⟨more, rfl⟩ : ∃ more, rest = hdlcFlagSequence :: more :=
        ⟨rest.tail, (List.cons_head?_tail followed).symm⟩
      exact (ih phase).flag_flag
    | opens skipped last =>
      exact (ih (.inFrame skipped [])).cons (step_hunting_flag _ skipped)
        (by rw [part_hunting_flag]; rfl) (by rw [part_hunting_flag]; rfl)
    | reopens start last =>
      exact (ih (.inFrame start [])).cons (step_opening_flag _ start)
        (by rw [part_opening_flag]) (by rw [part_opening_flag]; simp [phaseStores])
    | closes start nonempty last =>
      refine .breaks [] rest start _ [] rfl nonempty ?_ ?_ fun storage => ?_
      · rw [part_closing_flag nonempty, List.append_nil, Phase.body]
      · rw [part_closing_flag nonempty]
        rfl
      · simp [run_cons, receive, step_closing_flag nonempty, phaseStores]
    | noise skipped other =>
      exact (ih (.hunting (skipped + 1))).cons (step_hunting other skipped)
        (by rw [part_hunting other]; rfl) (by rw [part_hunting other]; rfl)
    | carries start body other =>
      have stores : phaseStores (.inFrame start body) byte = byteStores body byte := if_neg other
      rw [← stores]
      refine (ih (.inFrame start (body ++ [byte]))).cons (step_inFrame other start body) ?_ ?_
      · rw [part_inFrame other]
        simp [Phase.body]
      · rw [part_inFrame other, stores]
        rfl

/-! ### A call -/

/-- The parser's test of a complete raw body: its length on the line, and the residue. -/
def Accepted (body : List Byte) : Prop := 3 ≤ body.length ∧ frameFcs body = fcsGoodValue

instance (body : List Byte) : Decidable (Accepted body) :=
  inferInstanceAs (Decidable (3 ≤ body.length ∧ frameFcs body = fcsGoodValue))

theorem stateAt_endIndex (phase : Phase Byte) : (stateAt phase).endIndex < 0 := by
  cases phase <;> simp [stateAt, hdlcState]

theorem hdlcGetDataWithState_readsAll {state : HdlcStateT} {src : List Byte} {count : Nat}
    {reached : Phase Byte} {stores : List Store}
    (scanned : passes state src = (count, stateAt reached, stores)) :
    hdlcGetDataWithState state (some src) =
      { ret := .error .enomsg, destLen := some 0, state := stateAt reached, stores := stores } := by
  simp only [hdlcGetDataWithState, scanned]
  rw [if_pos (Or.inr (stateAt_endIndex reached))]

theorem hdlcGetDataWithState_breaks {state : HdlcStateT} {src : List Byte} {count start : Nat}
    {body : List Byte} {stores : List Store}
    (scanned : passes state src = (count, closedAt start body, stores)) :
    hdlcGetDataWithState state (some src) =
      if Accepted body then
        { ret := .ok count, destLen := some ((frameData body).length - sizeofFcs),
          state := hdlcState, stores := stores }
      else
        { ret := .error .eio, destLen := some count, state := hdlcState, stores := stores } := by
  have ended : ¬ ((closedAt start body).startIndex < 0 ∨ (closedAt start body).endIndex < 0) := by
    simp only [closedAt, stateAt]
    omega
  have test : ((closedAt start body).endIndex < (closedAt start body).startIndex + 4 ∨
      (closedAt start body).fcs ≠ fcsGoodValue) ↔ ¬ Accepted body := by
    simp only [closedAt, stateAt, Accepted, not_and_or, Nat.not_le, ne_eq]
    exact or_congr_left (by omega)
  simp only [hdlcGetDataWithState, scanned]
  rw [if_neg ended]
  by_cases accepted : Accepted body
  · rw [if_neg (fun damaged => test.mp damaged accepted), if_pos accepted]
    rfl
  · rw [if_pos (test.mpr accepted), if_neg accepted]
    rfl

/-- **A call that completes no frame** waits for more, at the position its buffer leads to. -/
theorem call_waits {phase : Phase Byte} {src : List Byte}
    (quiet : (run (Phase.step hdlcFlagSequence) phase src).2 = []) :
    hdlcGetDataWithState (stateAt phase) (some src) =
      { ret := .error .enomsg, destLen := some 0,
        state := stateAt (run (Phase.step hdlcFlagSequence) phase src).1,
        stores := partStores phase.body (Phase.part hdlcFlagSequence phase src) } := by
  have scan := passes_scan phase src
  generalize scanned : passes (stateAt phase) src = result at scan
  have moves := run_receive_phase phase .fresh src
  cases scan with
  | readsAll reached stores body made reads =>
    rw [hdlcGetDataWithState_readsAll scanned, moves, reads, made]
  | breaks before rest start body stores split some received made reads =>
    rw [moves, reads] at quiet
    cases quiet

/-- **A call that completes a frame** ends at a flag of the buffer and judges the frame's body. -/
theorem call_completes {phase : Phase Byte} {src body : List Byte} {more : List (List Byte)}
    (completes : (run (Phase.step hdlcFlagSequence) phase src).2 = body :: more) :
    body = phase.body ++ Phase.part hdlcFlagSequence phase src ∧
      ∃ count, src[count]? = some hdlcFlagSequence ∧
        hdlcGetDataWithState (stateAt phase) (some src) =
          if Accepted body then
            { ret := .ok count, destLen := some ((frameData body).length - sizeofFcs),
              state := hdlcState,
              stores := partStores phase.body (Phase.part hdlcFlagSequence phase src) }
          else
            { ret := .error .eio, destLen := some count, state := hdlcState,
              stores := partStores phase.body (Phase.part hdlcFlagSequence phase src) } := by
  have scan := passes_scan phase src
  generalize scanned : passes (stateAt phase) src = result at scan
  have moves := run_receive_phase phase .fresh src
  cases scan with
  | readsAll reached stores body' made reads =>
    rw [moves, reads] at completes
    cases completes
  | breaks before rest start body' stores split some received made reads =>
    rw [moves, reads] at completes
    obtain ⟨rfl, _⟩ := List.cons.inj completes
    refine ⟨received, before.length, ?_, ?_⟩
    · rw [split]
      simp
    · rw [hdlcGetDataWithState_breaks scanned, made]

end HdlcMarquee
