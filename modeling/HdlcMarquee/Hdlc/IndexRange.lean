/-
**The parser's indices on the target's `int`.**

On the ATmega328P an `int` has 16 bits. `runSums` lists the results of all `int` additions that a run of
calls computes, in the source's order; the calls are those of the target as long as every one of them is
in the range (`targetCalls`).

`src_index` counts every byte since the last reset, flags that follow each other once (`counted`), so
whether the sums of a call are in the range is a condition on the bytes alone (`ChunkFits`):
`indices_fit_iff`.
-/

import HdlcMarquee.Hdlc.FrameData
import HdlcMarquee.Hdlc.Representation
import HdlcMarquee.Target

namespace HdlcMarquee

open Generic

/-! ### The sums that the parser computes -/

/-- The sums of one pass of the loop. -/
def passSums (state : HdlcStateT) (byte : Byte) (following : Option Byte) : List Int :=
  if state.startIndex < 0 then
    if byte = hdlcFlagSequence then
      if following = some hdlcFlagSequence then [] else [state.srcIndex + 1]
    else [state.srcIndex + 1]
  else if byte = hdlcFlagSequence then
    -- `||` computes the second operand only if no flag follows
    if following = some hdlcFlagSequence then [] else [state.startIndex + 1]
  else if byte = hdlcControlEscape then [state.srcIndex + 1]
  else if state.srcIndex = state.startIndex + 2 then [state.startIndex + 2, state.srcIndex + 1]
  else if state.srcIndex > state.startIndex + 2 then
    [state.startIndex + 2, state.startIndex + 2, state.destIndex + 1, state.srcIndex + 1]
  else [state.startIndex + 2, state.startIndex + 2, state.srcIndex + 1]

/-- The sums of the loop. -/
def passesSums (state : HdlcStateT) : List Byte → List Int
  | [] => []
  | byte :: rest =>
    passSums state byte rest.head? ++
      match pass state byte rest.head? with
      | .next state _ => passesSums state rest
      | .break _ => []

/-- The sums of a call: those of the loop, and the one of the length test. -/
def callSums (state : HdlcStateT) : Option (List Byte) → List Int
  | none => []
  | some src =>
    let (_, reached, _) := passes state src
    passesSums state src ++
      if reached.startIndex < 0 ∨ reached.endIndex < 0 then [] else [reached.startIndex + 4]

/-- The sums of a run of calls. -/
def runSums (state : HdlcStateT) : List (Option (List Byte)) → List Int
  | [] => []
  | src :: rest =>
    callSums state src ++ runSums (hdlcGetDataWithState state src).state rest

/-- What the calls of a run return. -/
def runCalls (state : HdlcStateT) : List (Option (List Byte)) → List GetData
  | [] => []
  | src :: rest =>
    hdlcGetDataWithState state src :: runCalls (hdlcGetDataWithState state src).state rest

/-- What they return on the target, where a sum out of range is a failure. -/
def targetCalls (state : HdlcStateT) (sources : List (Option (List Byte))) : Option (List GetData) :=
  if ∀ sum ∈ runSums state sources, FitsInt sum then some (runCalls state sources) else none

/-! ### One pass -/

/-- The state behind a pass. -/
def Pass.state : Pass → HdlcStateT
  | .next state _ => state
  | .break state => state

/-- How the indices of a reachable state are ordered, in the range. -/
structure Ordered (state : HdlcStateT) : Prop where
  start : -1 ≤ state.startIndex
  behind : state.startIndex < state.srcIndex
  dest : 0 ≤ state.destIndex ∧ state.destIndex ≤ state.srcIndex
  inside : state.srcIndex ≤ 32767

theorem ordered_stateAt {phase : Phase Byte} (inside : (stateAt phase).srcIndex ≤ 32767) :
    Ordered (stateAt phase) := by
  cases phase with
  | hunting skipped =>
    refine ⟨le_refl _, ?_, ?_, inside⟩ <;> simp only [stateAt, hdlcState] <;> omega
  | inFrame start body =>
    have short := length_frameData_le body
    refine ⟨?_, ?_, ?_, inside⟩ <;> simp only [stateAt] <;> omega

/-- **The sums of a pass** are in the range exactly when `src_index` stays there: the others are
smaller. -/
theorem passSums_fit_iff {state : HdlcStateT} (ordered : Ordered state) (byte : Byte)
    (following : Option Byte) :
    (∀ sum ∈ passSums state byte following, FitsInt sum) ↔
      (pass state byte following).state.srcIndex ≤ 32767 := by
  obtain ⟨start, behind, dest, inside⟩ := ordered
  unfold passSums pass
  by_cases hunting : state.startIndex < 0
  · rw [if_pos hunting, if_pos hunting]
    by_cases flag : byte = hdlcFlagSequence
    · rw [if_pos flag, if_pos flag]
      by_cases followed : following = some hdlcFlagSequence
      · simp [followed, Pass.state, inside]
      · simp only [followed, if_false, List.mem_singleton, forall_eq, fitsInt_iff, Pass.state]
        omega
    · simp only [flag, if_false, List.mem_singleton, forall_eq, fitsInt_iff, Pass.state]
      omega
  · rw [if_neg hunting, if_neg hunting]
    by_cases flag : byte = hdlcFlagSequence
    · rw [if_pos flag, if_pos flag]
      by_cases followed : following = some hdlcFlagSequence
      · simp [followed, Pass.state, inside]
      · have opening : FitsInt (state.startIndex + 1) := fitsInt_iff.mpr ⟨by omega, by omega⟩
        simp only [followed, if_false, false_or, List.mem_singleton, forall_eq, opening, true_iff]
        split <;> exact inside
    · rw [if_neg flag, if_neg flag]
      by_cases escape : byte = hdlcControlEscape
      · simp only [escape, if_true, List.mem_singleton, forall_eq, fitsInt_iff, Pass.state]
        omega
      · rw [if_neg escape, if_neg escape]
        dsimp only
        by_cases second : state.srcIndex = state.startIndex + 2
        · simp only [second, if_true, List.mem_cons, List.not_mem_nil, or_false, forall_eq_or_imp,
            forall_eq, fitsInt_iff, Pass.state]
          omega
        · rw [if_neg second, if_neg second]
          by_cases later : state.srcIndex > state.startIndex + 2
          · simp only [later, if_true, List.mem_cons, List.not_mem_nil, or_false, forall_eq_or_imp,
              forall_eq, fitsInt_iff, Pass.state]
            omega
          · simp only [later, if_false, List.mem_cons, List.not_mem_nil, or_false,
              forall_eq_or_imp, forall_eq, fitsInt_iff, Pass.state]
            omega

/-- `src_index` never goes back within a call. -/
theorem pass_srcIndex (state : HdlcStateT) (byte : Byte) (following : Option Byte) :
    state.srcIndex ≤ (pass state byte following).state.srcIndex := by
  unfold pass
  dsimp only
  repeat' split
  all_goals simp [Pass.state]

theorem passes_srcIndex (state : HdlcStateT) (src : List Byte) :
    state.srcIndex ≤ (passes state src).2.1.srcIndex := by
  induction src generalizing state with
  | nil => exact le_refl _
  | cons byte rest ih =>
    have first := pass_srcIndex state byte rest.head?
    rw [passes]
    cases moved : pass state byte rest.head? with
    | next reached stores =>
      rw [moved] at first
      exact le_trans first (ih reached)
    | «break» reached =>
      rw [moved] at first
      exact first

/-- **The sums of the loop** are in the range exactly when `src_index` is at its end. -/
theorem passesSums_fit_iff {phase : Phase Byte} (inside : (stateAt phase).srcIndex ≤ 32767)
    (src : List Byte) :
    (∀ sum ∈ passesSums (stateAt phase) src, FitsInt sum) ↔
      (passes (stateAt phase) src).2.1.srcIndex ≤ 32767 := by
  induction src generalizing phase with
  | nil => simp [passesSums, passes, inside]
  | cons byte rest ih =>
    have first := passSums_fit_iff (ordered_stateAt inside) byte rest.head?
    rw [passesSums, passes]
    simp only [List.mem_append, or_imp, forall_and, first]
    rcases pass_stateAt phase byte rest.head? with ⟨next, moved, _⟩ | ⟨start, body, _, _, breaks⟩
    · have further := passes_srcIndex (stateAt next) rest
      rw [moved]
      simp only [Pass.state]
      constructor
      · rintro ⟨reached, later⟩
        exact (ih reached).mp later
      · intro final
        exact ⟨further.trans final, (ih (further.trans final)).mpr final⟩
    · rw [breaks]
      simp [Pass.state]

/-! ### What the indices count -/

/-- The number of bytes before the first flag. -/
def noiseLength (fed : List Byte) : Nat := (fed.takeWhile (· ≠ hdlcFlagSequence)).length

/-- The number of bytes, without what lies between the first flag and the last. -/
def counted (fed : List Byte) : Nat :=
  if hdlcFlagSequence ∈ fed then
    noiseLength fed + 1 + (fed.reverse.takeWhile (· ≠ hdlcFlagSequence)).length
  else fed.length

theorem noiseLength_flag (rest : List Byte) : noiseLength (hdlcFlagSequence :: rest) = 0 := by
  rw [noiseLength, takeWhile_ne_cons, List.length_nil]

theorem noiseLength_other {byte : Byte} (other : byte ≠ hdlcFlagSequence) (rest : List Byte) :
    noiseLength (byte :: rest) = noiseLength rest + 1 := by
  rw [noiseLength, List.takeWhile_cons_of_pos (by simpa using other), List.length_cons, noiseLength]

theorem noiseLength_frame {noise : List Byte} (quiet : hdlcFlagSequence ∉ noise) (rest : List Byte) :
    noiseLength (noise ++ hdlcFlagSequence :: rest) = noise.length := by
  rw [noiseLength, takeWhile_ne_append quiet, takeWhile_ne_cons, List.append_nil]

theorem counted_frame {noise body : List Byte} (quiet : hdlcFlagSequence ∉ noise)
    (quiet' : hdlcFlagSequence ∉ body) (repeated : Nat) :
    counted (noise ++ List.replicate (repeated + 1) hdlcFlagSequence ++ body) =
      noise.length + 1 + body.length := by
  have reversed : hdlcFlagSequence ∉ body.reverse := fun member => quiet' (List.mem_reverse.mp member)
  have holds : hdlcFlagSequence ∈
      noise ++ List.replicate (repeated + 1) hdlcFlagSequence ++ body := by simp
  rw [counted, if_pos holds, List.append_assoc, List.replicate_succ, List.cons_append,
    noiseLength_frame quiet, ← List.cons_append, ← List.replicate_succ, List.reverse_append,
    List.reverse_append, List.reverse_replicate, List.append_assoc, takeWhile_ne_append reversed,
    List.replicate_succ, List.cons_append, takeWhile_ne_cons, List.append_nil, List.length_reverse]

/-- **`src_index` counts the bytes since the last reset.** -/
theorem srcIndex_position {fed : List Byte} (waits : bodies fed = []) :
    (stateAt (position fed)).srcIndex = counted fed := by
  rcases run_quiet_split fed waits with
    ⟨free, reached⟩ | ⟨noise, repeated, body, split, quiet, quiet', reached⟩
  · rw [position, reached, counted, if_neg free]
    rfl
  · rw [position, reached, split, counted_frame quiet quiet']
    simp [stateAt]

/-- Where the start flag of the first frame is. -/
def opening : Phase Byte → List Byte → Nat
  | .hunting skipped, src => skipped + noiseLength src
  | .inFrame start _, _ => start

theorem opening_position {fed : List Byte} (waits : bodies fed = []) (chunk : List Byte) :
    opening (position fed) chunk = noiseLength (fed ++ chunk) := by
  rcases run_quiet_split fed waits with
    ⟨free, reached⟩ | ⟨noise, repeated, body, split, quiet, quiet', reached⟩
  · rw [position, reached, opening, noiseLength, noiseLength, takeWhile_ne_append free,
      List.length_append]
  · rw [position, reached, opening, split, List.append_assoc, List.append_assoc,
      List.replicate_succ, List.cons_append, noiseLength_frame quiet]

/-- A pass that goes on leaves the start flag where it is. -/
theorem pass_opening (phase : Phase Byte) (byte : Byte) (rest : List Byte) :
    (∃ next stores, pass (stateAt phase) byte rest.head? = .next (stateAt next) stores ∧
      opening next rest = opening phase (byte :: rest)) ∨
    ∃ start body, phase = .inFrame start body ∧
      pass (stateAt phase) byte rest.head? = .break (closedAt start body) := by
  have here := pass_at phase byte rest.head?
  generalize followed : rest.head? = following at here ⊢
  generalize pass (stateAt phase) byte following = moved at here ⊢
  cases here with
  | again =>
    have first : noiseLength rest = 0 := by
      rw [← List.cons_head?_tail followed, noiseLength_flag]
    refine Or.inl ⟨phase, [], rfl, ?_⟩
    cases phase with
    | hunting skipped => rw [opening, opening, first, noiseLength_flag]
    | inFrame start body => rfl
  | opens skipped last =>
    refine Or.inl ⟨.inFrame skipped [], [], rfl, ?_⟩
    rw [opening, opening, noiseLength_flag, Nat.add_zero]
  | reopens start last => exact Or.inl ⟨.inFrame start [], [], rfl, rfl⟩
  | closes start nonempty last => exact Or.inr ⟨start, _, rfl, rfl⟩
  | noise skipped other =>
    refine Or.inl ⟨.hunting (skipped + 1), [], rfl, ?_⟩
    rw [opening, opening, noiseLength_other other]
    omega
  | carries start body other => exact Or.inl ⟨.inFrame start (body ++ [byte]), _, rfl, rfl⟩

/-- **`start_index` is the index of the first flag.** -/
theorem passes_startIndex (phase : Phase Byte) (src : List Byte)
    (begun : 0 ≤ (passes (stateAt phase) src).2.1.startIndex) :
    (passes (stateAt phase) src).2.1.startIndex = opening phase src := by
  induction src generalizing phase with
  | nil =>
    cases phase with
    | hunting skipped => exact absurd begun (by simp [passes, stateAt, hdlcState])
    | inFrame start body => rfl
  | cons byte rest ih =>
    rw [passes] at begun ⊢
    rcases pass_opening phase byte rest with
      ⟨next, stores, moved, same⟩ | ⟨start, body, rfl, breaks⟩
    · rw [moved] at begun ⊢
      rw [← same]
      exact ih next begun
    · rw [breaks]
      rfl

/-- **Where the loop stops**: where the bytes end, or behind the first frame that they complete. -/
theorem passes_position {fed : List Byte} (waits : bodies fed = []) (chunk : List Byte) :
    (bodies (fed ++ chunk) = [] ∧
      (passes (stateAt (position fed)) chunk).2.1 = stateAt (position (fed ++ chunk))) ∨
    ∃ body more, bodies (fed ++ chunk) = body :: more ∧
      (passes (stateAt (position fed)) chunk).2.1 = closedAt (noiseLength (fed ++ chunk)) body := by
  have first := passes_startIndex (position fed) chunk
  rw [opening_position waits] at first
  have scan := passes_scan (position fed) chunk
  have moves := run_receive_phase (position fed) .fresh chunk
  rw [run_position waits chunk] at moves
  generalize passes (stateAt (position fed)) chunk = result at scan first ⊢
  cases scan with
  | readsAll reached stores body made reads =>
    rw [reads] at moves
    obtain ⟨reaches, quiet⟩ := Prod.ext_iff.mp moves
    exact Or.inl ⟨quiet, congrArg stateAt reaches.symm⟩
  | breaks before rest start body stores split some received made reads =>
    rw [reads] at moves
    have place : (start : Int) = noiseLength (fed ++ chunk) := first (Int.natCast_nonneg start)
    refine Or.inr ⟨body, _, congrArg Prod.snd moves, ?_⟩
    rw [← Int.ofNat_inj.mp place]

/-! ### What a chunk may bring -/

/-- The bytes that the parser counts up to the end of a chunk, or of the frame that it completes, are in
the range; and a frame that it completes starts far enough below the limit for the length test. -/
def ChunkFits (fed chunk : List Byte) : Prop :=
  match bodies (fed ++ chunk) with
  | [] => counted (fed ++ chunk) ≤ 32767
  | body :: _ =>
    noiseLength (fed ++ chunk) + 1 + body.length ≤ 32767 ∧ noiseLength (fed ++ chunk) + 4 ≤ 32767

instance (fed chunk : List Byte) : Decidable (ChunkFits fed chunk) := by
  unfold ChunkFits
  split <;> infer_instance

/-- Every chunk of a run. -/
def LineFits : List Byte → List (Option (List Byte)) → Prop
  | _, [] => True
  | fed, none :: rest => LineFits fed rest
  | fed, some chunk :: rest => ChunkFits fed chunk ∧ LineFits (frameStep fed chunk).1 rest

/-- **The sums of a call.** -/
theorem callSums_fit_iff {fed : List Byte} (waits : bodies fed = []) (inside : counted fed ≤ 32767)
    (chunk : List Byte) :
    (∀ sum ∈ callSums (stateAt (position fed)) (some chunk), FitsInt sum) ↔ ChunkFits fed chunk := by
  have low : (stateAt (position fed)).srcIndex ≤ 32767 := by
    rw [srcIndex_position waits]
    omega
  have loop := passesSums_fit_iff low chunk
  unfold callSums ChunkFits
  simp only [List.mem_append, or_imp, forall_and, loop]
  rcases passes_position waits chunk with ⟨quiet, reached⟩ | ⟨body, more, completes, reached⟩
  · rw [quiet, reached]
    simp only [stateAt_endIndex, or_true, if_true, srcIndex_position quiet, List.not_mem_nil,
      false_imp_iff, implies_true, and_true]
    omega
  · have begun : (closedAt (noiseLength (fed ++ chunk)) body).startIndex =
        noiseLength (fed ++ chunk) := rfl
    have final : (closedAt (noiseLength (fed ++ chunk)) body).srcIndex =
        noiseLength (fed ++ chunk) + 1 + body.length := rfl
    have ended : ¬ ((closedAt (noiseLength (fed ++ chunk)) body).startIndex < 0 ∨
        (closedAt (noiseLength (fed ++ chunk)) body).endIndex < 0) := by
      simp only [closedAt, stateAt]
      omega
    rw [completes, reached, if_neg ended]
    simp only [List.mem_singleton, forall_eq, fitsInt_iff, final, begun]
    omega

/-! ### Runs -/

/-- What a chunk that fits leaves behind is in the range. -/
theorem ChunkFits.next {fed chunk : List Byte} (fits : ChunkFits fed chunk) :
    counted (frameStep fed chunk).1 ≤ 32767 := by
  unfold ChunkFits at fits
  split at fits
  · rename_i waits
    rwa [frameStep_waits waits]
  · rename_i body more completes
    rw [frameStep_completes completes]
    exact Nat.zero_le _

/-- **The sums of a run of calls.** -/
theorem runSums_fit_iff {fed : List Byte} (waits : bodies fed = []) (inside : counted fed ≤ 32767)
    (sources : List (Option (List Byte))) :
    (∀ sum ∈ runSums (stateAt (position fed)) sources, FitsInt sum) ↔ LineFits fed sources := by
  induction sources generalizing fed with
  | nil => simp [runSums, LineFits]
  | cons src rest ih =>
    cases src with
    | none => exact ih waits inside
    | some chunk =>
      have now := callSums_fit_iff waits inside chunk
      rw [runSums, call_state waits, LineFits]
      simp only [List.mem_append, or_imp, forall_and, now]
      exact and_congr_right fun fits => ih (bodies_frameStep fed chunk) fits.next

/-- A frame behind noise. -/
theorem bodies_noise_frame {noise body : List Byte} (quiet : hdlcFlagSequence ∉ noise)
    (some : body ≠ []) (quiet' : hdlcFlagSequence ∉ body) :
    bodies (noise ++ (hdlcFlagSequence :: body ++ [hdlcFlagSequence])) = [body] := by
  simpa using bodies_frame quiet some quiet' 0

/-- **Chunks of noise fit** as long as their bytes do, and count for what follows. -/
theorem lineFits_noises {noises : List (List Byte)}
    (quiet : ∀ noise ∈ noises, hdlcFlagSequence ∉ noise) {rest : List (Option (List Byte))}
    {fed : List Byte} (before : hdlcFlagSequence ∉ fed) (inside : fed.length ≤ 32767) :
    LineFits fed (noises.map some ++ rest) ↔
      fed.length + noises.flatten.length ≤ 32767 ∧ LineFits (fed ++ noises.flatten) rest := by
  induction noises generalizing fed with
  | nil => simp [inside]
  | cons noise later ih =>
    have further : hdlcFlagSequence ∉ fed ++ noise := by
      rw [List.mem_append, not_or]
      exact ⟨before, quiet noise List.mem_cons_self⟩
    have waits := bodies_noise further
    have behind := fun short => @ih (fun noise' member => quiet noise' (List.mem_cons_of_mem _ member))
      (fed ++ noise) further short
    have total : (fed ++ noise).length + later.flatten.length =
        fed.length + (noise :: later).flatten.length := by
      rw [List.length_append, List.flatten_cons, List.length_append, Nat.add_assoc]
    have joined : fed ++ noise ++ later.flatten = fed ++ (noise :: later).flatten := by
      rw [List.flatten_cons, List.append_assoc]
    rw [total, joined] at behind
    rw [List.map_cons, List.cons_append, LineFits, frameStep_waits waits, ChunkFits, waits, counted,
      if_neg further]
    constructor
    · rintro ⟨short, fits⟩
      exact (behind short).mp fits
    · rintro ⟨short, fits⟩
      have first : (fed ++ noise).length ≤ 32767 := by omega
      exact ⟨first, (behind first).mpr ⟨short, fits⟩⟩

/-- **Noise and a frame fit** as long as their bytes do. -/
theorem lineFits_noise_frame {noises : List (List Byte)} {body : List Byte}
    (quiet : ∀ noise ∈ noises, hdlcFlagSequence ∉ noise) (quiet' : hdlcFlagSequence ∉ body)
    (long : 3 ≤ body.length) :
    LineFits [] ((noises ++ [hdlcFlagSequence :: body ++ [hdlcFlagSequence]]).map some) ↔
      noises.flatten.length + 1 + body.length ≤ 32767 := by
  have some : body ≠ [] := List.ne_nil_of_length_pos (by omega)
  have silent : hdlcFlagSequence ∉ noises.flatten := by
    intro member
    obtain ⟨noise, inside, found⟩ := List.mem_flatten.mp member
    exact quiet noise inside found
  have noise : noiseLength (noises.flatten ++ (hdlcFlagSequence :: body ++ [hdlcFlagSequence])) =
      noises.flatten.length := noiseLength_frame silent _
  rw [List.map_append, lineFits_noises quiet List.not_mem_nil (Nat.zero_le _), List.nil_append]
  simp only [List.map_cons, List.map_nil, LineFits, and_true, ChunkFits,
    bodies_noise_frame silent some quiet', noise, List.length_nil]
  omega

/-- The last call of such a run accepts the frame. -/
theorem runCalls_noise {noises : List (List Byte)} {body : List Byte}
    (quiet : ∀ noise ∈ noises, hdlcFlagSequence ∉ noise) (quiet' : hdlcFlagSequence ∉ body)
    (accepted : Accepted body) {fed : List Byte} (before : hdlcFlagSequence ∉ fed) :
    ∃ earlier call count,
      runCalls (stateAt (position fed))
          ((noises ++ [hdlcFlagSequence :: body ++ [hdlcFlagSequence]]).map some) =
        earlier ++ [call] ∧
      call.ret = .ok count ∧ call.destLen = some ((frameData body).length - sizeofFcs) := by
  have waits := bodies_noise before
  induction noises generalizing fed with
  | nil =>
    have long := accepted.1
    have some : body ≠ [] := List.ne_nil_of_length_pos (by omega)
    rcases call_fed waits (hdlcFlagSequence :: body ++ [hdlcFlagSequence]) with
      ⟨waits', _⟩ | ⟨body', more, count, completes, _, _, call⟩
    · rw [bodies_noise_frame before some quiet'] at waits'
      cases waits'
    · rw [bodies_noise_frame before some quiet'] at completes
      cases completes
      rw [if_pos accepted] at call
      exact ⟨[], _, count, rfl, by rw [call], by rw [call]⟩
  | cons noise rest ih =>
    have further : hdlcFlagSequence ∉ fed ++ noise := by
      rw [List.mem_append, not_or]
      exact ⟨before, quiet noise List.mem_cons_self⟩
    obtain ⟨earlier, call, count, calls, ret, destLen⟩ :=
      ih (fun noise' member => quiet noise' (List.mem_cons_of_mem _ member)) further
        (bodies_noise further)
    refine ⟨hdlcGetDataWithState (stateAt (position fed)) (some noise) :: earlier, call, count, ?_,
      ret, destLen⟩
    rw [List.cons_append, List.map_cons, runCalls, call_state waits,
      frameStep_waits (bodies_noise further), calls]
    rfl

/-- **When the indices stay in the range of `int`**: in a run of calls on any chunks, exactly when every
chunk fits; and a valid frame behind noise without flags is found and decoded exactly when the noise and
the frame together are short enough. -/
theorem indices_fit_iff (state : HdlcStateT) :
    (∀ sources : List (Option (List Byte)),
      (∀ sum ∈ runSums (hdlcGetDataResetWithState state) sources, FitsInt sum) ↔
        LineFits [] sources) ∧
    ∀ (noises : List (List Byte)) (body : List Byte), (∀ noise ∈ noises, hdlcFlagSequence ∉ noise) →
      hdlcFlagSequence ∉ body → Accepted body →
      ((∃ earlier call count,
          targetCalls (hdlcGetDataResetWithState state)
              ((noises ++ [hdlcFlagSequence :: body ++ [hdlcFlagSequence]]).map some) =
            some (earlier ++ [call]) ∧
          call.ret = .ok count ∧ call.destLen = some ((frameData body).length - sizeofFcs)) ↔
        noises.flatten.length + 1 + body.length ≤ 32767) := by
  have run : ∀ sources : List (Option (List Byte)),
      (∀ sum ∈ runSums (hdlcGetDataResetWithState state) sources, FitsInt sum) ↔
        LineFits [] sources :=
    fun sources => @runSums_fit_iff [] rfl (Nat.zero_le _) sources
  refine ⟨run, fun noises body quiet quiet' accepted => ?_⟩
  rw [← lineFits_noise_frame quiet quiet' accepted.1, ← run]
  unfold targetCalls
  constructor
  · rintro ⟨earlier, call, count, calls, _⟩
    by_contra outside
    rw [if_neg outside] at calls
    cases calls
  · intro inside
    rw [if_pos inside]
    obtain ⟨earlier, call, count, calls, answer⟩ :=
      runCalls_noise quiet quiet' accepted List.not_mem_nil
    exact ⟨earlier, call, count, congrArg some calls, answer⟩

/-- Noise longer than the range takes `src_index` out of it, whatever follows. -/
theorem runSums_long_noise {noises : List (List Byte)}
    (quiet : ∀ noise ∈ noises, hdlcFlagSequence ∉ noise) (long : 32767 < noises.flatten.length)
    (rest : List (Option (List Byte))) :
    ¬ ∀ sum ∈ runSums hdlcState (noises.map some ++ rest), FitsInt sum := by
  intro inside
  have fits : LineFits [] (noises.map some ++ rest) :=
    (@runSums_fit_iff [] rfl (Nat.zero_le _) _).mp inside
  have short := ((lineFits_noises quiet List.not_mem_nil (Nat.zero_le _)).mp fits).1
  rw [List.length_nil, Nat.zero_add] at short
  exact absurd long (Nat.not_lt.mpr short)

/-- **32768 noise bytes are too many**, in buffers of the twenty octets that the sketch receives:
`src_index` leaves the range, and the frame behind them is not decoded. -/
theorem not_indices_fit :
    ¬ (∀ sum ∈ runSums hdlcState ((List.replicate 1639 (List.replicate 20 0)).map some),
        FitsInt sum) ∧
      targetCalls hdlcState ((List.replicate 1639 (List.replicate 20 0)).map some ++
        [some (frameBytes ⟨.sFrame, 0⟩ [])]) = none := by
  have quiet : ∀ noise ∈ List.replicate 1639 (List.replicate 20 (0 : Byte)),
      hdlcFlagSequence ∉ noise := by
    intro noise member
    rw [List.eq_of_mem_replicate member]
    decide
  have long : 32767 < (List.replicate 1639 (List.replicate 20 (0 : Byte))).flatten.length := by
    rw [List.flatten_replicate_replicate, List.length_replicate]
    omega
  have outside := runSums_long_noise quiet long
  have alone := outside []
  rw [List.append_nil] at alone
  exact ⟨alone, if_neg (outside _)⟩

end HdlcMarquee
