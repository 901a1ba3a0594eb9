/-
**What the fields of the parser state mean.**

A run of calls from the reset state, on any chunks, is followed with the bytes passed since the last
reset: `-ENOMSG` adds its chunk to them, and a call that completes a frame forgets them all. After every
call the six fields are a function of these bytes (`represents_after`): either they hold no flag, or they
are noise, flags, and the raw body of the frame in progress, and then the fields describe that body. The
octets of a body are numbered by the raw positions that complete them (`completions`), so that the
parser's comparisons with `start_index + 2` can be read off.

`timedStores` are the stores of a call, each with the number of bytes read when it is made:
`timedStores_dest` bounds the index of a store by that number.
-/

import HdlcMarquee.Hdlc.Calls

namespace HdlcMarquee

open Generic

/-! ### Runs of calls -/

/-- The parser state, the memory behind `control` and `dest`, and the bytes passed since the last
reset. -/
structure Parser where
  state : HdlcStateT
  storage : Storage
  fed : List Byte

/-- `hdlc_get_data_reset_with_state`, on a state with any contents. -/
def Parser.reset (state : HdlcStateT) (storage : Storage) : Parser :=
  ⟨hdlcGetDataResetWithState state, storage, []⟩

/-- `hdlc_get_data_with_state`, on a chunk or on a null pointer. -/
def Parser.call (parser : Parser) (src : Option (List Byte)) : Parser :=
  let call := hdlcGetDataWithState parser.state src
  { state := call.state
    storage := parser.storage.putAll call.stores
    fed := match call.ret with
      | .ok _ => []
      | .error .eio => []
      | .error _ => parser.fed ++ src.getD [] }

/-- The calls of a run, one after another. -/
def Parser.calls (parser : Parser) (sources : List (Option (List Byte))) : Parser :=
  sources.foldl Parser.call parser

/-- The parser is where the bytes since the last reset lead, and the memory holds the stores of the
frame in progress. -/
structure Parser.Follows (parser : Parser) : Prop where
  waits : bodies parser.fed = []
  state : parser.state = stateAt (position parser.fed)
  stored : ∃ origin : Storage,
    parser.storage = origin.putAll (partStores [] (position parser.fed).body)

theorem Parser.follows_reset (state : HdlcStateT) (storage : Storage) :
    (Parser.reset state storage).Follows := ⟨rfl, rfl, storage, rfl⟩

/-- The frame in progress grows by what a chunk brings. -/
theorem position_body {fed buffer : List Byte} (waits : bodies fed = [])
    (waits' : bodies (fed ++ buffer) = []) :
    (position (fed ++ buffer)).body = (position fed).body ++ received fed buffer := by
  have ran := run_position waits buffer
  rw [waits'] at ran
  have grown := body_run_quiet buffer (position fed) (congrArg Prod.snd ran)
  rwa [ran] at grown

theorem length_body_position {fed : List Byte} (waits : bodies fed = []) :
    (position fed).body.length ≤ fed.length := by
  rcases run_quiet_split fed waits with ⟨_, reached⟩ | ⟨noise, repeated, body, split, _, _, reached⟩
  · rw [position, reached]
    exact Nat.zero_le _
  · rw [position, reached, Phase.body, split, List.length_append]
    exact Nat.le_add_left _ _

/-- **Every call keeps up with the bytes.** -/
theorem Parser.Follows.call {parser : Parser} (follows : parser.Follows)
    (src : Option (List Byte)) : (parser.call src).Follows := by
  obtain ⟨waits, state, origin, stored⟩ := follows
  obtain ⟨parserState, storage, fed⟩ := parser
  dsimp only at waits state stored
  subst state
  cases src with
  | none =>
    have still : (⟨stateAt (position fed), storage, fed⟩ : Parser).call none =
        ⟨stateAt (position fed), storage, fed⟩ := by
      simp [Parser.call, hdlcGetDataWithState]
    rw [still]
    exact ⟨waits, rfl, origin, stored⟩
  | some buffer =>
    rcases call_fed waits buffer with ⟨waits', call⟩ | ⟨body, more, count, _, _, _, call⟩
    · have next : (⟨stateAt (position fed), storage, fed⟩ : Parser).call (some buffer) =
          ⟨stateAt (position (fed ++ buffer)), storage.putAll (bufferStores fed buffer),
            fed ++ buffer⟩ := by
        unfold Parser.call
        rw [call]
        rfl
      rw [next]
      refine ⟨waits', rfl, origin, ?_⟩
      rw [position_body waits waits', partStores_append, putAll_append, ← stored, List.nil_append,
        bufferStores]
    · have next : (⟨stateAt (position fed), storage, fed⟩ : Parser).call (some buffer) =
          ⟨hdlcState, storage.putAll (bufferStores fed buffer), []⟩ := by
        unfold Parser.call
        rw [call]
        by_cases accepted : Accepted body
        · rw [if_pos accepted]
        · rw [if_neg accepted]
      rw [next]
      exact ⟨rfl, rfl, _, rfl⟩

theorem Parser.Follows.calls {parser : Parser} (follows : parser.Follows)
    (sources : List (Option (List Byte))) : (parser.calls sources).Follows := by
  induction sources generalizing parser with
  | nil => exact follows
  | cons src rest ih => exact ih (follows.call src)

/-! ### The octets of a body and where they are completed -/

/-- One raw byte at its position. -/
def complete (here : Bool × Int) (raw : Byte) : (Bool × Int) × List (Int × Byte) :=
  let unescaped := hdlcCode.unescape here.1 raw
  ((unescaped.1, here.2 + 1), unescaped.2.map fun octet => (here.2, octet))

/-- The unescaped octets of a raw body behind a start flag at a raw position, each with the raw
position of the byte that completes it. -/
def completions (start : Int) (body : List Byte) : List (Int × Byte) :=
  (run complete (false, start + 1) body).2

theorem run_complete (start : Int) (body : List Byte) :
    (run complete (false, start + 1) body).1 = (hdlcCode.pending body, start + 1 + body.length) := by
  induction body using List.reverseRecOn with
  | nil => simp
  | append_singleton body raw ih =>
    rw [run_append, run_singleton, ih, pending_snoc, List.length_append, List.length_singleton,
      complete, Nat.cast_add, ← Int.add_assoc]
    rfl

theorem completions_snoc (start : Int) (body : List Byte) (raw : Byte) :
    completions start (body ++ [raw]) = completions start body ++
      (hdlcCode.unescape (hdlcCode.pending body) raw).2.map
        fun octet => (start + 1 + body.length, octet) := by
  unfold completions
  rw [run_append, run_singleton, run_complete]
  rfl

/-- All octets of a body. -/
theorem completions_octets (start : Int) (body : List Byte) :
    (completions start body).map Prod.snd = hdlcCode.octets body := by
  induction body using List.reverseRecOn with
  | nil => rfl
  | append_singleton body raw ih =>
    rw [completions_snoc, octets_snoc, List.map_append, ih, List.map_map]
    simp

/-- **The octets that the parser stores** are those completed at the third position behind the start
flag or later. -/
theorem completions_stored (start : Int) (body : List Byte) :
    ((completions start body).filter (start + 3 ≤ ·.1)).map Prod.snd = frameData body := by
  induction body using List.reverseRecOn with
  | nil => rfl
  | append_singleton body raw ih =>
    have late : start + 3 ≤ start + 1 + body.length ↔ 2 ≤ body.length := by omega
    rw [completions_snoc, List.filter_append, List.map_append, ih, frameData_grow, List.filter_map]
    by_cases long : 2 ≤ body.length
    · simp [Function.comp_def, late, long]
    · simp [Function.comp_def, late, long, frameData_short body (by omega)]

theorem length_frameData_le (body : List Byte) : (frameData body).length ≤ body.length - 2 := by
  induction body using List.reverseRecOn with
  | nil => exact Nat.le_refl _
  | append_singleton body raw ih =>
    rw [frameData_grow, List.length_append, List.length_singleton]
    split
    · have one : (hdlcCode.unescape (hdlcCode.pending body) raw).2.length ≤ 1 := by
        unfold Code.unescape
        split <;> simp
      rw [List.length_append]
      omega
    · exact Nat.zero_le _

/-! ### When a store is made -/

/-- The stores of the loop, each with the number of bytes of the buffer read when it is made. -/
def timedStores (state : HdlcStateT) : List Byte → List (Nat × Store)
  | [] => []
  | byte :: rest =>
    match pass state byte rest.head? with
    | .next state stores =>
      stores.map (fun store => (1, store)) ++
        (timedStores state rest).map fun made => (made.1 + 1, made.2)
    | .break _ => []

theorem timedStores_stores (state : HdlcStateT) (src : List Byte) :
    (timedStores state src).map Prod.snd = (passes state src).2.2 := by
  induction src generalizing state with
  | nil => rfl
  | cons byte rest ih =>
    rw [timedStores, passes]
    cases pass state byte rest.head? with
    | next reached stores =>
      have now : (stores.map fun store => (1, store)).map Prod.snd = stores := by
        simp [Function.comp_def]
      have later : ((timedStores reached rest).map fun made => (made.1 + 1, made.2)).map Prod.snd =
          (passes reached rest).2.2 := by
        rw [List.map_map, ← ih reached]
        rfl
      rw [List.map_append, now, later]
    | «break» reached => rfl

/-- **What a pass does at a position**: it leads to a position whose body is longer by one byte at
most, or it breaks at a flag that closes a frame. -/
theorem pass_stateAt (phase : Phase Byte) (byte : Byte) (following : Option Byte) :
    (∃ next, pass (stateAt phase) byte following = .next (stateAt next) (phaseStores phase byte) ∧
      next.body.length ≤ phase.body.length + 1) ∨
    ∃ start body, phase = .inFrame start body ∧ body ≠ [] ∧
      pass (stateAt phase) byte following = .break (closedAt start body) := by
  have quiet : ∀ phase, phaseStores phase hdlcFlagSequence = [] := by
    intro phase
    cases phase <;> simp [phaseStores]
  have here := pass_at phase byte following
  generalize pass (stateAt phase) byte following = moved at here ⊢
  cases here with
  | again => exact Or.inl ⟨phase, by rw [quiet], Nat.le_succ _⟩
  | opens skipped last => exact Or.inl ⟨.inFrame skipped [], by rw [quiet], Nat.zero_le _⟩
  | reopens start last => exact Or.inl ⟨.inFrame start [], by rw [quiet], Nat.zero_le _⟩
  | closes start nonempty last => exact Or.inr ⟨start, _, rfl, nonempty, rfl⟩
  | noise skipped other => exact Or.inl ⟨.hunting (skipped + 1), rfl, Nat.zero_le _⟩
  | carries start body other =>
    refine Or.inl ⟨.inFrame start (body ++ [byte]), ?_, by simp [Phase.body]⟩
    rw [phaseStores, if_neg other]

theorem dest_mem_phaseStores {phase : Phase Byte} {byte value : Byte} {index : Int}
    (made : Store.dest index value ∈ phaseStores phase byte) :
    0 ≤ index ∧ index ≤ phase.body.length := by
  cases phase with
  | hunting skipped => cases made
  | inFrame start body =>
    rw [phaseStores] at made
    split at made
    · cases made
    · obtain ⟨low, high⟩ := (dest_mem_byteStores body byte index).mp ⟨value, made⟩
      have long := length_frameData_le (body ++ [byte])
      rw [List.length_append, List.length_singleton] at long
      rw [Phase.body]
      omega

/-- **A store is at an index below the number of bytes read**, those of the frame before the call
included. -/
theorem timedStores_dest (phase : Phase Byte) (src : List Byte) {read : Nat} {index : Int}
    {value : Byte} (made : (read, Store.dest index value) ∈ timedStores (stateAt phase) src) :
    0 ≤ index ∧ index < phase.body.length + read := by
  induction src generalizing phase read with
  | nil => cases made
  | cons byte rest ih =>
    rw [timedStores] at made
    rcases pass_stateAt phase byte rest.head? with
      ⟨next, moves, grown⟩ | ⟨start, body, _, _, breaks⟩
    · rw [moves] at made
      rcases List.mem_append.mp made with now | later
      · obtain ⟨store, member, same⟩ := List.mem_map.mp now
        cases same
        have bounds := dest_mem_phaseStores member
        omega
      · obtain ⟨⟨read', store⟩, member, same⟩ := List.mem_map.mp later
        cases same
        have bounds := ih next member
        omega
    · rw [breaks] at made
      cases made

/-! ### The representation -/

/-- No start flag has been seen since the last reset. -/
structure Parser.Hunts (parser : Parser) : Prop where
  fed : hdlcFlagSequence ∉ parser.fed
  startIndex : parser.state.startIndex = -1
  srcIndex : parser.state.srcIndex = parser.fed.length
  destIndex : parser.state.destIndex = 0
  controlEscape : parser.state.controlEscape = false
  fcs : parser.state.fcs = fcsInitValue

/-- A frame is in progress: since the last reset there have been noise, the start flag, which may be
repeated, and a raw body. -/
structure Parser.InFrame (parser : Parser) (noise body : List Byte) (repeated : Nat) : Prop where
  fed : parser.fed = noise ++ List.replicate (repeated + 1) hdlcFlagSequence ++ body
  quietNoise : hdlcFlagSequence ∉ noise
  quietBody : hdlcFlagSequence ∉ body
  startIndex : parser.state.startIndex = noise.length
  srcIndex : parser.state.srcIndex = noise.length + 1 + body.length
  started : 0 ≤ parser.state.startIndex
  behind : parser.state.startIndex < parser.state.srcIndex
  destIndex : 0 ≤ parser.state.destIndex ∧
    parser.state.destIndex ≤ max 0 (parser.state.srcIndex - parser.state.startIndex - 3)
  controlEscape : parser.state.controlEscape = hdlcCode.pending body
  fcs : parser.state.fcs =
    ((completions parser.state.startIndex body).map Prod.snd).foldl calcFcs fcsInitValue
  dest : parser.storage.read parser.state.destIndex =
    ((completions parser.state.startIndex body).filter
      (parser.state.startIndex + 3 ≤ ·.1)).map Prod.snd

theorem Parser.Follows.represents {parser : Parser} (follows : parser.Follows) :
    parser.Hunts ∨ ∃ noise body repeated, parser.InFrame noise body repeated := by
  obtain ⟨waits, state, origin, stored⟩ := follows
  rcases run_quiet_split parser.fed waits with
    ⟨free, reached⟩ | ⟨noise, repeated, body, split, free, quiet, reached⟩
  · left
    have hunting : parser.state = stateAt (.hunting parser.fed.length) := by
      rw [state, position, reached]
    exact ⟨free, by rw [hunting]; rfl, by rw [hunting]; rfl, by rw [hunting]; rfl,
      by rw [hunting]; rfl, by rw [hunting]; rfl⟩
  · right
    have inFrame : parser.state = stateAt (.inFrame noise.length body) := by
      rw [state, position, reached]
    have startIndex : parser.state.startIndex = noise.length := by rw [inFrame]; rfl
    have srcIndex : parser.state.srcIndex = noise.length + 1 + body.length := by rw [inFrame]; rfl
    have destIndex : parser.state.destIndex = (frameData body).length := by rw [inFrame]; rfl
    have memory : parser.storage =
        ⟨(controlOf body).getD origin.control, overlay origin.dest (frameData body)⟩ := by
      rw [stored, position, reached, Phase.body, putAll_partStores]
    refine ⟨noise, body, repeated, split, free, quiet, startIndex, srcIndex, by omega, by omega, ?_,
      by rw [inFrame]; rfl, ?_, ?_⟩
    · have long := length_frameData_le body
      omega
    · rw [completions_octets, inFrame]
      rfl
    · rw [completions_stored, destIndex, memory, read_overlay _ _ (le_refl _), Int.toNat_natCast,
        List.take_length]

/-- **The representation invariant of the parser state**, in every state that calls on any chunks lead
to from a reset: what the fields are between two calls, that a call which completes a frame leaves the
reset state, and that every store to `dest` is at an index below the number of bytes fed since the last
reset. -/
theorem represents_after (state : HdlcStateT) (storage : Storage)
    (sources : List (Option (List Byte))) :
    let parser := (Parser.reset state storage).calls sources
    parser.state.endIndex = -1 ∧
      (parser.Hunts ∨ ∃ noise body repeated, parser.InFrame noise body repeated) ∧
      (∀ src : Option (List Byte),
        (∃ count, (hdlcGetDataWithState parser.state src).ret = .ok count) ∨
          (hdlcGetDataWithState parser.state src).ret = .error .eio →
        (parser.call src).state = hdlcGetDataResetWithState parser.state) ∧
      ∀ buffer : List Byte,
        (timedStores parser.state buffer).map Prod.snd =
            (hdlcGetDataWithState parser.state (some buffer)).stores ∧
          ∀ read index value, (read, Store.dest index value) ∈ timedStores parser.state buffer →
            0 ≤ index ∧ index < parser.fed.length + read := by
  intro parser
  have follows : parser.Follows := (Parser.follows_reset state storage).calls sources
  refine ⟨?_, follows.represents, fun src completes => ?_, fun buffer => ⟨?_, ?_⟩⟩
  · rw [follows.state]
    cases position parser.fed <;> rfl
  · cases src with
    | none => rcases completes with ⟨count, ret⟩ | ret <;> cases ret
    | some buffer =>
      rcases hdlcGetDataWithState_cases parser.state buffer with
        ⟨_, call⟩ | ⟨_, _, call⟩ | ⟨_, _, call⟩
      · rw [call] at completes
        rcases completes with ⟨count, ret⟩ | ret <;> cases ret
      · rw [Parser.call, call, hdlcGetDataResetWithState_eq]
      · rw [Parser.call, call, hdlcGetDataResetWithState_eq]
  · rw [timedStores_stores]
    rcases hdlcGetDataWithState_cases parser.state buffer with
      ⟨_, call⟩ | ⟨_, _, call⟩ | ⟨_, _, call⟩ <;> rw [call]
  · intro read index value made
    rw [follows.state] at made
    have bounds := timedStores_dest (position parser.fed) buffer made
    have short := length_body_position follows.waits
    omega

end HdlcMarquee
