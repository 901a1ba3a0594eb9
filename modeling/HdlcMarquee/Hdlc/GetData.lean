/-
**The parser (`hdlc/hdlc.c` lines 16–23 and 105–210).**

`hdlcGetDataWithState` is one call on one buffer. Its loop is `passes`, over the bytes not read
yet; one pass of it is `pass`, which also sees the byte after the current one, because the source
looks ahead to it. Everything the call does to its caller's memory is recorded as the list of its
stores, so a caller can be given any memory.

The index fields are unbounded integers; `*dest_len` is the exact difference that the source
converts to `size_t`, so a negative value is one that wraps around there.
-/

import HdlcMarquee.Hdlc.Control

namespace HdlcMarquee

/-- `hdlc_state_t`. -/
structure HdlcStateT where
  controlEscape : Bool
  fcs : BitVec 16
  startIndex : Int
  endIndex : Int
  srcIndex : Int
  destIndex : Int
  deriving DecidableEq, Repr

/-- The static `hdlc_state` before the first call. -/
def hdlcState : HdlcStateT where
  controlEscape := false
  fcs := fcsInitValue
  startIndex := -1
  endIndex := -1
  srcIndex := 0
  destIndex := 0

/-- `hdlc_get_data_reset_with_state`. -/
def hdlcGetDataResetWithState (state : HdlcStateT) : HdlcStateT :=
  { state with
    fcs := fcsInitValue
    startIndex := -1
    endIndex := -1
    srcIndex := 0
    destIndex := 0
    controlEscape := false }

@[simp] theorem hdlcGetDataResetWithState_eq (state : HdlcStateT) :
    hdlcGetDataResetWithState state = hdlcState := rfl

/-- The negative return values of the parser. -/
inductive Errno
  | einval
  | enomsg
  | eio
  deriving DecidableEq, Repr

/-- A store through one of the caller's pointers: `*control = value` or `dest[index] = value`. -/
inductive Store
  | control (value : HdlcControlT)
  | dest (index : Int) (value : Byte)
  deriving DecidableEq, Repr

/-- What one pass of the loop leads to: the next pass, or the end of the loop by `break`. -/
inductive Pass
  | next (state : HdlcStateT) (stores : List Store)
  | break (state : HdlcStateT)
  deriving DecidableEq, Repr

/-- One pass of the loop on `src[i]`; `following` is `src[i + 1]` when `i < src_len - 1`. -/
def pass (state : HdlcStateT) (byte : Byte) (following : Option Byte) : Pass :=
  if state.startIndex < 0 then
    if byte = hdlcFlagSequence then
      -- `continue` leaves `src_index` alone
      if following = some hdlcFlagSequence then .next state []
      else .next { state with startIndex := state.srcIndex, srcIndex := state.srcIndex + 1 } []
    else .next { state with srcIndex := state.srcIndex + 1 } []
  else if byte = hdlcFlagSequence then
    if following = some hdlcFlagSequence ∨ state.startIndex + 1 = state.srcIndex then
      .next state []
    else .break { state with endIndex := state.srcIndex }
  else if byte = hdlcControlEscape then
    .next { state with controlEscape := true, srcIndex := state.srcIndex + 1 } []
  else
    let value := if state.controlEscape then byte ^^^ 0x20 else byte
    let state := { state with controlEscape := false, fcs := calcFcs state.fcs value }
    if state.srcIndex = state.startIndex + 2 then
      .next { state with srcIndex := state.srcIndex + 1 } [.control (hdlcGetControlType value)]
    else if state.srcIndex > state.startIndex + 2 then
      .next { state with destIndex := state.destIndex + 1, srcIndex := state.srcIndex + 1 }
        [.dest state.destIndex value]
    else .next { state with srcIndex := state.srcIndex + 1 } []

/-- The loop: the final `i`, the state, and the stores made. -/
def passes (state : HdlcStateT) : List Byte → Nat × HdlcStateT × List Store
  | [] => (0, state, [])
  | byte :: rest =>
    match pass state byte rest.head? with
    | .next state stores =>
      let tail := passes state rest
      (tail.1 + 1, tail.2.1, stores ++ tail.2.2)
    | .break state => (0, state, [])

/-- What a call returns and leaves behind: the return value, `*dest_len` where it is written, the
parser state, and the stores through `control` and `dest` in their order. -/
structure GetData where
  ret : Except Errno Nat
  destLen : Option Int
  state : HdlcStateT
  stores : List Store

/-- `sizeof(state->fcs)`. -/
def sizeofFcs : Int := 2

/-- `hdlc_get_data_with_state`. The buffer is the `src_len` bytes at `src`, or none for a null
`src`; the other four pointers are addresses of objects in every call of the repository. -/
def hdlcGetDataWithState (state : HdlcStateT) : Option (List Byte) → GetData
  | none => { ret := .error .einval, destLen := none, state := state, stores := [] }
  | some src =>
    let (i, state, stores) := passes state src
    if state.startIndex < 0 ∨ state.endIndex < 0 then
      { ret := .error .enomsg, destLen := some 0, state := state, stores := stores }
    else if state.endIndex < state.startIndex + 4 ∨ state.fcs ≠ fcsGoodValue then
      { ret := .error .eio, destLen := some i, state := hdlcGetDataResetWithState state,
        stores := stores }
    else
      { ret := .ok i, destLen := some (state.destIndex - sizeofFcs),
        state := hdlcGetDataResetWithState state, stores := stores }

/-- **What a call can do**: wait for more, report a damaged frame, or accept one. -/
theorem hdlcGetDataWithState_cases (state : HdlcStateT) (src : List Byte) :
    (((passes state src).2.1.startIndex < 0 ∨ (passes state src).2.1.endIndex < 0) ∧
      hdlcGetDataWithState state (some src) =
        { ret := .error .enomsg, destLen := some 0, state := (passes state src).2.1,
          stores := (passes state src).2.2 }) ∨
    (¬ ((passes state src).2.1.startIndex < 0 ∨ (passes state src).2.1.endIndex < 0) ∧
      ((passes state src).2.1.endIndex < (passes state src).2.1.startIndex + 4 ∨
        (passes state src).2.1.fcs ≠ fcsGoodValue) ∧
      hdlcGetDataWithState state (some src) =
        { ret := .error .eio, destLen := some (passes state src).1, state := hdlcState,
          stores := (passes state src).2.2 }) ∨
    (¬ ((passes state src).2.1.startIndex < 0 ∨ (passes state src).2.1.endIndex < 0) ∧
      ¬ ((passes state src).2.1.endIndex < (passes state src).2.1.startIndex + 4 ∨
        (passes state src).2.1.fcs ≠ fcsGoodValue) ∧
      hdlcGetDataWithState state (some src) =
        { ret := .ok (passes state src).1,
          destLen := some ((passes state src).2.1.destIndex - sizeofFcs), state := hdlcState,
          stores := (passes state src).2.2 }) := by
  by_cases waits : (passes state src).2.1.startIndex < 0 ∨ (passes state src).2.1.endIndex < 0
  · exact Or.inl ⟨waits, if_pos waits⟩
  · by_cases damaged : (passes state src).2.1.endIndex < (passes state src).2.1.startIndex + 4 ∨
        (passes state src).2.1.fcs ≠ fcsGoodValue
    · exact Or.inr (Or.inl ⟨waits, damaged, (if_neg waits).trans (if_pos damaged)⟩)
    · exact Or.inr (Or.inr ⟨waits, damaged, (if_neg waits).trans (if_neg damaged)⟩)

/-! ### The caller's memory -/

/-- The storage that `control` and `dest` point to; `dest` is large enough for every store. -/
structure Storage where
  control : HdlcControlT
  dest : Int → Byte

/-- Storage before any store. -/
def Storage.fresh : Storage := ⟨⟨.iFrame, 0⟩, fun _ => 0⟩

/-- One store. -/
def Storage.put (storage : Storage) : Store → Storage
  | .control value => { storage with control := value }
  | .dest index value => { storage with dest := Function.update storage.dest index value }

/-- The stores of a call, in their order. -/
def Storage.putAll (storage : Storage) (stores : List Store) : Storage :=
  stores.foldl Storage.put storage

@[simp] theorem putAll_nil (storage : Storage) : storage.putAll [] = storage := rfl

theorem putAll_append (storage : Storage) (first second : List Store) :
    storage.putAll (first ++ second) = (storage.putAll first).putAll second :=
  List.foldl_append

end HdlcMarquee
