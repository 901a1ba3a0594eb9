/-
**What one body delivers.**

The stores that the parser makes for a raw body amount to at most one store of the control field and
the octets of `frameData` at the start of `dest` (`putAll_partStores`), so the verdict on a completed
body is a function of the body and of the control storage before it (`verdict_body`).

For a body whose first two raw bytes are not escapes the octets are found where the sender put them
(`plain_body`).
-/

import HdlcMarquee.Hdlc.Position

namespace HdlcMarquee

open Generic

/-! ### The stores of a body -/

/-- The control field that a raw body stores, if any: that of its second raw byte, unless this is an
escape. -/
def controlOf : List Byte → Option HdlcControlT
  | first :: second :: _ =>
    if second = hdlcControlEscape then none
    else some (hdlcGetControlType (if first = hdlcControlEscape then second ^^^ 0x20 else second))
  | _ => none

/-- A memory with octets laid over its start. -/
def overlay (dest : Int → Byte) (octets : List Byte) (index : Int) : Byte :=
  if 0 ≤ index then octets.getD index.toNat (dest index) else dest index

theorem overlay_nil (dest : Int → Byte) : overlay dest [] = dest := by
  funext index
  simp [overlay]

theorem update_overlay (dest : Int → Byte) (octets : List Byte) (value : Byte) :
    Function.update (overlay dest octets) octets.length value = overlay dest (octets ++ [value]) := by
  funext index
  by_cases here : index = octets.length
  · subst here
    simp [overlay, List.getD_eq_getElem?_getD]
  · rw [Function.update_of_ne here, overlay, overlay]
    split
    · have apart : index.toNat ≠ octets.length := by omega
      rw [List.getD_eq_getElem?_getD, List.getD_eq_getElem?_getD]
      rcases Nat.lt_or_ge index.toNat octets.length with inside | outside
      · rw [List.getElem?_append_left inside]
      · rw [List.getElem?_eq_none outside, List.getElem?_eq_none (by simp; omega)]
    · rfl

theorem controlOf_snoc {body : List Byte} (other : body.length ≠ 1) (byte : Byte) :
    controlOf (body ++ [byte]) = controlOf body := by
  match body, other with
  | [], _ => rfl
  | [_], other => exact absurd rfl other
  | _ :: _ :: _, _ => rfl

/-- **The stores of one byte**, by its place in the raw body: the second may give the control field,
and every later one its octet. -/
theorem byteStores_eq (body : List Byte) (byte : Byte) :
    byteStores body byte =
      if body.length = 1 then (controlOf (body ++ [byte])).toList.map Store.control
      else if 2 ≤ body.length then
        (hdlcCode.unescape (hdlcCode.pending body) byte).2.map (Store.dest (frameData body).length)
      else [] := by
  unfold byteStores Code.unescape
  by_cases escape : byte = hdlcControlEscape
  · subst escape
    rw [if_pos rfl, hdlcCode_esc, if_pos rfl]
    split
    · rename_i one
      obtain ⟨first, rfl⟩ := List.length_eq_one_iff.mp one
      rfl
    · split <;> rfl
  · rw [if_neg escape, hdlcCode_esc, if_neg escape]
    by_cases one : body.length = 1
    · obtain ⟨first, rfl⟩ := List.length_eq_one_iff.mp one
      have pending : hdlcCode.pending [first] = decide (first = hdlcControlEscape) := by
        unfold Code.pending
        rw [run_singleton, Code.unescape]
        by_cases same : first = hdlcControlEscape <;> simp [same]
      simp [controlOf, escape, pending]
    · simp only [one, if_false]
      rfl

/-- The data behind one more byte. -/
theorem frameData_grow (body : List Byte) (byte : Byte) :
    frameData (body ++ [byte]) =
      if 2 ≤ body.length then
        frameData body ++ (hdlcCode.unescape (hdlcCode.pending body) byte).2
      else [] := by
  split
  · exact frameData_snoc ‹_› byte
  · exact frameData_short _ (by rw [List.length_append, List.length_singleton]; omega)

/-- **The stores of a body**: the control field at most once, and its data at the start of `dest`. -/
theorem putAll_partStores (storage : Storage) (body : List Byte) :
    storage.putAll (partStores [] body) =
      ⟨(controlOf body).getD storage.control, overlay storage.dest (frameData body)⟩ := by
  induction body using List.reverseRecOn with
  | nil => rw [frameData_short [] (by decide), overlay_nil]; rfl
  | append_singleton body byte ih =>
    rw [partStores_snoc, putAll_append, ih, List.nil_append, byteStores_eq, frameData_grow]
    by_cases one : body.length = 1
    · obtain ⟨first, rfl⟩ := List.length_eq_one_iff.mp one
      rw [if_pos one, if_neg (by simp), frameData_short [first] (by simp)]
      cases found : controlOf ([first] ++ [byte]) with
      | none => rfl
      | some control => rfl
    · rw [if_neg one, controlOf_snoc one]
      by_cases long : 2 ≤ body.length
      · rw [if_pos long, if_pos long, Code.unescape]
        split
        · rw [List.append_nil]
          rfl
        · rw [← update_overlay]
          rfl
      · rw [if_neg long, if_neg long, putAll_nil, frameData_short body (by omega)]

theorem length_frameData_snoc_le (body : List Byte) (byte : Byte) :
    (frameData body).length ≤ (frameData (body ++ [byte])).length := by
  rw [frameData_grow]
  split
  · rw [List.length_append]
    exact Nat.le_add_right _ _
  · rw [frameData_short _ (by omega)]

theorem length_frameData_append_le (body part : List Byte) :
    (frameData body).length ≤ (frameData (body ++ part)).length := by
  induction part using List.reverseRecOn with
  | nil => rw [List.append_nil]
  | append_singleton part byte ih =>
    rw [← List.append_assoc]
    exact ih.trans (length_frameData_snoc_le _ _)

/-- One byte stores into `dest` exactly where the data grows. -/
theorem dest_mem_byteStores (body : List Byte) (byte : Byte) (index : Int) :
    (∃ value, Store.dest index value ∈ byteStores body byte) ↔
      (frameData body).length ≤ index ∧ index < (frameData (body ++ [byte])).length := by
  rw [byteStores_eq, frameData_grow]
  by_cases one : body.length = 1
  · rw [if_pos one, if_neg (by omega), List.length_nil]
    simp only [List.mem_map, reduceCtorEq, and_false, exists_false, false_iff]
    omega
  · rw [if_neg one]
    by_cases long : 2 ≤ body.length
    · rw [if_pos long, if_pos long, Code.unescape]
      split
      · simp only [List.map_nil, List.not_mem_nil, exists_false, List.append_nil, false_iff]
        omega
      · simp only [List.map_cons, List.map_nil, List.mem_singleton, Store.dest.injEq,
          exists_and_left, exists_eq, and_true, List.length_append, List.length_singleton]
        omega
    · rw [if_neg long, if_neg long, List.length_nil]
      simp only [List.not_mem_nil, exists_false, false_iff]
      omega

/-- **Raw bytes store into `dest` exactly where the data grows.** -/
theorem dest_mem_partStores (body part : List Byte) (index : Int) :
    (∃ value, Store.dest index value ∈ partStores body part) ↔
      (frameData body).length ≤ index ∧ index < (frameData (body ++ part)).length := by
  induction part using List.reverseRecOn with
  | nil =>
    rw [List.append_nil]
    simp only [partStores, run_nil, List.not_mem_nil, exists_false, false_iff]
    omega
  | append_singleton part byte ih =>
    have last := dest_mem_byteStores (body ++ part) byte index
    have grows := length_frameData_snoc_le (body ++ part) byte
    have grown := length_frameData_append_le body part
    rw [partStores_snoc, ← List.append_assoc]
    simp only [List.mem_append, exists_or, ih, last]
    omega

/-- The first `length` bytes of `dest`. -/
def Storage.read (storage : Storage) (length : Int) : List Byte :=
  (List.range length.toNat).map fun index : Nat => storage.dest index

theorem read_overlay (control : HdlcControlT) (dest : Int → Byte) {octets : List Byte} {length : Int}
    (short : length ≤ octets.length) :
    (⟨control, overlay dest octets⟩ : Storage).read length = octets.take length.toNat := by
  apply List.ext_getElem
  · unfold Storage.read
    rw [List.length_map, List.length_range, List.length_take]
    omega
  · intro index inside inside'
    rw [List.length_take] at inside'
    simp only [Storage.read, List.getElem_map, List.getElem_range, List.getElem_take, overlay]
    rw [if_pos (Int.natCast_nonneg index), Int.toNat_natCast,
      List.getD_eq_getElem _ _ (inside'.trans_le (Nat.min_le_right _ _))]

/-! ### Where the octets are found -/

/-- Neither of the first two raw bytes is an escape. -/
def Plain (body : List Byte) : Prop :=
  body[0]? ≠ some hdlcControlEscape ∧ body[1]? ≠ some hdlcControlEscape

instance (body : List Byte) : Decidable (Plain body) :=
  inferInstanceAs (Decidable (_ ∧ _))

theorem length_frameData (body : List Byte) :
    (hdlcCode.octets (body.take 2)).length + (frameData body).length =
      (hdlcCode.octets body).length := by
  have carried : (hdlcCode.octets (body.take 2)).length ≤ (hdlcCode.octets body).length := by
    conv_rhs => rw [← List.take_append_drop 2 body, octets_append, List.length_append]
    exact Nat.le_add_right _ _
  unfold frameData
  rw [List.length_drop]
  omega

/-- **The first two raw bytes carry two octets exactly when neither is an escape.** -/
theorem length_octets_take_two {body : List Byte} (long : 2 ≤ body.length) :
    (hdlcCode.octets (body.take 2)).length = 2 ↔ Plain body := by
  match body, long with
  | first :: second :: rest, _ =>
    simp only [List.take_succ_cons, List.take_zero, Code.octets, run_cons, run_nil, Code.unescape,
      Plain, hdlcCode_esc, List.getElem?_cons_zero, List.getElem?_cons_succ, ne_eq,
      Option.some.injEq]
    by_cases firstEscape : first = hdlcControlEscape <;>
      by_cases secondEscape : second = hdlcControlEscape <;>
        simp [firstEscape, secondEscape]

theorem length_octets_take_two_le (body : List Byte) :
    (hdlcCode.octets (body.take 2)).length ≤ 2 := by
  refine (length_octets_le hdlcCode _).trans ?_
  rw [List.length_take]
  exact Nat.min_le_left _ _

/-- **A body that sends its first two octets as they are**: the second is the control octet, and
what follows is stored. -/
theorem plain_body {first second : Byte} {octets body : List Byte}
    (notEsc : first ≠ hdlcControlEscape) (notEsc' : second ≠ hdlcControlEscape)
    (stuffed : Stuffed hdlcCode octets body) :
    controlOf (first :: second :: body) = some (hdlcGetControlType second) ∧
      hdlcCode.octets (first :: second :: body) = first :: second :: octets ∧
      frameData (first :: second :: body) = octets := by
  have carried : hdlcCode.octets (first :: second :: body) = first :: second :: octets := by
    have rest := stuffed.octets_eq
    unfold Code.octets at rest
    simp [Code.octets, run_cons, Code.unescape, notEsc, notEsc', rest]
  have two : hdlcCode.octets [first, second] = [first, second] := by
    simp [Code.octets, run_cons, Code.unescape, notEsc, notEsc']
  refine ⟨by simp [controlOf, notEsc, notEsc'], carried, ?_⟩
  unfold frameData
  rw [carried]
  show List.drop (hdlcCode.octets [first, second]).length _ = octets
  rw [two]
  rfl

end HdlcMarquee
