/-
**Queues in a ring of cells.**

A ring of `size` cells holds a queue between two indices that go round: the queue starts at `head`,
and `tail` is the cell behind its last element. One cell stays free, so that a full ring and an empty
one can be told apart (`CellRing.Holds`).

* `Holds.empty_iff`, `Holds.full_iff`: what the two comparisons of the indices say about the queue;
* `Holds.push`, `Holds.front`, `Holds.pop`: storing behind the queue, reading its first element and
  moving `head` past it.
-/

import Mathlib.Data.List.Basic
import Mathlib.Data.Nat.ModEq
import Mathlib.Logic.Function.Basic

namespace HdlcMarquee.Generic

/-- The cells of a ring and its two indices. -/
structure CellRing (α : Type*) where
  cells : Nat → α
  head : Nat
  tail : Nat

section Ring

variable {α : Type*} {size : Nat} {ring : CellRing α} {queue : List α}

/-- A ring of `size` cells holds a queue. -/
structure CellRing.Holds (size : Nat) (ring : CellRing α) (queue : List α) : Prop where
  head_lt : ring.head < size
  short : queue.length < size
  tail_eq : ring.tail = (ring.head + queue.length) % size
  stored : ∀ place, (inside : place < queue.length) →
    ring.cells ((ring.head + place) % size) = queue[place]

/-- The elements between the two indices. -/
def CellRing.contents (size : Nat) (ring : CellRing α) : List α :=
  (List.range ((ring.tail + size - ring.head) % size)).map fun place =>
    ring.cells ((ring.head + place) % size)

/-- Places less than a round apart are different cells. -/
theorem mod_ne_of_lt (head : Nat) {place place' : Nat} (less : place < place')
    (inside : place' < size) :
    (head + place) % size ≠ (head + place') % size := by
  intro same
  have places : place % size = place' % size := Nat.ModEq.add_left_cancel' head same
  rw [Nat.mod_eq_of_lt (less.trans inside), Nat.mod_eq_of_lt inside] at places
  exact Nat.ne_of_lt less places

namespace CellRing.Holds

variable (holds : ring.Holds size queue)
include holds

theorem tail_lt : ring.tail < size := by
  rw [holds.tail_eq]
  exact Nat.mod_lt _ (Nat.zero_lt_of_lt holds.head_lt)

/-- **The indices are equal exactly when the queue is empty.** -/
theorem empty_iff : ring.head = ring.tail ↔ queue = [] := by
  rw [holds.tail_eq]
  constructor
  · intro same
    by_contra some
    have apart := mod_ne_of_lt ring.head (List.length_pos_of_ne_nil some) holds.short
    rw [Nat.add_zero, Nat.mod_eq_of_lt holds.head_lt] at apart
    exact apart same
  · rintro rfl
    rw [List.length_nil, Nat.add_zero, Nat.mod_eq_of_lt holds.head_lt]

/-- **The cell behind the tail is the head exactly when one cell is free.** -/
theorem full_iff : (ring.tail + 1) % size = ring.head ↔ queue.length + 1 = size := by
  rw [holds.tail_eq, Nat.mod_add_mod, Nat.add_assoc]
  constructor
  · intro round
    by_contra free
    have apart := mod_ne_of_lt ring.head (Nat.succ_pos queue.length)
      (lt_of_le_of_ne holds.short free)
    rw [Nat.add_zero, Nat.mod_eq_of_lt holds.head_lt] at apart
    exact apart round.symm
  · intro full
    rw [full, Nat.add_mod_right, Nat.mod_eq_of_lt holds.head_lt]

/-- **Storing behind the queue.** -/
theorem push (free : queue.length + 1 ≠ size) (value : α) :
    Holds size ⟨Function.update ring.cells ring.tail value, ring.head, (ring.tail + 1) % size⟩
      (queue ++ [value]) := by
  have short : queue.length + 1 < size := lt_of_le_of_ne holds.short free
  refine ⟨holds.head_lt, ?_, ?_, ?_⟩
  · rwa [List.length_append, List.length_singleton]
  · rw [holds.tail_eq, List.length_append, List.length_singleton, Nat.mod_add_mod, Nat.add_assoc]
  · intro place inside
    rw [List.length_append, List.length_singleton] at inside
    dsimp only
    rw [holds.tail_eq]
    rcases Nat.lt_succ_iff_lt_or_eq.mp inside with old | rfl
    · rw [Function.update_of_ne (mod_ne_of_lt _ old holds.short), holds.stored place old,
        List.getElem_append_left old]
    · rw [Function.update_self, List.getElem_concat_length rfl]

/-- The cell at the head holds the first element. -/
theorem front {first : α} {rest : List α} (split : queue = first :: rest) :
    ring.cells ring.head = first := by
  subst split
  have stored := holds.stored 0 (Nat.succ_pos _)
  rwa [Nat.add_zero, Nat.mod_eq_of_lt holds.head_lt] at stored

/-- **Moving the head past the first element.** -/
theorem pop {first : α} {rest : List α} (split : queue = first :: rest) :
    Holds size { ring with head := (ring.head + 1) % size } rest := by
  subst split
  have short := holds.short
  rw [List.length_cons] at short
  refine ⟨Nat.mod_lt _ (Nat.zero_lt_of_lt short), Nat.lt_of_succ_lt short, ?_, ?_⟩
  · rw [holds.tail_eq, List.length_cons, Nat.mod_add_mod]
    congr 1
    omega
  · intro place inside
    have next := holds.stored (place + 1) (Nat.succ_lt_succ inside)
    rw [Nat.mod_add_mod, Nat.add_assoc, Nat.add_comm 1 place, next]
    rfl

/-- The elements between the indices are the queue. -/
theorem contents_eq : ring.contents size = queue := by
  have count : (ring.tail + size - ring.head) % size = queue.length := by
    have short := holds.short
    rw [holds.tail_eq]
    rcases Nat.lt_or_ge (ring.head + queue.length) size with straight | wraps
    · rw [Nat.mod_eq_of_lt straight]
      have shift : ring.head + queue.length + size - ring.head = queue.length + size := by omega
      rw [shift, Nat.add_mod_right, Nat.mod_eq_of_lt short]
    · have below := holds.head_lt
      have round : (ring.head + queue.length) % size = ring.head + queue.length - size := by
        rw [Nat.mod_eq_sub_mod wraps, Nat.mod_eq_of_lt (by omega)]
      have shift : ring.head + queue.length - size + size - ring.head = queue.length := by omega
      rw [round, shift, Nat.mod_eq_of_lt short]
  unfold CellRing.contents
  rw [count]
  apply List.ext_getElem
  · rw [List.length_map, List.length_range]
  · intro place inside inside'
    rw [List.getElem_map, List.getElem_range, holds.stored place inside']

end CellRing.Holds

end Ring

end HdlcMarquee.Generic
