/-
**Strobed signals.**

A signal is a list of levels; one line of it, the strobe, says when the others are to be taken. A receiver
takes them when the strobe falls (`sampleStep`) or when it rises (`riseStep`).

`sampled_eq`: of a signal that does not change around its pulses both take the same; `steady_run`: runs of
steps that are such signals are such signals.
-/

import HdlcMarquee.Generic.Machine
import Mathlib.Data.List.Chain

namespace HdlcMarquee.Generic

section Strobe

variable {σ α : Type*} (strobe : σ → Bool)

/-- A receiver that takes the level that the strobe falls from. -/
def sampleStep (level next : σ) : σ × List σ :=
  (next, if strobe level && !strobe next then [level] else [])

/-- A receiver that takes the level that the strobe rises to. -/
def riseStep (level next : σ) : σ × List σ :=
  (next, if !strobe level && strobe next then [next] else [])

/-- The level that a receiver of the falling strobe has still to take. -/
def pending (level : σ) : List σ := if strobe level then [level] else []

/-- What the other lines carry does not change on the way into a pulse, within one, or out of one. -/
def Steady (value : σ → α) (signal : List σ) : Prop :=
  signal.IsChain fun level next => strobe level || strobe next → value level = value next

variable {strobe} {value : σ → α}

variable (strobe) in
/-- A receiver is left with the last level. -/
theorem sampled_last (level : σ) (signal : List σ) :
    (level :: signal).getLast? = some (run (sampleStep strobe) level signal).1 := by
  induction signal generalizing level with
  | nil => rfl
  | cons next rest ih =>
    rw [List.getLast?_cons_cons, ih next]
    rfl

/-- What is taken when the strobe rises is taken when it falls, or is still to be taken. -/
theorem sampled_append {level : σ} {signal : List σ} (steady : Steady strobe value (level :: signal)) :
    ((run (sampleStep strobe) level signal).2 ++
        pending strobe (run (sampleStep strobe) level signal).1).map value =
      (pending strobe level ++ (run (riseStep strobe) level signal).2).map value := by
  induction signal generalizing level with
  | nil => rw [run_nil, run_nil, List.nil_append, List.append_nil]
  | cons next rest ih =>
    obtain ⟨same, steady⟩ := List.isChain_cons_cons.mp steady
    have later := ih steady
    rw [run_cons, run_cons, List.append_assoc, List.map_append]
    show _ ++ ((run (sampleStep strobe) next rest).2 ++
        pending strobe (run (sampleStep strobe) next rest).1).map value = _
    rw [later]
    unfold sampleStep riseStep pending
    cases high : strobe level with
    | true =>
      have value_eq := same (by rw [high, Bool.true_or])
      cases rising : strobe next <;> simp [value_eq]
    | false => cases rising : strobe next <;> simp

/-- **Steady steps make a steady run**, if each of them goes from a level with the strobe low to one. -/
theorem steady_run {ι : Type*} {step : σ → ι → σ × List σ}
    (steps : ∀ level symbol, strobe level = false →
      Steady strobe value (level :: (step level symbol).2) ∧
        (level :: (step level symbol).2).getLast? = some (step level symbol).1 ∧
        strobe (step level symbol).1 = false)
    (word : List ι) {level : σ} (low : strobe level = false) :
    Steady strobe value (level :: (run step level word).2) ∧
      (level :: (run step level word).2).getLast? = some (run step level word).1 ∧
      strobe (run step level word).1 = false := by
  induction word generalizing level with
  | nil => exact ⟨List.IsChain.singleton _, rfl, low⟩
  | cons symbol rest ih =>
    obtain ⟨steady, ends, reached⟩ := steps level symbol low
    obtain ⟨later, final, low'⟩ := ih reached
    obtain ⟨before, split⟩ := List.getLast?_eq_some_iff.mp ends
    have joined : level :: (run step level (symbol :: rest)).2 =
        before ++ [(step level symbol).1] ++ (run step (step level symbol).1 rest).2 := by
      rw [run_cons, ← split, List.cons_append]
    refine ⟨?_, ?_, low'⟩
    · unfold Steady at steady later ⊢
      rw [split] at steady
      rw [joined]
      exact steady.append_overlap later (List.cons_ne_nil _ _)
    · rw [joined, List.append_assoc, List.singleton_append, List.getLast?_append, final]
      rfl

/-- **The edge does not matter**: between levels with the strobe low both receivers take the same. -/
theorem sampled_eq {level : σ} {signal : List σ} (steady : Steady strobe value (level :: signal))
    (first : strobe level = false)
    (last : strobe (run (sampleStep strobe) level signal).1 = false) :
    (run (sampleStep strobe) level signal).2.map value =
      (run (riseStep strobe) level signal).2.map value := by
  have sampled := sampled_append steady
  unfold pending at sampled
  rw [if_neg (ne_true_of_eq_false last), if_neg (ne_true_of_eq_false first), List.append_nil,
    List.nil_append] at sampled
  exact sampled

end Strobe

end HdlcMarquee.Generic
