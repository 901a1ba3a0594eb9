/-
**Machines that read symbols and emit outputs.**

A machine is a step function `σ → ι → σ × List ω`: reading one symbol changes the state and emits
any number of outputs. Everything said about runs of arbitrary length goes through this file:

* `run_append`, `run_flatten`: a run over a concatenation is the run over its parts, the state
  being carried across the cut, so how a word was cut never matters;
* `run_invariant`: what holds at the start and is kept by every step holds after every run, of the
  state together with everything emitted so far;
* `run_sim`: two machines whose steps agree under a map of states and of outputs have the same runs;
* `run_related`: two machines whose steps keep a relation and emit the same emit the same on every word;
* `run_piped`: two machines in a row, the second reading what the first emits;
* `each_snoc`: what holds of every output at the time it is emitted is kept by one more output;
* `successive_map`: outputs that follow each other do so before and behind a map.
-/

import Mathlib.Data.List.Basic

namespace HdlcMarquee.Generic

section Run

variable {σ τ ι ω ω' : Type*}

/-- The state after a word, and everything emitted while it was read. -/
def run (step : σ → ι → σ × List ω) : σ → List ι → σ × List ω
  | state, [] => (state, [])
  | state, symbol :: rest =>
    let first := step state symbol
    let tail := run step first.1 rest
    (tail.1, first.2 ++ tail.2)

variable (step : σ → ι → σ × List ω)

@[simp] theorem run_nil (state : σ) : run step state [] = (state, []) := rfl

theorem run_cons (state : σ) (symbol : ι) (rest : List ι) :
    run step state (symbol :: rest) =
      ((run step (step state symbol).1 rest).1,
        (step state symbol).2 ++ (run step (step state symbol).1 rest).2) := rfl

theorem run_singleton (state : σ) (symbol : ι) : run step state [symbol] = step state symbol := by
  simp [run_cons]

/-- **The state carries across a cut.** -/
theorem run_append (state : σ) (first second : List ι) :
    run step state (first ++ second) =
      ((run step (run step state first).1 second).1,
        (run step state first).2 ++ (run step (run step state first).1 second).2) := by
  induction first generalizing state with
  | nil => rfl
  | cons symbol rest ih => simp only [List.cons_append, run_cons, ih, List.append_assoc]

/-- **Reading the parts one after the other is reading the whole.** -/
theorem run_flatten (state : σ) (parts : List (List ι)) :
    run (run step) state parts = run step state parts.flatten := by
  induction parts generalizing state with
  | nil => rfl
  | cons part rest ih => rw [run_cons, ih, List.flatten_cons, run_append]

/-- **The invariant rule**, for the state and the outputs so far together. -/
theorem run_invariant (holds : σ → List ω → Prop)
    (kept : ∀ state past symbol, holds state past →
      holds (step state symbol).1 (past ++ (step state symbol).2)) :
    ∀ (word : List ι) (state : σ) (past : List ω), holds state past →
      holds (run step state word).1 (past ++ (run step state word).2) := by
  intro word
  induction word with
  | nil =>
    intro state past initial
    simpa using initial
  | cons symbol rest ih =>
    intro state past initial
    have next := ih _ _ (kept state past symbol initial)
    rw [List.append_assoc] at next
    exact next

section Allowed

variable (holds : σ → Prop) (allowed : ι → Prop)

/-- **The output rule**: what allowed symbols keep, and what they emit meanwhile. -/
theorem run_emits (good : ω → Prop)
    (kept : ∀ state symbol, holds state → allowed symbol →
      holds (step state symbol).1 ∧ ∀ output ∈ (step state symbol).2, good output) :
    ∀ (word : List ι) (state : σ), holds state → (∀ symbol ∈ word, allowed symbol) →
      holds (run step state word).1 ∧ ∀ output ∈ (run step state word).2, good output := by
  intro word
  induction word with
  | nil => exact fun state initial _ => ⟨initial, nofun⟩
  | cons symbol rest ih =>
    intro state initial permitted
    obtain ⟨next, first⟩ := kept state symbol initial (permitted symbol List.mem_cons_self)
    obtain ⟨final, later⟩ := ih _ next fun symbol member => permitted symbol (List.mem_cons_of_mem _ member)
    refine ⟨final, fun output member => ?_⟩
    rcases List.mem_append.mp member with emitted | emitted
    · exact first output emitted
    · exact later output emitted

/-- **The progress rule**: a rank that allowed symbols keep falls with those that work. -/
theorem run_progress (rank : σ → ℕ) (works : ι → Bool)
    (falls : ∀ state symbol, holds state → allowed symbol → holds (step state symbol).1 ∧
      rank (step state symbol).1 ≤ rank state - if works symbol then 1 else 0) :
    ∀ (word : List ι) (state : σ), holds state → (∀ symbol ∈ word, allowed symbol) →
      holds (run step state word).1 ∧
        rank (run step state word).1 ≤ rank state - word.countP works := by
  intro word
  induction word with
  | nil => exact fun state initial _ => ⟨initial, Nat.le_refl _⟩
  | cons symbol rest ih =>
    intro state initial permitted
    obtain ⟨next, lower⟩ := falls state symbol initial (permitted symbol List.mem_cons_self)
    obtain ⟨final, later⟩ := ih _ next fun symbol member => permitted symbol (List.mem_cons_of_mem _ member)
    rw [run_cons, List.countP_cons]
    refine ⟨final, ?_⟩
    calc rank (run step (step state symbol).1 rest).1
        ≤ rank (step state symbol).1 - rest.countP works := later
      _ ≤ rank state - (if works symbol then 1 else 0) - rest.countP works := Nat.sub_le_sub_right lower _
      _ = rank state - (rest.countP works + if works symbol then 1 else 0) := by
        rw [Nat.sub_sub, Nat.add_comm]

end Allowed

/-- **Simulation by a map of states.** If `abs` carries every step of one machine to the step of
the other, and `out` what they emit, then they carry runs to runs. -/
theorem run_sim {step' : τ → ι → τ × List ω'} (abs : σ → τ) (out : ω → ω')
    (agree : ∀ state symbol,
      step' (abs state) symbol = (abs (step state symbol).1, (step state symbol).2.map out))
    (state : σ) (word : List ι) :
    run step' (abs state) word =
      (abs (run step state word).1, (run step state word).2.map out) := by
  induction word generalizing state with
  | nil => rfl
  | cons symbol rest ih => rw [run_cons, agree, ih, run_cons, List.map_append]

/-- **Simulation by a relation between states.** -/
theorem run_related {step' : τ → ι → τ × List ω} (related : σ → τ → Prop)
    (agree : ∀ state state' symbol, related state state' →
      related (step state symbol).1 (step' state' symbol).1 ∧
        (step state symbol).2 = (step' state' symbol).2)
    {state : σ} {state' : τ} (initial : related state state') (word : List ι) :
    related (run step state word).1 (run step' state' word).1 ∧
      (run step state word).2 = (run step' state' word).2 := by
  induction word generalizing state state' with
  | nil => exact ⟨initial, rfl⟩
  | cons symbol rest ih =>
    obtain ⟨next, emitted⟩ := agree state state' symbol initial
    obtain ⟨final, later⟩ := ih next
    rw [run_cons, run_cons, emitted, later]
    exact ⟨final, rfl⟩

/-- A machine that reads what another one emits. -/
def piped (step : σ → ι → σ × List ω) (next : τ → ω → τ × List ω') (states : σ × τ) (symbol : ι) :
    (σ × τ) × List ω' :=
  let first := step states.1 symbol
  let second := run next states.2 first.2
  ((first.1, second.1), second.2)

/-- **A run of two machines in a row** is a run of the second on what a run of the first emits. -/
theorem run_piped (next : τ → ω → τ × List ω') (state : σ) (state' : τ) (word : List ι) :
    run (piped step next) (state, state') word =
      (((run step state word).1, (run next state' (run step state word).2).1),
        (run next state' (run step state word).2).2) := by
  induction word generalizing state state' with
  | nil => rfl
  | cons symbol rest ih =>
    rw [run_cons, run_cons, run_append]
    show ((run (piped step next) ((step state symbol).1,
        (run next state' (step state symbol).2).1) rest).1, _ ++
      (run (piped step next) ((step state symbol).1,
        (run next state' (step state symbol).2).1) rest).2) = _
    rw [ih]
    rfl

end Run

section Each

variable {ω : Type*} {holds : List ω → ω → Prop}

/-- Every output stands in a relation to those before it. -/
def Each (holds : List ω → ω → Prop) (outputs : List ω) : Prop :=
  ∀ before output after, outputs = before ++ output :: after → holds before output

theorem each_nil : Each holds [] := by
  intro before output after split
  exact absurd split.symm (List.append_ne_nil_of_right_ne_nil _ (List.cons_ne_nil _ _))

theorem each_snoc {outputs : List ω} {last : ω} :
    Each holds (outputs ++ [last]) ↔ Each holds outputs ∧ holds outputs last := by
  constructor
  · intro each
    refine ⟨fun before output after split => ?_, each outputs last [] rfl⟩
    exact each before output (after ++ [last]) (by rw [split, List.append_assoc, List.cons_append])
  · rintro ⟨each, final⟩ before output after split
    rcases List.eq_nil_or_concat after with rfl | ⟨after, symbol, rfl⟩
    · obtain ⟨same, last'⟩ := List.append_inj' split rfl
      rw [← same, ← List.head_eq_of_cons_eq last']
      exact final
    · rw [List.concat_eq_append, ← List.cons_append, ← List.append_assoc] at split
      exact each before output after (List.append_inj' split rfl).1

end Each

section Successive

variable {ω ω' : Type*}

/-- Two outputs follow each other, with nothing but passing ones between them. -/
def Successive (passing : ω → Prop) (outputs : List ω) (first second : ω) : Prop :=
  ∃ before between after, outputs = before ++ first :: (between ++ second :: after) ∧
    ∀ output ∈ between, passing output

theorem successive_map {passing : ω → Prop} {passing' : ω' → Prop} {out : ω → ω'}
    (passes : ∀ output, passing' (out output) ↔ passing output) (outputs : List ω)
    (first' second' : ω') :
    Successive passing' (outputs.map out) first' second' ↔
      ∃ first second, out first = first' ∧ out second = second' ∧
        Successive passing outputs first second := by
  constructor
  · rintro ⟨before', between', after', split, pass'⟩
    obtain ⟨before, tail, rfl, -, split⟩ := List.map_eq_append_iff.mp split
    obtain ⟨first, tail, rfl, first_eq, rest⟩ := List.map_eq_cons_iff.mp split
    obtain ⟨between, tail', rfl, rfl, last⟩ := List.map_eq_append_iff.mp rest
    obtain ⟨second, after, rfl, second_eq, -⟩ := List.map_eq_cons_iff.mp last
    refine ⟨first, second, first_eq, second_eq, before, between, after, rfl, ?_⟩
    exact fun output member => (passes output).mp (pass' _ (List.mem_map_of_mem member))
  · rintro ⟨first, second, rfl, rfl, before, between, after, rfl, pass'⟩
    refine ⟨before.map out, between.map out, after.map out, by simp, ?_⟩
    intro output' mapped
    obtain ⟨output, member, rfl⟩ := List.mem_map.mp mapped
    exact (passes output).mpr (pass' output member)

end Successive

end HdlcMarquee.Generic
