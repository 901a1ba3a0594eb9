/-
**Flag-delimited frames and byte stuffing, over any alphabet.**

A stream is cut into frames by a flag symbol that occurs nowhere inside them; inside a frame an
escape symbol announces that the symbol after it was masked. This file states both halves for an
arbitrary alphabet and an arbitrary masking (`Code`).

* `Code.unescape` removes the stuffing symbol by symbol. `Stuffed.run_unescape`: every admissible
  way of stuffing an octet string, whichever symbols were escaped, is undone by it; `stuffed_stuff`:
  the sender's choice, to escape exactly the flag and the escape symbol, is admissible, and
  `stuff_behind_esc`: it puts a masked reserved symbol behind every escape.
* `sublist_zipWith_octets`: when two raw bodies have their escapes at the same places, the
  differences of what they carry are a sublist of the differences on the line.
* `Phase` is the position of a receiver in the stream: before the first flag, or after a flag with
  the raw body received since. `Phase.step` closes a nonempty body at the next flag and opens the
  next frame with it. `run_flag_frame`: a body between two flags is completed as it is;
  `run_quiet_split`: a word that completes nothing has no flag, or is noise, flags, and a body in
  progress.
-/

import HdlcMarquee.Generic.Machine
import Mathlib.Algebra.Ring.Nat
import Mathlib.Data.List.Forall2
import Mathlib.Data.List.Induction

namespace HdlcMarquee.Generic

/-! ### Byte stuffing -/

/-- A byte-stuffing code: two reserved symbols, and a masking that moves both of them out of the
way. -/
structure Code (α : Type*) where
  flag : α
  esc : α
  mask : α → α
  flag_ne_esc : flag ≠ esc
  mask_mask : ∀ symbol, mask (mask symbol) = symbol
  mask_flag : mask flag ≠ flag ∧ mask flag ≠ esc
  mask_esc : mask esc ≠ flag ∧ mask esc ≠ esc

section Stuffing

variable {α : Type*} [DecidableEq α] (code : Code α)

/-- One raw symbol. The state says whether an escape is pending; it stays pending over further
escapes. -/
def Code.unescape (pending : Bool) (raw : α) : Bool × List α :=
  if raw = code.esc then (true, []) else (false, [if pending then code.mask raw else raw])

/-- Whether an escape is pending after a raw body. -/
def Code.pending (body : List α) : Bool := (run code.unescape false body).1

/-- What a raw body carries. -/
def Code.octets (body : List α) : List α := (run code.unescape false body).2

@[simp] theorem pending_nil : code.pending [] = false := rfl

@[simp] theorem octets_nil : code.octets [] = [] := rfl

theorem pending_snoc (body : List α) (raw : α) :
    code.pending (body ++ [raw]) = (code.unescape (code.pending body) raw).1 := by
  unfold Code.pending
  rw [run_append, run_singleton]

theorem octets_snoc (body : List α) (raw : α) :
    code.octets (body ++ [raw]) =
      code.octets body ++ (code.unescape (code.pending body) raw).2 := by
  unfold Code.octets
  rw [run_append, run_singleton]
  rfl

theorem octets_append (first second : List α) :
    code.octets (first ++ second) =
      code.octets first ++ (run code.unescape (code.pending first) second).2 := by
  unfold Code.octets
  rw [run_append]
  rfl

theorem length_octets_le (body : List α) : (code.octets body).length ≤ body.length := by
  induction body using List.reverseRecOn with
  | nil => exact Nat.le_refl _
  | append_singleton body raw ih =>
    rw [octets_snoc, List.length_append, List.length_append, Code.unescape]
    split <;> simp <;> omega

/-- The admissible ways of stuffing: each symbol is sent as it is, unless it is reserved, or
masked after an escape, unless its mask is reserved. -/
inductive Stuffed : List α → List α → Prop
  | nil : Stuffed [] []
  | raw {octet : α} {octets body : List α} (notFlag : octet ≠ code.flag) (notEsc : octet ≠ code.esc)
      (rest : Stuffed octets body) : Stuffed (octet :: octets) (octet :: body)
  | escaped {octet : α} {octets body : List α} (notFlag : code.mask octet ≠ code.flag)
      (notEsc : code.mask octet ≠ code.esc) (rest : Stuffed octets body) :
      Stuffed (octet :: octets) (code.esc :: code.mask octet :: body)

variable {code}

/-- **Unstuffing undoes every admissible stuffing.** -/
theorem Stuffed.run_unescape {octets body : List α} (stuffed : Stuffed code octets body) :
    run code.unescape false body = (false, octets) := by
  induction stuffed with
  | nil => rfl
  | raw notFlag notEsc _ ih => simp [run_cons, Code.unescape, notEsc, ih]
  | escaped notFlag notEsc _ ih => simp [run_cons, Code.unescape, notEsc, ih, code.mask_mask]

theorem Stuffed.octets_eq {octets body : List α} (stuffed : Stuffed code octets body) :
    code.octets body = octets :=
  congrArg Prod.snd stuffed.run_unescape

omit [DecidableEq α] in
/-- A stuffed body contains no flag. -/
theorem Stuffed.flag_notMem {octets body : List α} (stuffed : Stuffed code octets body) :
    code.flag ∉ body := by
  induction stuffed with
  | nil => exact List.not_mem_nil
  | raw notFlag notEsc _ ih => exact List.not_mem_cons_of_ne_of_not_mem notFlag.symm ih
  | escaped notFlag notEsc _ ih =>
    exact List.not_mem_cons_of_ne_of_not_mem code.flag_ne_esc
      (List.not_mem_cons_of_ne_of_not_mem notFlag.symm ih)

theorem Stuffed.length_le {octets body : List α} (stuffed : Stuffed code octets body) :
    octets.length ≤ body.length := by
  rw [← stuffed.octets_eq]
  exact length_octets_le code body

variable (code)

/-- The sender's choice for one symbol: escape it exactly when it is reserved. -/
def Code.escape (octet : α) : List α :=
  if octet = code.flag ∨ octet = code.esc then [code.esc, code.mask octet] else [octet]

/-- The sender's stuffing of an octet string. -/
def Code.stuff (octets : List α) : List α := octets.flatMap code.escape

@[simp] theorem stuff_nil : code.stuff [] = [] := rfl

theorem stuff_cons (octet : α) (rest : List α) :
    code.stuff (octet :: rest) = code.escape octet ++ code.stuff rest := rfl

theorem stuff_append (first second : List α) :
    code.stuff (first ++ second) = code.stuff first ++ code.stuff second :=
  List.flatMap_append

/-- The number of symbols that have to be escaped. -/
def Code.reserved (octets : List α) : Nat :=
  octets.countP fun octet => octet = code.flag ∨ octet = code.esc

/-- **Stuffing adds one symbol for each escape.** -/
theorem length_stuff (octets : List α) :
    (code.stuff octets).length = octets.length + code.reserved octets := by
  induction octets with
  | nil => rfl
  | cons octet rest ih =>
    rw [stuff_cons, List.length_append, ih, Code.escape, Code.reserved, Code.reserved,
      List.countP_cons, List.length_cons]
    by_cases escaped : octet = code.flag ∨ octet = code.esc
    · simp only [escaped, if_true, decide_true, List.length_cons, List.length_nil]
      omega
    · simp only [escaped, if_false, decide_false, Bool.false_eq_true, List.length_singleton]
      omega

/-- **The sender stuffs admissibly.** -/
theorem stuffed_stuff (octets : List α) : Stuffed code octets (code.stuff octets) := by
  induction octets with
  | nil => exact .nil
  | cons octet rest ih =>
    rw [stuff_cons, Code.escape]
    split
    · rename_i reserved
      rcases reserved with rfl | rfl
      · exact .escaped code.mask_flag.1 code.mask_flag.2 ih
      · exact .escaped code.mask_esc.1 code.mask_esc.2 ih
    · rename_i free
      rw [not_or] at free
      exact .raw free.1 free.2 ih

/-- **Behind every escape stands the mask of a reserved symbol.** -/
theorem stuff_behind_esc (octets : List α) {index : Nat}
    (escape : (code.stuff octets)[index]? = some code.esc) :
    (code.stuff octets)[index + 1]? = some (code.mask code.flag) ∨
      (code.stuff octets)[index + 1]? = some (code.mask code.esc) := by
  induction octets generalizing index with
  | nil => cases escape
  | cons octet rest ih =>
    rw [stuff_cons, Code.escape] at escape ⊢
    by_cases reserved : octet = code.flag ∨ octet = code.esc
    · rw [if_pos reserved] at escape ⊢
      match index with
      | 0 =>
        rcases reserved with rfl | rfl
        · exact Or.inl rfl
        · exact Or.inr rfl
      | 1 =>
        -- the mask is no escape itself
        have masked : code.mask octet = code.esc := Option.some.inj escape
        rcases reserved with rfl | rfl
        · exact absurd masked code.mask_flag.2
        · exact absurd masked code.mask_esc.2
      | index + 2 => exact ih escape
    · rw [if_neg reserved] at escape ⊢
      match index with
      | 0 => exact absurd (Or.inr (Option.some.inj escape)) reserved
      | index + 1 => exact ih escape

theorem reserved_le (octets : List α) : code.reserved octets ≤ octets.length :=
  List.countP_le_length

theorem octets_stuff (octets : List α) : code.octets (code.stuff octets) = octets :=
  (stuffed_stuff code octets).octets_eq

/-! ### Stray escapes -/

/-- A body holds an escape behind which nothing is masked: a further escape follows, or the end. -/
def Code.Malformed (body : List α) : Prop := [code.esc, code.esc] <:+: body ∨ [code.esc] <:+ body

/-- A body without such escapes. -/
def Code.settle : List α → List α
  | [] => []
  | [raw] => if raw = code.esc then [] else [raw]
  | raw :: next :: rest =>
    if raw = code.esc ∧ next = code.esc then Code.settle (next :: rest)
    else raw :: Code.settle (next :: rest)

omit [DecidableEq α] in
theorem not_malformed_nil : ¬ code.Malformed [] := by simp [Code.Malformed]

omit [DecidableEq α] in
theorem malformed_cons_cons (raw next : α) (rest : List α) :
    code.Malformed (raw :: next :: rest) ↔
      (raw = code.esc ∧ next = code.esc) ∨ code.Malformed (next :: rest) := by
  unfold Code.Malformed
  rw [List.infix_cons_iff, List.suffix_cons_iff, List.cons_prefix_cons, List.cons_prefix_cons,
    or_assoc]
  simp only [List.nil_prefix, and_true, List.cons.injEq, reduceCtorEq, and_false, false_or,
    eq_comm (a := code.esc)]

omit [DecidableEq α] in
/-- In front of a body, anything but an escape makes no difference. -/
theorem malformed_cons_of_ne {raw : α} (notEsc : raw ≠ code.esc) (body : List α) :
    code.Malformed (raw :: body) ↔ code.Malformed body := by
  cases body with
  | nil =>
    refine iff_of_false ?_ (not_malformed_nil code)
    simp [Code.Malformed, List.infix_cons_iff, List.suffix_cons_iff, notEsc.symm]
  | cons next rest => rw [malformed_cons_cons, or_iff_right fun both => notEsc both.1]

theorem settle_cons_of_ne {raw : α} (notEsc : raw ≠ code.esc) (body : List α) :
    code.settle (raw :: body) = raw :: code.settle body := by
  cases body with
  | nil => simp [Code.settle, notEsc]
  | cons next rest => simp [Code.settle, notEsc]

/-- **What remains is not malformed.** -/
theorem not_malformed_settle (body : List α) : ¬ code.Malformed (code.settle body) := by
  fun_induction Code.settle code body with
  | case1 => exact not_malformed_nil code
  | case2 => exact not_malformed_nil code
  | case3 raw notEsc => exact (malformed_cons_of_ne code notEsc []).not.mpr (not_malformed_nil code)
  | case4 raw next rest both ih => exact ih
  | case5 raw next rest notBoth ih =>
    by_cases escape : raw = code.esc
    · -- the escape masks the symbol behind it, which is kept
      have notEsc : next ≠ code.esc := fun both => notBoth ⟨escape, both⟩
      rw [settle_cons_of_ne code notEsc] at ih ⊢
      rw [malformed_cons_cons, or_iff_right fun both => notEsc both.2]
      exact ih
    · exact (malformed_cons_of_ne code escape _).not.mpr ih

/-- **Stray escapes carry nothing.** -/
theorem octets_settle (body : List α) : code.octets (code.settle body) = code.octets body := by
  have general : ∀ pending, (run code.unescape pending (code.settle body)).2 =
      (run code.unescape pending body).2 := by
    fun_induction Code.settle code body with
    | case1 => exact fun _ => rfl
    | case2 => exact fun _ => by simp [run_cons, Code.unescape]
    | case3 => exact fun _ => rfl
    | case4 raw next rest both ih =>
      intro pending
      rw [ih pending, both.1, both.2]
      simp [run_cons, Code.unescape]
    | case5 raw next rest notBoth ih =>
      intro pending
      rw [run_cons, run_cons, ih]
  exact general false

/-! ### Two bodies with their escapes at the same places -/

/-- The escapes of the two bodies stand at the same places. -/
def Code.Aligned (body body' : List α) : Prop :=
  List.Forall₂ (fun raw raw' => raw = code.esc ↔ raw' = code.esc) body body'

/-- **Bodies with aligned escapes differ only where what they carry differs.** -/
theorem eq_of_run_unescape_eq {body body' : List α} (aligned : code.Aligned body body') :
    ∀ pending, (run code.unescape pending body).2 = (run code.unescape pending body').2 →
      body = body' := by
  have mask_inj : ∀ {first second : α}, code.mask first = code.mask second → first = second := by
    intro first second same
    rw [← code.mask_mask first, same, code.mask_mask]
  induction aligned with
  | nil => exact fun _ _ => rfl
  | @cons raw raw' rest rest' head _ ih =>
    intro pending same
    rw [run_cons, run_cons] at same
    by_cases escape : raw = code.esc
    · have escape' := head.mp escape
      simp only [Code.unescape, escape, escape', if_true, List.nil_append] at same
      rw [escape, escape', ih _ same]
    · have escape' : ¬ raw' = code.esc := fun other => escape (head.mpr other)
      simp only [Code.unescape, escape, escape', if_false, List.cons_append, List.nil_append,
        List.cons.injEq] at same
      have heads : raw = raw' := by
        cases pending with
        | false => exact same.1
        | true => exact mask_inj same.1
      rw [heads, ih _ same.2]

/-- **The differences of what is carried are a sublist of the differences on the line**, for any
difference that masking both sides leaves alone. -/
theorem sublist_zipWith_octets {β : Type*} (difference : α → α → β)
    (masked : ∀ first second,
      difference (code.mask first) (code.mask second) = difference first second)
    {body body' : List α} (aligned : code.Aligned body body') :
    ∀ pending,
      (List.zipWith difference (run code.unescape pending body).2
        (run code.unescape pending body').2).Sublist (List.zipWith difference body body') := by
  induction aligned with
  | nil => exact fun _ => List.Sublist.refl _
  | @cons raw raw' rest rest' head _ ih =>
    intro pending
    rw [run_cons, run_cons, List.zipWith_cons_cons]
    by_cases escape : raw = code.esc
    · have escape' := head.mp escape
      simp only [Code.unescape, escape, escape', if_true, List.nil_append]
      exact (ih true).cons _
    · have escape' : ¬ raw' = code.esc := fun other => escape (head.mpr other)
      simp only [Code.unescape, escape, escape', if_false, List.cons_append, List.nil_append,
        List.zipWith_cons_cons]
      have same : difference (if pending then code.mask raw else raw)
          (if pending then code.mask raw' else raw') = difference raw raw' := by
        cases pending with
        | false => rfl
        | true => exact masked raw raw'
      rw [same]
      exact (ih false).cons_cons _

/-- Escapes at the same places weigh nothing, so the differences of what two raw bodies carry weigh as much
as the differences on the line. -/
theorem sum_zipWith_octets {β : Type*} (difference : α → α → β)
    (masked : ∀ first second,
      difference (code.mask first) (code.mask second) = difference first second)
    (weight : β → Nat) (nothing : weight (difference code.esc code.esc) = 0)
    {body body' : List α} (aligned : code.Aligned body body') :
    ∀ pending,
      ((List.zipWith difference (run code.unescape pending body).2
        (run code.unescape pending body').2).map weight).sum =
      ((List.zipWith difference body body').map weight).sum := by
  induction aligned with
  | nil => exact fun _ => rfl
  | @cons raw raw' rest rest' head _ ih =>
    intro pending
    rw [run_cons, run_cons, List.zipWith_cons_cons, List.map_cons, List.sum_cons]
    by_cases escape : raw = code.esc
    · have escape' := head.mp escape
      simp only [Code.unescape, escape, escape', if_true, List.nil_append]
      rw [ih true, nothing, Nat.zero_add]
    · have escape' : ¬ raw' = code.esc := fun other => escape (head.mpr other)
      simp only [Code.unescape, escape, escape', if_false, List.cons_append, List.nil_append,
        List.zipWith_cons_cons, List.map_cons, List.sum_cons]
      have same : difference (if pending then code.mask raw else raw)
          (if pending then code.mask raw' else raw') = difference raw raw' := by
        cases pending with
        | false => rfl
        | true => exact masked raw raw'
      rw [same, ih false]

theorem length_run_unescape_eq {body body' : List α} (aligned : code.Aligned body body') :
    ∀ pending, (run code.unescape pending body).2.length =
      (run code.unescape pending body').2.length := by
  induction aligned with
  | nil => exact fun _ => rfl
  | @cons raw raw' rest rest' head _ ih =>
    intro pending
    by_cases escape : raw = code.esc
    · simp [run_cons, Code.unescape, escape, head.mp escape, ih]
    · have escape' : ¬ raw' = code.esc := fun other => escape (head.mpr other)
      simp [run_cons, Code.unescape, escape, escape', ih]

end Stuffing

/-! ### Up to a symbol -/

/-- What precedes the first occurrence of a symbol. -/
theorem takeWhile_ne_append {α : Type*} [DecidableEq α] {symbol : α} {word : List α}
    (absent : symbol ∉ word) (rest : List α) :
    (word ++ rest).takeWhile (· ≠ symbol) = word ++ rest.takeWhile (· ≠ symbol) := by
  refine List.takeWhile_append_of_pos fun other member => ?_
  rw [decide_eq_true_eq]
  rintro rfl
  exact absent member

theorem takeWhile_ne_cons {α : Type*} [DecidableEq α] (symbol : α) (rest : List α) :
    (symbol :: rest).takeWhile (· ≠ symbol) = [] :=
  List.takeWhile_cons_of_neg (by simp)

/-! ### Frames between flags -/

/-- Where a receiver stands in a stream of frames: so many symbols into the stream and no flag yet,
or behind the flag at a position, with the raw body received since. -/
inductive Phase (α : Type*)
  | hunting (skipped : Nat)
  | inFrame (start : Nat) (body : List α)
  deriving DecidableEq

section Frames

variable {α : Type*} [DecidableEq α] (flag : α)

/-- One symbol. A flag after a nonempty body completes it, and positions start again with this
flag as the opening one of the next frame; a flag after a flag is silently discarded. -/
def Phase.step : Phase α → α → Phase α × List (List α)
  | .hunting skipped, symbol =>
    if symbol = flag then (.inFrame skipped [], []) else (.hunting (skipped + 1), [])
  | .inFrame start body, symbol =>
    if symbol = flag then
      if body = [] then (.inFrame start [], []) else (.inFrame 0 [], [body])
    else (.inFrame start (body ++ [symbol]), [])

/-- The raw body received so far. -/
def Phase.body : Phase α → List α
  | .hunting _ => []
  | .inFrame _ body => body

@[simp] theorem step_hunting_flag (skipped : Nat) :
    Phase.step flag (.hunting skipped) flag = (.inFrame skipped [], []) := if_pos rfl

@[simp] theorem step_opening_flag (start : Nat) :
    Phase.step flag (.inFrame start []) flag = (.inFrame start [], []) := by
  simp [Phase.step]

variable {flag}

theorem step_hunting {symbol : α} (other : symbol ≠ flag) (skipped : Nat) :
    Phase.step flag (.hunting skipped) symbol = (.hunting (skipped + 1), []) := if_neg other

theorem step_inFrame {symbol : α} (other : symbol ≠ flag) (start : Nat) (body : List α) :
    Phase.step flag (.inFrame start body) symbol = (.inFrame start (body ++ [symbol]), []) :=
  if_neg other

theorem step_closing_flag {body : List α} (some : body ≠ []) (start : Nat) :
    Phase.step flag (.inFrame start body) flag = (.inFrame 0 [], [body]) := by
  simp [Phase.step, some]

theorem run_hunting {noise : List α} (quiet : flag ∉ noise) (skipped : Nat) :
    run (Phase.step flag) (.hunting skipped) noise = (.hunting (skipped + noise.length), []) := by
  induction noise generalizing skipped with
  | nil => rfl
  | cons symbol rest ih =>
    rw [List.mem_cons, not_or] at quiet
    rw [run_cons, step_hunting (Ne.symm quiet.1), ih quiet.2, List.length_cons,
      Nat.add_right_comm, Nat.add_assoc]
    rfl

theorem run_inFrame {part : List α} (quiet : flag ∉ part) (start : Nat) (body : List α) :
    run (Phase.step flag) (.inFrame start body) part = (.inFrame start (body ++ part), []) := by
  induction part generalizing body with
  | nil => simp
  | cons symbol rest ih =>
    rw [List.mem_cons, not_or] at quiet
    rw [run_cons, step_inFrame (Ne.symm quiet.1), ih quiet.2]
    simp

variable (flag)

theorem run_flags (start count : Nat) :
    run (Phase.step flag) (.inFrame start []) (List.replicate count flag) =
      (.inFrame start [], []) := by
  induction count with
  | zero => rfl
  | succ count ih => rw [List.replicate_succ, run_cons, step_opening_flag, ih, List.nil_append]

/-- Behind any flag the receiver is in a frame with nothing received yet. -/
theorem step_flag (phase : Phase α) : ∃ start, (Phase.step flag phase flag).1 = .inFrame start [] := by
  cases phase with
  | hunting skipped => exact ⟨skipped, by rw [step_hunting_flag]⟩
  | inFrame start body =>
    by_cases empty : body = []
    · exact ⟨start, by rw [empty, step_opening_flag]⟩
    · exact ⟨0, by rw [step_closing_flag empty]⟩

variable {flag}

/-- **One frame**: a nonempty body without flags, up to its closing flag. -/
theorem run_frame {body : List α} (some : body ≠ []) (quiet : flag ∉ body) (start : Nat) :
    run (Phase.step flag) (.inFrame start []) (body ++ [flag]) = (.inFrame 0 [], [body]) := by
  rw [run_append, run_inFrame quiet, run_singleton, List.nil_append, step_closing_flag some]
  rfl

/-- A frame between its two flags, from the start. -/
theorem run_flag_frame {body : List α} (some : body ≠ []) (quiet : flag ∉ body) :
    run (Phase.step flag) (.hunting 0) (flag :: body ++ [flag]) = (.inFrame 0 [], [body]) := by
  rw [List.cons_append, run_cons, step_hunting_flag, run_frame some quiet, List.nil_append]

variable (flag)

/-- The raw bytes that a word adds to the first frame it completes or leaves unfinished. -/
def Phase.part : Phase α → List α → List α
  | _, [] => []
  | .hunting skipped, symbol :: rest =>
    if symbol = flag then Phase.part (.inFrame skipped []) rest
    else Phase.part (.hunting (skipped + 1)) rest
  | .inFrame start body, symbol :: rest =>
    if symbol = flag then
      if body = [] then Phase.part (.inFrame start []) rest else []
    else symbol :: Phase.part (.inFrame start (body ++ [symbol])) rest

@[simp] theorem part_nil (phase : Phase α) : Phase.part flag phase [] = [] := by
  cases phase <;> rfl

@[simp] theorem part_hunting_flag (skipped : Nat) (rest : List α) :
    Phase.part flag (.hunting skipped) (flag :: rest) = Phase.part flag (.inFrame skipped []) rest :=
  if_pos rfl

@[simp] theorem part_opening_flag (start : Nat) (rest : List α) :
    Phase.part flag (.inFrame start []) (flag :: rest) = Phase.part flag (.inFrame start []) rest := by
  simp [Phase.part]

variable {flag}

theorem part_hunting {symbol : α} (other : symbol ≠ flag) (skipped : Nat) (rest : List α) :
    Phase.part flag (.hunting skipped) (symbol :: rest) =
      Phase.part flag (.hunting (skipped + 1)) rest := if_neg other

theorem part_closing_flag {body : List α} (some : body ≠ []) (start : Nat) (rest : List α) :
    Phase.part flag (.inFrame start body) (flag :: rest) = [] := by
  simp [Phase.part, some]

theorem part_inFrame {symbol : α} (other : symbol ≠ flag) (start : Nat) (body rest : List α) :
    Phase.part flag (.inFrame start body) (symbol :: rest) =
      symbol :: Phase.part flag (.inFrame start (body ++ [symbol])) rest := if_neg other

/-- A word that completes nothing adds its part to the frame in progress. -/
theorem body_run_quiet (word : List α) (phase : Phase α)
    (quiet : (run (Phase.step flag) phase word).2 = []) :
    (run (Phase.step flag) phase word).1.body = phase.body ++ Phase.part flag phase word := by
  induction word generalizing phase with
  | nil => rw [part_nil, List.append_nil]; rfl
  | cons symbol rest ih =>
    rw [run_cons] at quiet ⊢
    obtain ⟨now, later⟩ := List.append_eq_nil_iff.mp quiet
    have reached := ih _ later
    by_cases isFlag : symbol = flag
    · subst isFlag
      cases phase with
      | hunting skipped =>
        rw [step_hunting_flag] at reached ⊢
        rw [reached, part_hunting_flag]
        rfl
      | inFrame start body =>
        by_cases empty : body = []
        · subst empty
          rw [step_opening_flag] at reached ⊢
          rw [reached, part_opening_flag]
        · rw [step_closing_flag empty] at now
          cases now
    · cases phase with
      | hunting skipped =>
        rw [step_hunting isFlag] at reached ⊢
        rw [reached, part_hunting isFlag]
        rfl
      | inFrame start body =>
        rw [step_inFrame isFlag] at reached ⊢
        rw [reached, part_inFrame isFlag, Phase.body, Phase.body, List.append_assoc,
          List.singleton_append]

/-- **A word that completes nothing**: it holds no flag, or it is noise, flags, and the body of the
frame in progress. -/
theorem run_quiet_split (word : List α) (quiet : (run (Phase.step flag) (.hunting 0) word).2 = []) :
    (flag ∉ word ∧ (run (Phase.step flag) (.hunting 0) word).1 = .hunting word.length) ∨
      ∃ noise flags body, word = noise ++ List.replicate (flags + 1) flag ++ body ∧
        flag ∉ noise ∧ flag ∉ body ∧
        (run (Phase.step flag) (.hunting 0) word).1 = .inFrame noise.length body := by
  induction word using List.reverseRecOn with
  | nil => exact Or.inl ⟨List.not_mem_nil, rfl⟩
  | append_singleton word symbol ih =>
    rw [run_append, run_singleton] at quiet ⊢
    obtain ⟨before, now⟩ := List.append_eq_nil_iff.mp quiet
    rcases ih before with ⟨free, reached⟩ | ⟨noise, flags, body, split, free, received, reached⟩
    · rw [reached]
      by_cases isFlag : symbol = flag
      · subst isFlag
        rw [step_hunting_flag]
        exact Or.inr ⟨word, 0, [], by simp, free, List.not_mem_nil, rfl⟩
      · rw [step_hunting isFlag, List.length_append, List.length_singleton]
        refine Or.inl ⟨?_, rfl⟩
        rw [List.mem_append, List.mem_singleton, not_or]
        exact ⟨free, Ne.symm isFlag⟩
    · rw [reached] at now ⊢
      right
      by_cases isFlag : symbol = flag
      · subst isFlag
        by_cases empty : body = []
        · subst empty
          rw [step_opening_flag]
          refine ⟨noise, flags + 1, [], ?_, free, List.not_mem_nil, rfl⟩
          rw [split, List.append_nil, List.append_nil, List.append_assoc, ← List.replicate_succ']
        · rw [step_closing_flag empty] at now
          cases now
      · rw [step_inFrame isFlag]
        refine ⟨noise, flags, body ++ [symbol], by rw [split, List.append_assoc], free, ?_, rfl⟩
        rw [List.mem_append, List.mem_singleton, not_or]
        exact ⟨received, Ne.symm isFlag⟩

/-! ### What a position is about -/

/-- The raw body of the frame in progress, and none before a start flag. -/
def Phase.inProgress : Phase α → Option (List α)
  | .hunting _ => none
  | .inFrame _ body => some body

omit [DecidableEq α] in
theorem body_eq_inProgress (phase : Phase α) : phase.body = phase.inProgress.getD [] := by
  cases phase <;> rfl

variable (flag)

/-- How many symbols came before is forgotten at every step. -/
theorem step_inProgress {phase phase' : Phase α} (same : phase.inProgress = phase'.inProgress)
    (symbol : α) :
    (Phase.step flag phase symbol).1.inProgress = (Phase.step flag phase' symbol).1.inProgress ∧
      (Phase.step flag phase symbol).2 = (Phase.step flag phase' symbol).2 := by
  by_cases isFlag : symbol = flag
  · subst isFlag
    match phase, phase', same with
    | .hunting skipped, .hunting skipped', _ =>
      rw [step_hunting_flag, step_hunting_flag]
      exact ⟨rfl, rfl⟩
    | .inFrame start body, .inFrame start' _, rfl =>
      by_cases empty : body = []
      · rw [empty, step_opening_flag, step_opening_flag]
        exact ⟨rfl, rfl⟩
      · rw [step_closing_flag empty, step_closing_flag empty]
        exact ⟨rfl, rfl⟩
  · match phase, phase', same with
    | .hunting skipped, .hunting skipped', _ =>
      rw [step_hunting isFlag, step_hunting isFlag]
      exact ⟨rfl, rfl⟩
    | .inFrame start body, .inFrame start' _, rfl =>
      rw [step_inFrame isFlag, step_inFrame isFlag]
      exact ⟨rfl, rfl⟩

variable {flag}

/-- **Only the frame in progress matters** for what a word completes. -/
theorem run_inProgress (word : List α) {phase phase' : Phase α}
    (same : phase.inProgress = phase'.inProgress) :
    (run (Phase.step flag) phase word).2 = (run (Phase.step flag) phase' word).2 := by
  induction word generalizing phase phase' with
  | nil => rfl
  | cons symbol rest ih =>
    obtain ⟨next, outputs⟩ := step_inProgress flag same symbol
    rw [run_cons, run_cons, outputs, ih next]

end Frames

end HdlcMarquee.Generic
