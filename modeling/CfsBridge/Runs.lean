import CfsBridge.RingBuffer
import Mathlib.Tactic

/-!
# Runs of a component

A run folds a step function over a list of operations. Each law here is stated
for one view of the state and proved once by induction on the run: a view that
logs into a ring buffer, a view that remembers the latest write, and a view
that only some operations touch.
-/
namespace CfsBridge.Runs

variable {σ ι α β : Type*}

/-- The operations after the last one that clears. -/
def sinceLast (clears : ι → Bool) (ops : List ι) : List ι := ops.rtakeWhile fun op => !clears op

@[simp] theorem sinceLast_nil (clears : ι → Bool) : sinceLast clears [] = [] := rfl

theorem sinceLast_concat (clears : ι → Bool) (ops : List ι) (op : ι) :
    sinceLast clears (ops ++ [op]) = if clears op then [] else sinceLast clears ops ++ [op] := by
  by_cases h : clears op
  · simp [sinceLast, h]
  · simp [sinceLast, h]

theorem sinceLast_of_forall {clears : ι → Bool} {ops : List ι}
    (h : ∀ op ∈ ops, clears op = false) : sinceLast clears ops = ops := by
  rw [sinceLast, List.rtakeWhile_eq_self_iff]
  intro op hop
  simp [h op hop]

/-- One ring buffer of the state: some operations clear it, the others append at most one entry. -/
structure Logs (step : σ → ι → σ) (view : σ → RingBuffer α) (clears : ι → Bool)
    (emit : ι → Option α) : Prop where
  clear_step : ∀ s op, clears op = true → view (step s op) = (view s).clear
  emit_step : ∀ s op, clears op = false →
    view (step s op) = (emit op).elim (view s) (view s).append

section Logs
variable {step : σ → ι → σ} {view : σ → RingBuffer α} {clears : ι → Bool} {emit : ι → Option α}

theorem Logs.maxlen_step (h : Logs step view clears emit) (s : σ) (op : ι) :
    (view (step s op)).maxlen = (view s).maxlen := by
  cases hc : clears op with
  | true => rw [h.clear_step s op hc, RingBuffer.clear_maxlen]
  | false =>
    rw [h.emit_step s op hc]
    cases emit op <;> rfl

/-- After a run from an empty buffer, it holds the last entries emitted since the last clear. -/
theorem Logs.run (h : Logs step view clears emit) (s : σ) (hs : (view s).items = [])
    (ops : List ι) :
    (view (ops.foldl step s)).maxlen = (view s).maxlen ∧
      (view (ops.foldl step s)).items =
        ((sinceLast clears ops).filterMap emit).rtake (view s).maxlen := by
  induction ops using List.reverseRecOn with
  | nil => simp [hs, List.rtake]
  | append_singleton ops op ih =>
    obtain ⟨hm, hi⟩ := ih
    rw [List.foldl_append, List.foldl_cons, List.foldl_nil, sinceLast_concat]
    refine ⟨(h.maxlen_step _ op).trans hm, ?_⟩
    cases hc : clears op with
    | true => simp [h.clear_step _ op hc, List.rtake]
    | false =>
      rw [h.emit_step _ op hc]
      cases he : emit op with
      | none => simp [he, hi]
      | some x =>
        rw [Option.elim_some, RingBuffer.append_items, hm, hi, RingBuffer.rtake_rtake_append]
        simp [he]

end Logs

/-- One optional field of the state: an operation with an effect overwrites it, the others keep it. -/
def Latest (step : σ → ι → σ) (view : σ → Option α) (effect : ι → Option α) : Prop :=
  ∀ s op, view (step s op) = (effect op).or (view s)

/-- After a run the field holds the latest effect, or what it held before the run. -/
theorem Latest.run {step : σ → ι → σ} {view : σ → Option α} {effect : ι → Option α}
    (h : Latest step view effect) (s : σ) (ops : List ι) :
    view (ops.foldl step s) = ((ops.filterMap effect).getLast?).or (view s) := by
  induction ops using List.reverseRecOn with
  | nil => rfl
  | append_singleton ops op ih =>
    rw [List.foldl_append, List.foldl_cons, List.foldl_nil, h, ih, List.filterMap_append]
    cases he : effect op <;> simp [he]

/-- A view that the irrelevant operations leave alone, and on which the effect
of a relevant one depends through the view only. -/
structure Isolated (step : σ → ι → σ) (view : σ → β) (relevant : ι → Bool) : Prop where
  skip : ∀ s op, relevant op = false → view (step s op) = view s
  congr : ∀ s t op, relevant op = true → view s = view t → view (step s op) = view (step t op)

section Isolated
variable {step : σ → ι → σ} {view : σ → β} {relevant : ι → Bool}

/-- The view after a run is the view after its relevant operations alone. -/
theorem Isolated.run_filter (h : Isolated step view relevant) (ops : List ι) {s t : σ}
    (hst : view s = view t) :
    view (ops.foldl step s) = view ((ops.filter relevant).foldl step t) := by
  induction ops generalizing s t with
  | nil => exact hst
  | cons op ops ih =>
    rw [List.foldl_cons]
    cases hr : relevant op with
    | true =>
      rw [List.filter_cons_of_pos hr, List.foldl_cons]
      exact ih (h.congr s t op hr hst)
    | false =>
      rw [List.filter_cons_of_neg (by simp [hr])]
      exact ih ((h.skip s op hr).trans hst)

/-- Two runs with the same relevant operations end with the same view. -/
theorem Isolated.run_congr (h : Isolated step view relevant) {ops ops' : List ι} {s t : σ}
    (hst : view s = view t) (hops : ops.filter relevant = ops'.filter relevant) :
    view (ops.foldl step s) = view (ops'.foldl step t) := by
  rw [h.run_filter ops hst, hops, ← h.run_filter ops' rfl]

end Isolated

/-- A ring buffer is isolated from every operation that neither clears nor emits. -/
theorem Logs.isolated {step : σ → ι → σ} {view : σ → RingBuffer α} {clears : ι → Bool}
    {emit : ι → Option α} (h : Logs step view clears emit) :
    Isolated step view fun op => clears op || (emit op).isSome where
  skip s op hr := by
    obtain ⟨hc, he⟩ := Bool.or_eq_false_iff.mp hr
    rw [h.emit_step s op hc, Option.isSome_eq_false_iff.mp he |> Option.isNone_iff_eq_none.mp]
    rfl
  congr s t op _ hst := by
    cases hc : clears op with
    | true => rw [h.clear_step s op hc, h.clear_step t op hc, hst]
    | false => rw [h.emit_step s op hc, h.emit_step t op hc, hst]

end CfsBridge.Runs
