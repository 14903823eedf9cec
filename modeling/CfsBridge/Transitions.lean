import Mathlib.Data.List.Infix
import Mathlib.Tactic

/-!
# Runs of a partial step

A system takes one event at a time; an event that is not enabled has no
successor. The order of events is the whole interleaving, so a law for every
list of events is a law for every schedule. Besides the induction over a run
there is one rule for exact conditions: when a property survives a step
exactly if the step meets a condition, it holds in every state of a run exactly
if every step of the run meets it.
-/
namespace CfsBridge.Transitions

variable {σ ι : Type*}

/-- The state after a list of events, `none` when one of them was not enabled. -/
def run (step : σ → ι → Option σ) : σ → List ι → Option σ
  | s, [] => some s
  | s, e :: es => (step s e).bind fun s' => run step s' es

section Run
variable {step : σ → ι → Option σ} {start s s' : σ} {es : List ι} {e : ι}

@[simp] theorem run_nil (step : σ → ι → Option σ) (s : σ) : run step s [] = some s := rfl

theorem run_append (step : σ → ι → Option σ) (start : σ) (es fs : List ι) :
    run step start (es ++ fs) = (run step start es).bind fun s => run step s fs := by
  induction es generalizing start with
  | nil => rfl
  | cons e es ih =>
    rw [List.cons_append, run, run, Option.bind_assoc]
    exact congrArg (step start e).bind (funext fun s => ih s)

/-- Expose the last event of a run. -/
theorem run_concat_eq_some : run step start (es ++ [e]) = some s' ↔
    ∃ s, run step start es = some s ∧ step s e = some s' := by
  rw [run_append, Option.bind_eq_some_iff]
  simp [run]

/-- A law of events and states holds after every run when each step keeps it. -/
theorem run_invariant (inv : List ι → σ → Prop) (h0 : inv [] start)
    (hstep : ∀ pre s e s', inv pre s → step s e = some s' → inv (pre ++ [e]) s')
    (hrun : run step start es = some s) : inv es s := by
  induction es using List.reverseRecOn generalizing s with
  | nil =>
    cases hrun
    exact h0
  | append_singleton es e ih =>
    obtain ⟨s', hes, he⟩ := run_concat_eq_some.mp hrun
    exact hstep es s' e s (ih hes) he

end Run

/-- `law` holds in every state that the events lead through. -/
def Always (step : σ → ι → Option σ) (start : σ) (law : List ι → σ → Prop) (es : List ι) : Prop :=
  ∀ pre s, pre <+: es → run step start pre = some s → law pre s

/-- Every event is taken in a state that meets `cond`. -/
def Meets (step : σ → ι → Option σ) (start : σ) (cond : List ι → σ → ι → Prop)
    (es : List ι) : Prop :=
  ∀ pre s e, pre ++ [e] <+: es → run step start pre = some s → cond pre s e

section Rules
variable {step : σ → ι → Option σ} {start s : σ} {es : List ι} {e : ι}
variable {law : List ι → σ → Prop} {cond : List ι → σ → ι → Prop}

theorem Always.last (h : Always step start law es) (hrun : run step start es = some s) :
    law es s := h es s (List.prefix_refl es) hrun

theorem always_nil : Always step start law [] ↔ law [] start := by
  constructor
  · intro h
    exact h.last rfl
  · intro h pre s hpre hrun
    obtain rfl := List.prefix_nil.mp hpre
    cases hrun
    exact h

theorem always_concat : Always step start law (es ++ [e]) ↔
    Always step start law es ∧ ∀ s, run step start (es ++ [e]) = some s → law (es ++ [e]) s := by
  constructor
  · intro h
    exact ⟨fun pre s hpre => h pre s (hpre.trans (List.prefix_append es [e])),
      fun s hrun => h.last hrun⟩
  · rintro ⟨h, hlast⟩ pre s hpre hrun
    rcases List.prefix_concat_iff.mp hpre with rfl | hpre
    · exact hlast s hrun
    · exact h pre s hpre hrun

theorem meets_nil : Meets step start cond [] := by
  intro pre s e hpre
  simp at hpre

/-- Step by step from the start, for a run given event by event. -/
theorem meets_cons : Meets step start cond (e :: es) ↔ cond [] start e ∧
    ∀ s, step start e = some s → Meets step s (fun pre s e' => cond (e :: pre) s e') es := by
  constructor
  · intro h
    refine ⟨h [] start e (List.cons_prefix_cons.mpr ⟨rfl, List.nil_prefix⟩) rfl, ?_⟩
    intro s hs pre s' e' hpre hrun
    exact h (e :: pre) s' e' (List.cons_prefix_cons.mpr ⟨rfl, hpre⟩) (by rw [run, hs]; exact hrun)
  · rintro ⟨hfirst, h⟩ pre s e' hpre hrun
    cases pre with
    | nil =>
      obtain ⟨rfl, _⟩ := List.cons_prefix_cons.mp hpre
      cases hrun
      exact hfirst
    | cons e₁ pre =>
      obtain ⟨rfl, htail⟩ := List.cons_prefix_cons.mp hpre
      obtain ⟨s₁, hs₁, hrest⟩ := Option.bind_eq_some_iff.mp hrun
      exact h s₁ hs₁ pre s e' htail hrest

/-- A condition that the events of a run meet in any state. -/
theorem meets_of_forall {cond : σ → ι → Prop} (h : ∀ e ∈ es, ∀ s, cond s e) :
    Meets step start (fun _ s e => cond s e) es := by
  intro pre s e hpre _
  exact h e (hpre.subset (by simp)) s

theorem meets_concat : Meets step start cond (es ++ [e]) ↔
    Meets step start cond es ∧ ∀ s, run step start es = some s → cond es s e := by
  constructor
  · intro h
    exact ⟨fun pre s e' hpre => h pre s e' (hpre.trans (List.prefix_append es [e])),
      fun s hrun => h es s e (List.prefix_refl _) hrun⟩
  · rintro ⟨h, hlast⟩ pre s e' hpre hrun
    rcases List.prefix_concat_iff.mp hpre with heq | hpre
    · obtain ⟨rfl, he⟩ := List.append_inj' heq rfl
      obtain rfl := List.singleton_inj.mp he
      exact hlast s hrun
    · exact h pre s e' hpre hrun

/-- A law that a step keeps exactly when it meets a condition holds throughout a
run exactly when every step meets it. `inv` collects what is known besides, as
long as the law has held. -/
theorem always_iff_meets (inv : List ι → σ → Prop) (hinv0 : inv [] start) (hlaw0 : law [] start)
    (hinv : ∀ pre s e s', inv pre s → law pre s → law (pre ++ [e]) s' → step s e = some s' →
      inv (pre ++ [e]) s')
    (hlaw : ∀ pre s e s', inv pre s → law pre s → step s e = some s' →
      (law (pre ++ [e]) s' ↔ cond pre s e))
    (hrun : run step start es = some s) :
    Always step start law es ↔ Meets step start cond es := by
  have hboth : (Always step start law es ↔ Meets step start cond es) ∧
      (Always step start law es → inv es s) := by
    induction es using List.reverseRecOn generalizing s with
    | nil =>
      cases hrun
      exact ⟨iff_of_true (always_nil.mpr hlaw0) meets_nil, fun _ => hinv0⟩
    | append_singleton es e ih =>
      obtain ⟨s', hes, he⟩ := run_concat_eq_some.mp hrun
      obtain ⟨hiff, hknown⟩ := ih hes
      rw [always_concat, meets_concat]
      simp only [hes, hrun, Option.some.injEq, forall_eq']
      constructor
      · constructor
        · rintro ⟨halways, hlast⟩
          have hprev := halways.last hes
          exact ⟨hiff.mp halways, (hlaw es s' e s (hknown halways) hprev he).mp hlast⟩
        · rintro ⟨hmeets, hlast⟩
          have halways := hiff.mpr hmeets
          exact ⟨halways, (hlaw es s' e s (hknown halways) (halways.last hes) he).mpr hlast⟩
      · rintro ⟨halways, hlast⟩
        exact hinv es s' e s (hknown halways) (halways.last hes) hlast he
  exact hboth.1

/-- A law that every step keeps when it meets a condition. -/
theorem always_of_meets (h0 : law [] start)
    (hstep : ∀ pre s e s', law pre s → cond pre s e → step s e = some s' → law (pre ++ [e]) s')
    (hmeets : Meets step start cond es) : Always step start law es := by
  induction es using List.reverseRecOn with
  | nil => exact always_nil.mpr h0
  | append_singleton es e ih =>
    obtain ⟨hes, hlast⟩ := meets_concat.mp hmeets
    refine always_concat.mpr ⟨ih hes, fun s hrun => ?_⟩
    obtain ⟨s', hrun', he⟩ := run_concat_eq_some.mp hrun
    exact hstep es s' e s ((ih hes).last hrun') (hlast s' hrun') he

end Rules

/-! ### Progress -/

section Simulation
variable {τ κ : Type*} {step : σ → ι → Option σ} {step' : τ → κ → Option τ} {start : σ} {start' : τ}
variable {f : ι → κ} {rel : σ → τ → Prop} {es : List ι}

/-- Every state on the way through `es` has its image, reached by the images of the events. -/
def Simulated (step : σ → ι → Option σ) (start : σ) (step' : τ → κ → Option τ) (start' : τ)
    (f : ι → κ) (rel : σ → τ → Prop) (es : List ι) : Prop :=
  ∀ pre s, pre <+: es → run step start pre = some s →
    ∃ t, run step' start' (pre.map f) = some t ∧ rel s t

/-- Steps that have images make a run with an image. -/
theorem simulated_of_step (h0 : rel start start')
    (hstep : ∀ pre s t e s', pre ++ [e] <+: es → run step' start' (pre.map f) = some t → rel s t →
      step s e = some s' → ∃ t', step' t (f e) = some t' ∧ rel s' t') :
    Simulated step start step' start' f rel es := by
  intro pre
  induction pre using List.reverseRecOn with
  | nil =>
    rintro s - ⟨⟩
    exact ⟨start', rfl, h0⟩
  | append_singleton pre e ih =>
    intro s' hpre hrun
    obtain ⟨s, hs, he⟩ := run_concat_eq_some.mp hrun
    obtain ⟨t, ht, hrel⟩ := ih s ((List.prefix_append pre [e]).trans hpre) hs
    obtain ⟨t', ht', hrel'⟩ := hstep pre s t e s' hpre ht hrel he
    refine ⟨t', ?_, hrel'⟩
    rw [List.map_append]
    exact run_concat_eq_some.mpr ⟨t, ht, ht'⟩

theorem Simulated.always (h : Simulated step start step' start' f rel es) {law : σ → Prop}
    {law' : τ → Prop} (hlaw : ∀ s t, rel s t → law' t → law s)
    (halways : Always step' start' (fun _ t => law' t) (es.map f)) :
    Always step start (fun _ s => law s) es := by
  intro pre s hpre hrun
  obtain ⟨t, ht, hrel⟩ := h pre s hpre hrun
  exact hlaw s t hrel (halways _ t (hpre.map f) ht)

theorem Simulated.meets (h : Simulated step start step' start' f rel es) {cond : σ → ι → Prop}
    {cond' : τ → κ → Prop} (hcond : ∀ s t e, rel s t → cond' t (f e) → cond s e)
    (hmeets : Meets step' start' (fun _ t e => cond' t e) (es.map f)) :
    Meets step start (fun _ s e => cond s e) es := by
  intro pre s e hpre hrun
  obtain ⟨t, ht, hrel⟩ := h pre s ((List.prefix_append pre [e]).trans hpre) hrun
  have hmap : pre.map f ++ [f e] <+: es.map f := by simpa using hpre.map f
  exact hcond s t e hrel (hmeets _ t (f e) hmap ht)

/-- The other way round, the run has to get to its end. -/
theorem Simulated.meets_image (h : Simulated step start step' start' f rel es) {s : σ}
    (hrun : run step start es = some s) {cond : σ → ι → Prop} {cond' : τ → κ → Prop}
    (hcond : ∀ s t e, rel s t → cond s e → cond' t (f e))
    (hmeets : Meets step start (fun _ s e => cond s e) es) :
    Meets step' start' (fun _ t e => cond' t e) (es.map f) := by
  intro pre' t e' hpre' hrun'
  obtain ⟨pre, hpre, heq⟩ := List.prefix_map_iff.mp hpre'
  obtain ⟨init, last, rfl, rfl, hlast⟩ := List.map_eq_append_iff.mp heq.symm
  obtain ⟨e, rfl, rfl⟩ := List.map_eq_singleton_iff.mp hlast
  obtain ⟨rest, rfl⟩ := hpre
  obtain ⟨x, hx, hrest⟩ : ∃ x, run step start (init ++ [e]) = some x ∧ _ := by
    rw [run_append] at hrun
    exact Option.bind_eq_some_iff.mp hrun
  obtain ⟨y, hy, _⟩ := run_concat_eq_some.mp hx
  obtain ⟨t', ht', hrel⟩ := h init y (List.append_assoc .. ▸ List.prefix_append _ _) hy
  obtain rfl : t = t' := Option.some.inj (hrun'.symm.trans ht')
  exact hcond y t e hrel (hmeets init y e (List.prefix_append _ _) hy)

end Simulation
end CfsBridge.Transitions
