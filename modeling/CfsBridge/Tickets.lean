import CfsBridge.Transitions
import Mathlib.Data.List.Sort

/-!
# Numbered tickets through two gates

Clients of one counter take a ticket, pass a gate and are logged, each in three
separate steps. Tickets pass the gate and reach the log in order in every state
of a run whose steps are taken in turn: no client passes, or is logged, while
another one at the same place holds a smaller ticket. A run that ends with all
clients idle is in order only if its steps were taken so.
-/
namespace CfsBridge.Tickets
open Transitions

inductive Stage
  | idle
  | holding (ticket : ℕ)
  | passed (ticket : ℕ)
  deriving DecidableEq, Repr

structure State (σ : Type*) where
  next : ℕ
  left : List ℕ
  logged : List ℕ
  stage : σ → Stage

inductive Event (σ : Type*)
  | take (client : σ)
  | pass (client : σ)
  | log (client : σ)

variable {σ : Type*}

namespace State

def init : State σ where
  next := 0
  left := []
  logged := []
  stage := fun _ => .idle

/-- The tickets left in increasing order and were logged in the order they left. -/
def InOrder (x : State σ) : Prop := x.left.Pairwise (· < ·) ∧ x.logged.Sublist x.left

/-- No other client holds a smaller ticket at the place of this step. -/
def InTurn (x : State σ) : Event σ → Prop
  | .take _ => True
  | .pass c => ∀ n c' m, x.stage c = .holding n → x.stage c' = .holding m → n ≤ m
  | .log c => ∀ n c' m, x.stage c = .passed n → x.stage c' = .passed m → n ≤ m

def step [DecidableEq σ] (x : State σ) : Event σ → Option (State σ)
  | .take c =>
    match x.stage c with
    | .idle => some { x with
        next := x.next + 1
        stage := Function.update x.stage c (.holding x.next) }
    | _ => none
  | .pass c =>
    match x.stage c with
    | .holding n => some { x with
        left := x.left ++ [n]
        stage := Function.update x.stage c (.passed n) }
    | _ => none
  | .log c =>
    match x.stage c with
    | .passed n => some { x with
        logged := x.logged ++ [n]
        stage := Function.update x.stage c .idle }
    | _ => none

section Enabled
variable [DecidableEq σ] {x : State σ} {c : σ}

theorem step_take (hc : x.stage c = .idle) : x.step (.take c) = some { x with
    next := x.next + 1
    stage := Function.update x.stage c (.holding x.next) } := by simp only [step, hc]

theorem step_pass {n : ℕ} (hc : x.stage c = .holding n) : x.step (.pass c) = some { x with
    left := x.left ++ [n]
    stage := Function.update x.stage c (.passed n) } := by simp only [step, hc]

theorem step_log {n : ℕ} (hc : x.stage c = .passed n) : x.step (.log c) = some { x with
    logged := x.logged ++ [n]
    stage := Function.update x.stage c .idle } := by simp only [step, hc]

end Enabled

/-- What one step can do. -/
inductive Step [DecidableEq σ] (x : State σ) : Event σ → State σ → Prop
  | take {c : σ} : x.stage c = .idle → Step x (.take c) { x with
      next := x.next + 1
      stage := Function.update x.stage c (.holding x.next) }
  | pass {c : σ} {n : ℕ} : x.stage c = .holding n → Step x (.pass c) { x with
      left := x.left ++ [n]
      stage := Function.update x.stage c (.passed n) }
  | log {c : σ} {n : ℕ} : x.stage c = .passed n → Step x (.log c) { x with
      logged := x.logged ++ [n]
      stage := Function.update x.stage c .idle }

theorem step_cases [DecidableEq σ] {x y : State σ} {e : Event σ} (h : x.step e = some y) :
    Step x e y := by
  cases e with
  | take c =>
    cases hc : x.stage c with
    | idle =>
      rw [step_take hc] at h
      cases h
      exact .take hc
    | _ => simp [step, hc] at h
  | pass c =>
    cases hc : x.stage c with
    | holding n =>
      rw [step_pass hc] at h
      cases h
      exact .pass hc
    | _ => simp [step, hc] at h
  | log c =>
    cases hc : x.stage c with
    | passed n =>
      rw [step_log hc] at h
      cases h
      exact .log hc
    | _ => simp [step, hc] at h

/-- The tickets of a run so far, as long as every step was taken in turn. -/
structure Ordered (x : State σ) : Prop where
  holding_lt : ∀ c n, x.stage c = .holding n → n < x.next
  holding_inj : ∀ c c' n, x.stage c = .holding n → x.stage c' = .holding n → c = c'
  passed_inj : ∀ c c' n, x.stage c = .passed n → x.stage c' = .passed n → c = c'
  left_lt : ∀ m ∈ x.left, m < x.next
  left_lt_holding : ∀ m ∈ x.left, ∀ c n, x.stage c = .holding n → m < n
  passed_mem : ∀ c n, x.stage c = .passed n → n ∈ x.left
  logged_mem : ∀ m ∈ x.logged, m ∈ x.left
  logged_lt : ∀ m ∈ x.logged, ∀ c n, x.stage c = .passed n → m < n
  left_sorted : x.left.Pairwise (· < ·)
  logged_sorted : x.logged.Pairwise (· < ·)

theorem ordered_init : Ordered (init : State σ) := by
  constructor <;> simp [init]

theorem Ordered.inOrder {x : State σ} (h : x.Ordered) : x.InOrder := by
  refine ⟨h.left_sorted, List.sublist_of_subperm_of_pairwise ?_ h.logged_sorted h.left_sorted⟩
  have hnodup : x.logged.Nodup := h.logged_sorted.imp fun hlt => hlt.ne
  exact List.subperm_of_subset hnodup h.logged_mem

theorem pairwise_concat {l : List ℕ} {n : ℕ} :
    (l ++ [n]).Pairwise (· < ·) ↔ l.Pairwise (· < ·) ∧ ∀ m ∈ l, m < n := by
  simp [List.pairwise_append]

theorem Ordered.step [DecidableEq σ] {x y : State σ} {e : Event σ} (h : x.Ordered) (hturn : x.InTurn e)
    (hstep : x.step e = some y) : y.Ordered := by
  obtain ⟨hlt, hinj, pinj, llt, lhold, pmem, gmem, glt, lsort, gsort⟩ := h
  cases step_cases hstep with
  | @take c hc =>
    constructor
    all_goals grind [Function.update_apply]
  | @pass c n hc =>
    have hnew (m : ℕ) (hm : m ∈ x.left) : m < n := lhold m hm c n hc
    have hsort := pairwise_concat.mpr ⟨lsort, hnew⟩
    have hleast (a : σ) (k : ℕ) (hne : a ≠ c) (ha : x.stage a = .holding k) : n < k :=
      lt_of_le_of_ne (hturn n a k hc ha) fun heq => hne (hinj a c n (heq ▸ ha) hc)
    constructor
    all_goals grind [Function.update_apply]
  | @log c n hc =>
    have hleast (a : σ) (k : ℕ) (hne : a ≠ c) (ha : x.stage a = .passed k) : n < k :=
      lt_of_le_of_ne (hturn n a k hc ha) fun heq => hne (pinj a c n (heq ▸ ha) hc)
    have hsort := pairwise_concat.mpr ⟨gsort, fun m hm => glt m hm c n hc⟩
    constructor
    all_goals grind [Function.update_apply]

/-- Some ticket left, or was logged, before a smaller one. -/
def Overtaken (x : State σ) : Prop :=
  (∃ n ∈ x.left, ∃ c m, x.stage c = .holding m ∧ m < n) ∨
    (∃ n ∈ x.logged, ∃ c m, x.stage c = .passed m ∧ m < n) ∨
    ¬ (x.left.Pairwise (· < ·) ∧ x.logged.Pairwise (· < ·))

theorem Overtaken.not_inOrder {x : State σ} (h : x.Overtaken) (hidle : ∀ c, x.stage c = .idle) :
    ¬ x.InOrder := by
  rintro ⟨hleft, hlogged⟩
  rcases h with ⟨n, _, a, m, ha, _⟩ | ⟨n, _, a, m, ha, _⟩ | h
  · cases (hidle a).symm.trans ha
  · cases (hidle a).symm.trans ha
  · exact h ⟨hleft, hleft.sublist hlogged⟩

section Overtaken
variable [DecidableEq σ] {x y : State σ} {e : Event σ}

/-- Nothing makes up for it: the smaller ticket can only follow. -/
theorem Overtaken.step (h : x.Overtaken) (hstep : x.step e = some y) : y.Overtaken := by
  cases step_cases hstep with
  | @take c hc =>
    rcases h with ⟨n, hn, a, m, ha, hlt⟩ | ⟨n, hn, a, m, ha, hlt⟩ | h
    · exact .inl ⟨n, hn, a, m, by grind [Function.update_apply], hlt⟩
    · exact .inr (.inl ⟨n, hn, a, m, by grind [Function.update_apply], hlt⟩)
    · exact .inr (.inr h)
  | @pass c k hc =>
    rcases h with ⟨n, hn, a, m, ha, hlt⟩ | ⟨n, hn, a, m, ha, hlt⟩ | h
    · by_cases hac : a = c
      · -- the smaller ticket leaves now, behind `n`
        have hkm : k = m := by grind
        refine .inr (.inr fun hsorted => ?_)
        have hkn := (pairwise_concat.mp hsorted.1).2 n hn
        omega
      · refine .inl ⟨n, List.mem_append_left _ hn, a, m, ?_, hlt⟩
        exact (Function.update_of_ne hac ..).trans ha
    · exact .inr (.inl ⟨n, hn, a, m, by grind [Function.update_apply], hlt⟩)
    · exact .inr (.inr fun hsorted => h ⟨(pairwise_concat.mp hsorted.1).1, hsorted.2⟩)
  | @log c k hc =>
    rcases h with ⟨n, hn, a, m, ha, hlt⟩ | ⟨n, hn, a, m, ha, hlt⟩ | h
    · exact .inl ⟨n, hn, a, m, by grind [Function.update_apply], hlt⟩
    · by_cases hac : a = c
      · have hkm : k = m := by grind
        refine .inr (.inr fun hsorted => ?_)
        have hkn := (pairwise_concat.mp hsorted.2).2 n hn
        omega
      · refine .inr (.inl ⟨n, List.mem_append_left _ hn, a, m, ?_, hlt⟩)
        exact (Function.update_of_ne hac ..).trans ha
    · exact .inr (.inr fun hsorted => h ⟨hsorted.1, (pairwise_concat.mp hsorted.2).1⟩)

theorem overtaken_of_not_inTurn (hturn : ¬ x.InTurn e) (hstep : x.step e = some y) :
    y.Overtaken := by
  cases step_cases hstep with
  | take hc => exact absurd trivial hturn
  | @pass c n hc =>
    simp only [InTurn, not_forall, not_le] at hturn
    obtain ⟨k, a, m, hk, ha, hlt⟩ := hturn
    obtain rfl : n = k := by grind
    have hac : a ≠ c := by grind
    exact .inl ⟨n, by simp, a, m, (Function.update_of_ne hac ..).trans ha, hlt⟩
  | @log c n hc =>
    simp only [InTurn, not_forall, not_le] at hturn
    obtain ⟨k, a, m, hk, ha, hlt⟩ := hturn
    obtain rfl : n = k := by grind
    have hac : a ≠ c := by grind
    exact .inr (.inl ⟨n, by simp, a, m, (Function.update_of_ne hac ..).trans ha, hlt⟩)

end Overtaken

/-! ### Whole runs -/

section Runs
variable [DecidableEq σ] {es : List (Event σ)} {x : State σ}

/-- Steps in turn keep the tickets in order in every state. -/
theorem always_inOrder (h : Meets step init (fun _ x e => x.InTurn e) es) :
    Always step init (fun _ (x : State σ) => x.InOrder) es := by
  have hordered : Always step init (fun _ (x : State σ) => x.Ordered) es :=
    always_of_meets ordered_init (fun _ _ _ _ h hturn hstep => h.step hturn hstep) h
  exact fun pre y hpre hrun => (hordered pre y hpre hrun).inOrder

/-- A run that ends idle and in order took every step in turn. -/
theorem meets_of_inOrder (hrun : run step init es = some x) (hidle : ∀ c, x.stage c = .idle)
    (horder : x.InOrder) : Meets step init (fun _ x e => x.InTurn e) es := by
  rintro pre y e ⟨rest, rfl⟩ hpre
  by_contra hturn
  rw [run_append, run_append, hpre, Option.bind_some, Option.bind_eq_some_iff] at hrun
  obtain ⟨z, hz, hrest⟩ := hrun
  have hstep : y.step e = some z := by simpa [run] using hz
  have hover : x.Overtaken := run_invariant (fun _ x => x.Overtaken)
    (overtaken_of_not_inTurn hturn hstep) (fun _ _ _ _ h hs => h.step hs) hrest
  exact hover.not_inOrder hidle horder

/-- The counter tells how many tickets were taken. -/
theorem next_run (hrun : run step init es = some x) :
    x.next = es.countP fun e => match e with | .take _ => true | _ => false := by
  refine run_invariant (fun es (x : State σ) => x.next = es.countP _) rfl ?_ hrun
  intro pre y e z h hstep
  rw [List.countP_append, List.countP_singleton]
  cases step_cases hstep with
  | take hc => simp [h]
  | pass hc => simp [h]
  | log hc => simp [h]

end Runs
end State
end CfsBridge.Tickets
