import CfsBridge.Transitions
import Mathlib.Data.List.Flatten
import Mathlib.Data.List.Perm.Subperm

/-!
# Channels

A channel is the list of the messages in flight, oldest first, and a fault is
what a network does to it of its own accord. A discipline relates what arrives
to what was sent; which faults it tolerates says what a network has to promise.
When every step of a system moves its messages on, takes new ones in or has a
tolerated fault, the contents of the whole system stand in that relation to all
that was put in.
-/
namespace CfsBridge.Channels
open Transitions

variable {α β : Type}

/-! ### Faults -/

/-- A fault at one place of a channel. A swap exchanges the message there with the next one. -/
inductive Fault
  | drop (i : ℕ)
  | duplicate (i : ℕ)
  | swap (i : ℕ)
  deriving DecidableEq, Repr

namespace Fault

/-- The messages in flight after a fault. -/
def apply : Fault → List α → List α
  | .drop i, q => q.eraseIdx i
  | .duplicate i, q => q.take i ++ ((q.drop i).take 1 ++ q.drop i)
  | .swap i, q => q.take i ++ (((q.drop i).take 2).reverse ++ (q.drop i).drop 2)

theorem drop_sublist (i : ℕ) (q : List α) : ((Fault.drop i).apply q).Sublist q :=
  List.eraseIdx_sublist q i

theorem swap_perm (i : ℕ) (q : List α) : ((Fault.swap i).apply q).Perm q := by
  have hpair : (((q.drop i).take 2).reverse ++ (q.drop i).drop 2).Perm (q.drop i) := by
    refine ((List.reverse_perm _).append_right _).trans ?_
    rw [List.take_append_drop]
  have hall := hpair.append_left (q.take i)
  rwa [List.take_append_drop] at hall

/-- No fault makes up a message. -/
theorem apply_subset (fault : Fault) (q : List α) : fault.apply q ⊆ q := by
  cases fault with
  | drop i => exact (drop_sublist i q).subset
  | duplicate i =>
    refine List.append_subset.mpr ⟨List.take_subset i q, List.append_subset.mpr ⟨?_, ?_⟩⟩
    · exact List.Subset.trans (List.take_subset 1 _) (List.drop_subset i q)
    · exact List.drop_subset i q
  | swap i => exact (swap_perm i q).subset

end Fault

/-! ### Disciplines -/

/-- A relation between what arrives and what was sent, for messages of any kind.
It is kept when messages are queued up, when they are replaced by what they
stand for, and nothing arrives that was not sent. -/
structure Discipline where
  Rel : ∀ {α : Type}, List α → List α → Prop
  refl : ∀ {α : Type} (xs : List α), Rel xs xs
  trans : ∀ {α : Type} {xs ys zs : List α}, Rel xs ys → Rel ys zs → Rel xs zs
  append : ∀ {α : Type} {xs xs' ys ys' : List α}, Rel xs xs' → Rel ys ys' →
    Rel (xs ++ ys) (xs' ++ ys')
  flatMap : ∀ {α β : Type} {xs ys : List α} (f : α → List β), Rel xs ys →
    Rel (xs.flatMap f) (ys.flatMap f)
  subset : ∀ {α : Type} {xs ys : List α}, Rel xs ys → xs ⊆ ys

namespace Discipline

/-- Everything arrives, once and in order. -/
def fifo : Discipline where
  Rel xs ys := xs = ys
  refl _ := rfl
  trans h h' := h.trans h'
  append h h' := by rw [h, h']
  flatMap _ h := by rw [h]
  subset h := h ▸ List.Subset.refl _

/-- Messages may be lost. -/
def lossy : Discipline where
  Rel xs ys := xs.Sublist ys
  refl xs := List.Sublist.refl xs
  trans h h' := h.trans h'
  append h h' := h.append h'
  flatMap f h := h.flatMap f
  subset h := h.subset

/-- Messages may overtake one another. -/
def unordered : Discipline where
  Rel xs ys := xs.Perm ys
  refl xs := List.Perm.refl xs
  trans h h' := h.trans h'
  append h h' := h.append h'
  flatMap f h := h.flatMap_right f
  subset h := h.subset

/-- Messages may be lost and may overtake one another. -/
def lossyUnordered : Discipline where
  Rel xs ys := xs.Subperm ys
  refl xs := List.Subperm.refl xs
  trans h h' := h.trans h'
  append h h' := h.append h'
  flatMap f h := by
    obtain ⟨zs, hperm, hsub⟩ := h
    exact ⟨_, hperm.flatMap_right f, hsub.flatMap f⟩
  subset h := h.subset

/-- Messages may also arrive more than once. -/
def arbitrary : Discipline where
  Rel xs ys := xs ⊆ ys
  refl xs := List.Subset.refl xs
  trans h h' := List.Subset.trans h h'
  append {_ xs xs' ys ys'} h h' := by
    intro x hx
    cases List.mem_append.mp hx with
    | inl hleft => exact List.mem_append_left ys' (h hleft)
    | inr hright => exact List.mem_append_right xs' (h' hright)
  flatMap f h := by
    intro x hx
    obtain ⟨y, hy, hxy⟩ := List.mem_flatMap.mp hx
    exact List.mem_flatMap.mpr ⟨y, h hy, hxy⟩
  subset h := h

/-- A fault that the discipline allows a channel to have. -/
def Tolerates (D : Discipline) (fault : Fault) : Prop :=
  ∀ {α : Type} (q : List α), D.Rel (fault.apply q) q

theorem lossy_tolerates_drop (i : ℕ) : lossy.Tolerates (.drop i) := fun q => Fault.drop_sublist i q

theorem lossyUnordered_tolerates_drop (i : ℕ) : lossyUnordered.Tolerates (.drop i) :=
  fun q => (Fault.drop_sublist i q).subperm

theorem lossyUnordered_tolerates_swap (i : ℕ) : lossyUnordered.Tolerates (.swap i) :=
  fun q => (Fault.swap_perm i q).subperm

theorem arbitrary_tolerates (fault : Fault) : arbitrary.Tolerates fault :=
  fun q => fault.apply_subset q

variable {D : Discipline}

theorem append_left (xs : List α) {ys ys' : List α} (h : D.Rel ys ys') :
    D.Rel (xs ++ ys) (xs ++ ys') := D.append (D.refl xs) h

theorem append_right {xs xs' : List α} (h : D.Rel xs xs') (ys : List α) :
    D.Rel (xs ++ ys) (xs' ++ ys) := D.append h (D.refl ys)

theorem of_eq {xs ys : List α} (h : xs = ys) : D.Rel xs ys := h ▸ D.refl xs

/-- What the messages of a faulty channel stand for. -/
theorem Tolerates.flatMap {fault : Fault} (h : D.Tolerates fault) (f : α → List β) (q : List α) :
    D.Rel ((fault.apply q).flatMap f) (q.flatMap f) := D.flatMap f (h q)

end Discipline

/-! ### Bounded queues -/

/-- A message that finds the queue full is lost. -/
def push (depth : ℕ) (q : List α) (m : α) : List α := if q.length < depth then q ++ [m] else q

theorem mem_of_mem_push {depth : ℕ} {q : List α} {m x : α} (h : x ∈ push depth q m) :
    x ∈ q ∨ x = m := by
  unfold push at h
  split_ifs at h
  · simpa using h
  · exact .inl h

/-- A full queue is a channel that drops its newest message. -/
theorem push_rel {D : Discipline} {depth : ℕ} {q : List α}
    (h : depth ≤ q.length → D.Tolerates (.drop q.length)) (m : α) :
    D.Rel (push depth q m) (q ++ [m]) := by
  unfold push
  split_ifs with hroom
  · exact D.refl _
  · have hdrop := h (not_lt.mp hroom) (q ++ [m])
    rwa [Fault.apply, List.eraseIdx_append_of_length_le (le_refl _), Nat.sub_self,
      List.eraseIdx_cons_zero, List.append_nil] at hdrop

/-! ### Conservation -/

section Conservation
variable {σ ι : Type} {step : σ → ι → Option σ} {start s : σ} {es : List ι}

/-- A step between two states keeps the contents, but for tolerated faults, and
puts what is new behind them. -/
def Conserves (D : Discipline) (content input : σ → List β) (s s' : σ) : Prop :=
  ∃ new, input s' = input s ++ new ∧ D.Rel (content s') (content s ++ new)

variable {D : Discipline} {content input : σ → List β}

theorem Conserves.of_rel {s s' : σ} (hinput : input s' = input s)
    (h : D.Rel (content s') (content s)) : Conserves D content input s s' :=
  ⟨[], by rw [hinput, List.append_nil], by rwa [List.append_nil]⟩

theorem Conserves.of_eq {s s' : σ} (hinput : input s' = input s)
    (h : content s' = content s) : Conserves D content input s s' :=
  .of_rel hinput (Discipline.of_eq h)

/-- A run of conserving steps conserves: the contents at its end are what the
discipline makes of everything that was put in. -/
theorem conserved_run (content input : σ → List β) (inv : σ → Prop) {cond : σ → ι → Prop}
    (hinv0 : inv start)
    (h0 : D.Rel (content start) (input start))
    (hinv : ∀ s e s', inv s → step s e = some s' → inv s')
    (hstep : ∀ s e s', inv s → cond s e → step s e = some s' → Conserves D content input s s')
    (hmeets : Meets step start (fun _ s e => cond s e) es) (hrun : run step start es = some s) :
    D.Rel (content s) (input s) := by
  have halways : Always step start (fun _ s => inv s ∧ D.Rel (content s) (input s)) es := by
    refine always_of_meets ⟨hinv0, h0⟩ ?_ hmeets
    rintro pre s e s' ⟨hs, hrel⟩ hcond he
    obtain ⟨new, hnew, hcontent⟩ := hstep s e s' hs hcond he
    refine ⟨hinv s e s' hs he, ?_⟩
    rw [hnew]
    exact D.trans hcontent (D.append hrel (D.refl new))
  exact (halways.last hrun).2

end Conservation
end CfsBridge.Channels
