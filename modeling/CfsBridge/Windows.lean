import Mathlib.Data.Finset.Insert
import Mathlib.Data.List.Nodup
import Mathlib.Tactic

/-!
# Windows of a list and first occurrences by key

A list is cut into consecutive windows of one size, and within a window only
the first entry of each key is kept. The windows tile the list, and keeping
first occurrences loses no key and repeats none.
-/
namespace CfsBridge.Windows

variable {α κ : Type*}

/-- Window `k` of the list, counted from zero. -/
def window (size k : ℕ) (xs : List α) : List α := (xs.drop (k * size)).take size

theorem flatMap_window_range (size n : ℕ) (xs : List α) :
    ((List.range n).flatMap fun k => window size k xs) = xs.take (n * size) := by
  induction n with
  | zero => simp
  | succ n ih =>
    have hlast : ([n].flatMap fun k => window size k xs) = window size n xs := by simp
    rw [List.range_succ, List.flatMap_append, ih, hlast, Nat.succ_mul, List.take_add]
    rfl

/-- Enough windows give the whole list back. -/
theorem flatMap_window {size n : ℕ} {xs : List α} (h : xs.length ≤ n * size) :
    ((List.range n).flatMap fun k => window size k xs) = xs := by
  rw [flatMap_window_range, List.take_of_length_le h]

theorem window_sublist (size k : ℕ) (xs : List α) : (window size k xs).Sublist xs :=
  (List.take_sublist _ _).trans (List.drop_sublist _ _)

theorem window_eq_nil {size k : ℕ} {xs : List α} (h : xs.length ≤ k * size) :
    window size k xs = [] := by
  rw [window, List.drop_eq_nil_of_le h, List.take_nil]

theorem window_ne_nil {size k : ℕ} {xs : List α} (hsize : 0 < size) (h : k * size < xs.length) :
    window size k xs ≠ [] := by
  apply List.ne_nil_of_length_pos
  rw [window, List.length_take, List.length_drop]
  omega

section Firsts
variable [DecidableEq κ] (key : α → κ)

/-- The entries whose key is not yet among the seen ones, each key once. -/
def firsts (seen : Finset κ) : List α → List α
  | [] => []
  | x :: xs => if key x ∈ seen then firsts seen xs else x :: firsts (insert (key x) seen) xs

theorem firsts_sublist (seen : Finset κ) (xs : List α) : (firsts key seen xs).Sublist xs := by
  induction xs generalizing seen with
  | nil => exact List.Sublist.slnil
  | cons x xs ih =>
    rw [firsts]
    split_ifs
    · exact (ih seen).cons x
    · exact (ih _).cons_cons x

/-- Nothing but the seen keys is lost. -/
theorem mem_map_firsts (seen : Finset κ) (xs : List α) (k : κ) :
    k ∈ (firsts key seen xs).map key ↔ k ∈ xs.map key ∧ k ∉ seen := by
  induction xs generalizing seen with
  | nil => simp [firsts]
  | cons x xs ih =>
    rw [firsts]
    split_ifs with hseen
    · rw [ih, List.map_cons, List.mem_cons]
      constructor
      · exact fun h => ⟨.inr h.1, h.2⟩
      · intro h
        exact ⟨h.1.resolve_left fun heq => h.2 (heq ▸ hseen), h.2⟩
    · rw [List.map_cons, List.mem_cons, ih, Finset.mem_insert, List.map_cons, List.mem_cons]
      constructor
      · intro h
        cases h with
        | inl heq => exact ⟨.inl heq, heq ▸ hseen⟩
        | inr h => exact ⟨.inr h.1, fun hk => h.2 (.inr hk)⟩
      · intro h
        by_cases heq : k = key x
        · exact .inl heq
        · exact .inr ⟨h.1.resolve_left heq, fun hk => hk.elim heq h.2⟩

theorem nodup_map_firsts (seen : Finset κ) (xs : List α) :
    ((firsts key seen xs).map key).Nodup := by
  induction xs generalizing seen with
  | nil => exact List.nodup_nil
  | cons x xs ih =>
    rw [firsts]
    split_ifs
    · exact ih seen
    · rw [List.map_cons, List.nodup_cons]
      constructor
      · intro hmem
        exact ((mem_map_firsts key _ xs _).mp hmem).2 (Finset.mem_insert_self _ _)
      · exact ih _

/-- A list whose keys are new and distinct is kept as it is. -/
theorem firsts_eq_self {seen : Finset κ} {xs : List α} (hnodup : (xs.map key).Nodup)
    (hnew : ∀ x ∈ xs, key x ∉ seen) : firsts key seen xs = xs := by
  induction xs generalizing seen with
  | nil => rfl
  | cons x xs ih =>
    rw [List.map_cons, List.nodup_cons] at hnodup
    rw [firsts, if_neg (hnew x List.mem_cons_self), ih hnodup.2]
    intro y hy
    rw [Finset.mem_insert]
    intro hkey
    cases hkey with
    | inl heq => exact hnodup.1 (heq ▸ List.mem_map_of_mem hy)
    | inr hseen => exact hnew y (List.mem_cons_of_mem x hy) hseen

theorem firsts_ne_nil {xs : List α} (h : xs ≠ []) : firsts key ∅ xs ≠ [] := by
  obtain ⟨x, hx⟩ := List.exists_mem_of_ne_nil xs h
  have hkey : key x ∈ (firsts key ∅ xs).map key :=
    (mem_map_firsts key ∅ xs _).mpr ⟨List.mem_map_of_mem hx, Finset.notMem_empty _⟩
  intro hnil
  rw [hnil] at hkey
  cases hkey

end Firsts

end CfsBridge.Windows
