import Mathlib.Data.List.Sort
import Mathlib.Tactic

/-!
# Dictionaries in insertion order

A dictionary is the list of its items, oldest key first. Assigning to a key that
is there replaces its value in place, and a new key goes to the end. Built from
items in the order of their keys, a dictionary has each key once and in order.
-/
namespace CfsBridge.Dicts

variable {κ α : Type} [DecidableEq κ]

/-- `d[k] = v`. -/
def setItem (k : κ) (v : α) : List (κ × α) → List (κ × α)
  | [] => [(k, v)]
  | item :: d => if item.1 = k then (k, v) :: d else item :: setItem k v d

/-- A dictionary display or comprehension. -/
def ofItems (items : List (κ × α)) : List (κ × α) :=
  items.foldl (fun d item => setItem item.1 item.2 d) []

theorem keys_setItem (k : κ) (v : α) (d : List (κ × α)) :
    (setItem k v d).map Prod.fst =
      if k ∈ d.map Prod.fst then d.map Prod.fst else d.map Prod.fst ++ [k] := by
  induction d with
  | nil => rfl
  | cons item d ih =>
    rw [setItem]
    by_cases hkey : item.1 = k
    · rw [if_pos hkey]
      simp [hkey]
    · have hne : k ≠ item.1 := Ne.symm hkey
      rw [if_neg hkey, List.map_cons, ih]
      by_cases hmem : k ∈ d.map Prod.fst <;> simp [hmem, hne]

theorem mem_setItem {k : κ} {v : α} {d : List (κ × α)} {item : κ × α}
    (h : item ∈ setItem k v d) : item = (k, v) ∨ item ∈ d := by
  induction d with
  | nil => simpa [setItem] using h
  | cons first d ih =>
    rw [setItem] at h
    split_ifs at h with hkey
    · rcases List.mem_cons.mp h with hnew | hold
      · exact .inl hnew
      · exact .inr (List.mem_cons_of_mem _ hold)
    · rcases List.mem_cons.mp h with hfirst | hrest
      · exact .inr (hfirst ▸ List.mem_cons_self)
      · exact (ih hrest).imp_right (List.mem_cons_of_mem _)

theorem ofItems_concat (items : List (κ × α)) (item : κ × α) :
    ofItems (items ++ [item]) = setItem item.1 item.2 (ofItems items) := by
  rw [ofItems, List.foldl_append]
  rfl

/-- Whatever is in the dictionary was among the items. -/
theorem mem_of_mem_ofItems {items : List (κ × α)} {item : κ × α} (h : item ∈ ofItems items) :
    item ∈ items := by
  induction items using List.reverseRecOn with
  | nil => cases h
  | append_singleton items last ih =>
    rw [ofItems_concat] at h
    rcases mem_setItem h with hlast | hold
    · simp [hlast]
    · simp [ih hold]

theorem mem_keys_ofItems {items : List (κ × α)} {k : κ} :
    k ∈ (ofItems items).map Prod.fst ↔ k ∈ items.map Prod.fst := by
  induction items using List.reverseRecOn generalizing k with
  | nil => rfl
  | append_singleton items last ih =>
    rw [ofItems_concat, keys_setItem, List.map_append]
    by_cases hmem : last.1 ∈ (ofItems items).map Prod.fst
    · rw [if_pos hmem, List.mem_append, ih]
      constructor
      · exact .inl
      · rintro (h | h)
        · exact h
        · rw [List.mem_singleton.mp h]
          exact ih.mp hmem
    · rw [if_neg hmem, List.mem_append, List.mem_append, ih]
      rfl

/-- From items in the order of their keys the dictionary has each key once, in order. -/
theorem sorted_ofItems {κ : Type} [LinearOrder κ] {items : List (κ × α)}
    (h : (items.map Prod.fst).Pairwise (· ≤ ·)) :
    ((ofItems items).map Prod.fst).Pairwise (· < ·) := by
  induction items using List.reverseRecOn with
  | nil => exact List.Pairwise.nil
  | append_singleton items last ih =>
    rw [List.map_append, List.pairwise_append] at h
    obtain ⟨hsorted, _, hlast⟩ := h
    rw [ofItems_concat, keys_setItem]
    split_ifs with hmem
    · exact ih hsorted
    · rw [List.pairwise_append]
      refine ⟨ih hsorted, List.pairwise_singleton _ _, ?_⟩
      intro k hk k' hk'
      obtain rfl := List.mem_singleton.mp hk'
      have hle := hlast k (mem_keys_ofItems.mp hk) last.1 (by simp)
      have hne : k ≠ last.1 := by
        rintro rfl
        exact hmem hk
      exact lt_of_le_of_ne hle hne

end CfsBridge.Dicts
