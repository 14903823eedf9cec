import Mathlib.Data.List.DropRight
import Mathlib.Data.List.TakeWhile
import Mathlib.Tactic

/-!
# Segments and trimming

The part of a list from the first element that opens a segment up to the next
one that closes it, and a list without its outer blanks. Both are spans cut by
predicates, and both are known from the parts around them.
-/
namespace CfsBridge.Segments

variable {α : Type*}

/-- From the first element with `starts` up to the next one with `stops`. -/
def between (starts stops : α → Bool) (l : List α) : List α :=
  (l.dropWhile fun a => !starts a).takeWhile fun a => !stops a

/-- The list without the elements with `p` at its two ends. -/
def trim (p : α → Bool) (l : List α) : List α := (l.dropWhile p).rdropWhile p

section Segment
variable {starts stops : α → Bool}

/-- A segment is found between what does not start one and what stops it. -/
theorem between_append {before inside after : List α} (hbefore : ∀ a ∈ before, starts a = false)
    (hstart : inside.head?.any starts = true) (hinside : ∀ a ∈ inside, stops a = false)
    (hafter : ∀ a ∈ after.head?, stops a = true) :
    between starts stops (before ++ inside ++ after) = inside := by
  have hdrop : (before ++ inside ++ after).dropWhile (fun a => !starts a) = inside ++ after := by
    rw [List.append_assoc, List.dropWhile_append_of_pos (by simpa using hbefore)]
    cases inside with
    | nil => simp at hstart
    | cons a inside =>
      have ha : starts a = true := by simpa using hstart
      simp [ha]
  have hstop : after.takeWhile (fun a => !stops a) = [] := by
    cases after with
    | nil => rfl
    | cons a after => simp [hafter a (by simp)]
  rw [between, hdrop, List.takeWhile_append_of_pos (by simpa using hinside), hstop,
    List.append_nil]

/-- Where no element both starts and stops, only a list without a start has no segment. -/
theorem between_eq_nil_iff (hstop : ∀ a, starts a = true → stops a = false) (l : List α) :
    between starts stops l = [] ↔ ∀ a ∈ l, starts a = false := by
  induction l with
  | nil => simp [between]
  | cons a l ih =>
    cases ha : starts a with
    | false => simpa [between, ha] using ih
    | true => simp [between, ha, hstop a ha]

end Segment

section Trim
variable {p q : α → Bool} {l : List α}

theorem trim_eq_nil_iff : trim p l = [] ↔ ∀ a ∈ l, p a = true := by
  rw [trim, List.rdropWhile_eq_nil_iff]
  constructor
  · intro h
    rw [← List.dropWhile_eq_nil_iff]
    by_contra hne
    exact absurd (h _ (List.head_mem hne)) (by simpa using List.head_dropWhile_not p hne)
  · intro h a ha
    exact h a ((List.dropWhile_suffix _).subset ha)

theorem mem_of_mem_trim {a : α} (h : a ∈ trim p l) : a ∈ l :=
  (List.dropWhile_suffix _).subset ((List.rdropWhile_prefix p _).subset h)

/-- A list with no blank at either end is left as it is. -/
theorem trim_eq_self (hhead : ∀ a ∈ l.head?, p a = false) (hlast : ∀ a ∈ l.getLast?, p a = false) :
    trim p l = l := by
  have hdrop : l.dropWhile p = l := by
    cases l with
    | nil => rfl
    | cons a l => simp [hhead a (by simp)]
  rw [trim, hdrop, List.rdropWhile_eq_self_iff]
  intro hne
  simp [hlast _ (List.getLast?_eq_some_getLast hne)]

theorem dropWhile_congr_mem (h : ∀ a ∈ l, p a = q a) : l.dropWhile p = l.dropWhile q := by
  induction l with
  | nil => rfl
  | cons a l ih =>
    have htail := ih fun b hb => h b (List.mem_cons_of_mem a hb)
    rw [List.dropWhile_cons, List.dropWhile_cons, h a List.mem_cons_self, htail]

/-- Only the elements of the list decide what is trimmed. -/
theorem trim_congr (h : ∀ a ∈ l, p a = q a) : trim p l = trim q l := by
  have hdrop := dropWhile_congr_mem h
  have hrest : ∀ a ∈ (l.dropWhile q).reverse, p a = q a := fun a ha =>
    h a ((List.dropWhile_suffix _).subset (List.mem_reverse.mp ha))
  rw [trim, trim, hdrop, List.rdropWhile, List.rdropWhile, dropWhile_congr_mem hrest]

end Trim
end CfsBridge.Segments
