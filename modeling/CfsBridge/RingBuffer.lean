import Mathlib.Data.List.DropRight
import Mathlib.Tactic

/-!
# Bounded ring buffers

A deque with a maximum length drops its oldest entry when a new one no longer
fits. After any sequence of appends it therefore holds the last `maxlen`
entries, in order; the structure carries its own length bound.
-/
namespace CfsBridge

/-- A `deque(maxlen=n)`, oldest entry first. -/
structure RingBuffer (α : Type*) where
  maxlen : ℕ
  items : List α
  bounded : items.length ≤ maxlen
  deriving DecidableEq

namespace RingBuffer

variable {α : Type*}

def empty (α : Type*) (maxlen : ℕ) : RingBuffer α := ⟨maxlen, [], Nat.zero_le _⟩

/-- Append at the right; a buffer over its maximum length loses its leftmost entry. -/
def append (q : RingBuffer α) (x : α) : RingBuffer α where
  maxlen := q.maxlen
  items := if q.items.length < q.maxlen then q.items ++ [x] else (q.items ++ [x]).tail
  bounded := by
    have := q.bounded
    split_ifs <;> simp <;> omega

def clear (q : RingBuffer α) : RingBuffer α := empty α q.maxlen

@[simp] theorem empty_items (maxlen : ℕ) : (empty α maxlen).items = [] := rfl
@[simp] theorem append_maxlen (q : RingBuffer α) (x : α) : (q.append x).maxlen = q.maxlen := rfl
@[simp] theorem clear_items (q : RingBuffer α) : q.clear.items = [] := rfl
@[simp] theorem clear_maxlen (q : RingBuffer α) : q.clear.maxlen = q.maxlen := rfl

theorem append_items (q : RingBuffer α) (x : α) :
    (q.append x).items = (q.items ++ [x]).rtake q.maxlen := by
  have hb := q.bounded
  simp only [append, List.rtake, List.length_append, List.length_singleton]
  split_ifs with h
  · rw [show q.items.length + 1 - q.maxlen = 0 by omega, List.drop_zero]
  · rw [show q.items.length + 1 - q.maxlen = 1 by omega, List.drop_one]

/-- Entries already pushed out stay out. -/
theorem rtake_rtake_append (n : ℕ) (xs ys : List α) :
    (xs.rtake n ++ ys).rtake n = (xs ++ ys).rtake n := by
  simp only [List.rtake, List.length_append, List.length_drop, List.drop_append]
  rw [List.drop_drop]
  congr 2 <;> omega

theorem map_rtake {β : Type*} (f : α → β) (n : ℕ) (xs : List α) :
    (xs.rtake n).map f = (xs.map f).rtake n := by
  rw [List.rtake, List.rtake, List.length_map, List.map_drop]

end RingBuffer
end CfsBridge
