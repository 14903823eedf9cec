import CfsBridge.Processor

/-!
# The newest entries of a log

`get_recent`, `get_events` and `get_raw_log` slice the end off a ring buffer
with a negative index. A positive count gives the newest entries. A count of
zero is the index zero, and gives the whole buffer.
-/
namespace CfsBridge.RecentEntries
open Python TelemetryReceiver Processor

section Query
variable {α : Type}

/-- A query for the newest entries, at one count: as many of the newest as there
are and were asked for, extended to the left by every larger count. -/
structure ReturnsNewest (query : ℤ → List α) (items : List α) (count : ℕ) : Prop where
  newest : query count = items.rtake count
  length : (query count).length = min count items.length
  suffix : query count <:+ items
  mono : ∀ larger : ℕ, count ≤ larger → query count <:+ query larger

theorem length_rtake (count : ℕ) (items : List α) :
    (items.rtake count).length = min count items.length := by
  rw [List.rtake, List.length_drop]
  omega

theorem rtake_suffix_rtake {count larger : ℕ} (h : count ≤ larger) (items : List α) :
    items.rtake count <:+ items.rtake larger := by
  have hsplit : items.length - count =
      items.length - larger + (items.length - count - (items.length - larger)) := by omega
  rw [List.rtake, List.rtake, hsplit, ← List.drop_drop]
  exact List.drop_suffix _ _

theorem rtake_rtake (m n : ℕ) (items : List α) :
    (items.rtake n).rtake m = items.rtake (min m n) := by
  have hskip : items.length - n + (items.length - (items.length - n) - m) =
      items.length - min m n := by omega
  rw [List.rtake, List.rtake, List.rtake, List.length_drop, List.drop_drop, hskip]

theorem rtake_suffix (n : ℕ) (items : List α) : items.rtake n <:+ items := List.drop_suffix _ _

theorem suffix_rtake {xs ys : List α} (h : xs <:+ ys) (n : ℕ) : xs.rtake n <:+ ys.rtake n := by
  apply List.suffix_of_suffix_length_le ((rtake_suffix n xs).trans h) (rtake_suffix n ys)
  have hle := h.length_le
  rw [length_rtake, length_rtake]
  omega

theorem rtake_append_suffix (xs ys : List α) (n : ℕ) :
    (xs ++ ys).rtake n <:+ xs.rtake n ++ ys := by
  obtain ⟨older, holder⟩ := rtake_suffix n xs
  have hsuffix : xs.rtake n ++ ys <:+ xs ++ ys := ⟨older, by rw [← List.append_assoc, holder]⟩
  apply List.suffix_of_suffix_length_le (rtake_suffix n _) hsuffix
  rw [length_rtake, List.length_append, List.length_append, length_rtake]
  omega

/-- A list and its suffix have the same newest entries when the suffix is all of
the list, or long enough. -/
theorem rtake_eq_rtake_iff {xs ys : List α} (h : xs <:+ ys) (n : ℕ) :
    ys.rtake n = xs.rtake n ↔ ys.length = xs.length ∨ n ≤ xs.length := by
  have hsuffix := suffix_rtake h n
  have hle := h.length_le
  constructor
  · intro heq
    have hlength := congrArg List.length heq
    rw [length_rtake, length_rtake] at hlength
    omega
  · intro hlong
    apply (hsuffix.eq_of_length _).symm
    rw [length_rtake, length_rtake]
    omega

/-- The slice returns the newest entries unless it is asked for none of some. -/
theorem returnsNewest_iff (items : List α) (count : ℕ) :
    ReturnsNewest (fun n => sliceFrom (-n) items) items count ↔ 0 < count ∨ items = [] := by
  constructor
  · intro h
    have hnewest := h.newest
    rw [sliceFrom_neg] at hnewest
    by_cases hzero : count = 0
    · right
      simpa [hzero] using hnewest
    · left
      omega
  · intro h
    have heq (n : ℕ) (hn : 0 < n ∨ items = []) : sliceFrom (-n) items = items.rtake n := by
      rw [sliceFrom_neg]
      split_ifs with hzero
      · have hnil : items = [] := by
          apply hn.resolve_left
          omega
        rw [hnil, List.rtake_nil]
      · rfl
    constructor
    · exact heq count h
    · rw [heq count h, length_rtake]
    · rw [heq count h]
      exact List.drop_suffix _ _
    · intro larger hle
      have hlarger : 0 < larger ∨ items = [] := h.imp_left fun hpos => hpos.trans_le hle
      rw [heq count h, heq larger hlarger]
      exact rtake_suffix_rtake hle items

end Query

/-- Each of the three queries returns the newest entries exactly when the count
is positive or the buffer empty. -/
theorem queries_newest_iff (count : ℕ) :
    (∀ (ω : Type) (s : Receiver ω),
      ReturnsNewest s.getRecent s.buffer.items count ↔ 0 < count ∨ s.buffer.items = []) ∧
    ∀ p : TelemetryProcessor,
      (ReturnsNewest p.getEvents p.eventLog.items count ↔ 0 < count ∨ p.eventLog.items = []) ∧
      (ReturnsNewest p.getRawLog p.rawLog.items count ↔ 0 < count ∨ p.rawLog.items = []) := by
  constructor
  · intro ω s
    exact returnsNewest_iff s.buffer.items count
  · intro p
    constructor
    · exact returnsNewest_iff p.eventLog.items count
    · exact returnsNewest_iff p.rawLog.items count

/-- A processor whose event log holds one operator line. -/
def oneEvent : TelemetryProcessor :=
  (TelemetryProcessor.init 200).updateSolarArrayStatus (fun _ => "12:00:00") "Open" 0

/-- Asked for no events, it returns the one it has. -/
theorem getEvents_zero :
    (oneEvent.getEvents 0).length = 1 ∧ ¬ ReturnsNewest oneEvent.getEvents oneEvent.eventLog.items 0 := by
  have hone : (oneEvent.getEvents 0).length = 1 := rfl
  constructor
  · exact hone
  · intro h
    have hlength := h.length
    rw [Nat.cast_zero, hone, Nat.zero_min] at hlength
    exact absurd hlength (by decide)

/-- After any run of the receive loop, a positive count gives the newest of the
datagrams that were accepted and still fit the buffer. -/
theorem getRecent_listenLoop {ω : Type} (callbacks : List (Callback ω)) (bufferSize : ℕ)
    (world : ω) (turns : List LoopTurn) {count : ℕ} (hpos : 0 < count) :
    (listenLoop callbacks turns (.init bufferSize world)).2.getRecent count =
      (entriesOf (accepted turns)).rtake (min count bufferSize) := by
  have hrun : Recorded callbacks bufferSize world (entriesOf (accepted turns)) _ :=
    recorded_init.listenLoop turns
  rw [Receiver.getRecent, sliceFrom_neg, if_neg (by omega), hrun.items, rtake_rtake]

end CfsBridge.RecentEntries
