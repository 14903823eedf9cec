import CfsBridge.TelemetryReceiver
import CfsBridge.Windows
import Mathlib.Algebra.Order.Floor.Semifield
import Mathlib.Data.Rat.Floor

/-!
# Pages of the telemetry viewer

The functions of `ui_utils` that cut the list of entries into pages. A page is
a window of ten entries from which a loop drops the repeated ones; with
distinct entries the pages are a partition of the list.
-/
namespace CfsBridge.UiUtils
open Python TelemetryReceiver Windows

def itemsPerPage : ℤ := 10

/-- `page_count`. -/
def pageCount (totalItems : ℕ) : ℤ := max 1 ⌈(totalItems : ℚ) / itemsPerPage⌉

section Dedup
variable {α κ : Type} [DecidableEq κ]

/-- The loop of `slice_for_page`, with its `seen` and `result`. -/
def dedupLoop (key : α → κ) (seen : Finset κ) (result : List α) : List α → List α
  | [] => result
  | it :: window =>
    if key it ∈ seen then dedupLoop key seen result window
    else dedupLoop key (insert (key it) seen) (result ++ [it]) window

theorem dedupLoop_eq (key : α → κ) (seen : Finset κ) (result window : List α) :
    dedupLoop key seen result window = result ++ firsts key seen window := by
  induction window generalizing seen result with
  | nil => simp [dedupLoop, firsts]
  | cons it window ih =>
    rw [dedupLoop, firsts]
    split_ifs
    · exact ih seen result
    · rw [ih, List.append_assoc, List.singleton_append]

end Dedup

/-- What `slice_for_page` tells entries apart by. -/
def entryKey (entry : RawTelemetryEntry) : String × Timestamp := (entry.rawHex, entry.timestamp)

/-- `slice_for_page`. -/
def sliceForPage (items : List RawTelemetryEntry) (page : ℤ) : List RawTelemetryEntry :=
  let page := if page < 1 then 1 else page
  let startIdx := (page - 1) * itemsPerPage
  let endIdx := min (page * itemsPerPage) items.length
  dedupLoop entryKey ∅ [] (sliceBetween startIdx endIdx items)

/-- `update_page_on_new`; neither the previous total nor auto-scroll has a say. -/
def updatePageOnNew (total : ℕ) (_prevTotal : ℕ) (currentPage : ℤ) (_autoScroll : Bool) : ℤ × ℕ :=
  let pc := pageCount total
  if currentPage > pc then (pc, total)
  else if currentPage < 1 then (1, total)
  else (currentPage, total)

/-! ### The pages -/

theorem one_le_pageCount (total : ℕ) : 1 ≤ pageCount total := le_max_left _ _

/-- The page count in whole numbers: ten entries a page, rounded up. -/
theorem pageCount_eq (total : ℕ) : pageCount total = max 1 (((total + 9) / 10 : ℕ) : ℤ) := by
  have hceil : ⌈(total : ℚ) / itemsPerPage⌉ = (((total + 9) / 10 : ℕ) : ℤ) := by
    rw [Int.ceil_eq_iff]
    have hlow : 10 * ((total + 9) / 10) < total + 10 := by omega
    have hhigh : total ≤ 10 * ((total + 9) / 10) := by omega
    have hlow' : (10 * ((total + 9) / 10 : ℕ) : ℚ) < total + 10 := by exact_mod_cast hlow
    have hhigh' : (total : ℚ) ≤ 10 * ((total + 9) / 10 : ℕ) := by exact_mod_cast hhigh
    simp only [itemsPerPage, Int.cast_ofNat, Int.cast_natCast]
    constructor
    · linarith
    · linarith
  rw [pageCount, hceil]

theorem le_pageCount (total : ℕ) : (total : ℤ) ≤ 10 * pageCount total := by
  rw [pageCount_eq]
  omega

/-- A page of the list starts before its end. -/
theorem page_start_lt {total : ℕ} {page : ℤ} (hpos : 0 < total) (h : page ≤ pageCount total) :
    10 * (page - 1) < total := by
  rw [pageCount_eq] at h
  omega

/-- Page `k + 1` keeps the first entries of window `k`. -/
theorem sliceForPage_eq (items : List RawTelemetryEntry) (k : ℕ) :
    sliceForPage items (k + 1) = firsts entryKey ∅ (window 10 k items) := by
  have hpage : ¬ ((k : ℤ) + 1 < 1) := by omega
  have hstart : (((k : ℤ) + 1 - 1) * itemsPerPage).toNat = k * 10 := by
    simp only [itemsPerPage]
    omega
  have hend : (min (((k : ℤ) + 1) * itemsPerPage) items.length).toNat =
      min (k * 10 + 10) items.length := by
    simp only [itemsPerPage]
    omega
  have hwindow : sliceBetween (((k : ℤ) + 1 - 1) * itemsPerPage)
      (min (((k : ℤ) + 1) * itemsPerPage) items.length) items = window 10 k items := by
    rw [sliceBetween, sliceIndex_of_nonneg, sliceIndex_of_nonneg, hstart, hend, window,
      ← List.take_eq_take_min, List.drop_take, Nat.add_sub_cancel_left]
    · simp only [itemsPerPage]
      omega
    · simp only [itemsPerPage]
      omega
  unfold sliceForPage
  simp only [if_neg hpage, hwindow, dedupLoop_eq, List.nil_append]

theorem sliceForPage_of_lt_one (items : List RawTelemetryEntry) {page : ℤ} (h : page < 1) :
    sliceForPage items page = sliceForPage items 1 := by
  unfold sliceForPage
  rw [if_pos h, if_neg (lt_irrefl 1)]

/-- A page number from one on is one more than its window's number. -/
theorem exists_window {page : ℤ} (h : 1 ≤ page) : ∃ k : ℕ, page = k + 1 :=
  ⟨(page - 1).toNat, by omega⟩

theorem sliceForPage_of_gt {items : List RawTelemetryEntry} {page : ℤ}
    (h : pageCount items.length < page) : sliceForPage items page = [] := by
  have hone := one_le_pageCount items.length
  have hlen := le_pageCount items.length
  obtain ⟨k, rfl⟩ := exists_window (by omega : 1 ≤ page)
  rw [sliceForPage_eq, window_eq_nil (by omega)]
  rfl

theorem sliceForPage_ne_nil {items : List RawTelemetryEntry} (hne : items ≠ []) {page : ℤ}
    (h1 : 1 ≤ page) (h : page ≤ pageCount items.length) : sliceForPage items page ≠ [] := by
  have hstart := page_start_lt (List.length_pos_of_ne_nil hne) h
  obtain ⟨k, rfl⟩ := exists_window h1
  rw [sliceForPage_eq]
  apply firsts_ne_nil
  apply window_ne_nil (by decide)
  omega

/-- Without repeated keys the pages put the list back together. -/
theorem flatMap_sliceForPage {items : List RawTelemetryEntry} (h : (items.map entryKey).Nodup) :
    ((List.range (pageCount items.length).toNat).flatMap fun k : ℕ => sliceForPage items (k + 1)) =
      items := by
  have hwindow (k : ℕ) : sliceForPage items (k + 1) = window 10 k items := by
    rw [sliceForPage_eq]
    apply firsts_eq_self
    · exact h.sublist ((window_sublist 10 k items).map entryKey)
    · intro entry _
      exact Finset.notMem_empty _
  have hlen := le_pageCount items.length
  simp only [hwindow]
  apply flatMap_window
  omega

/-- Pagination is a partition: every page keeps its own window up to repeated
keys, and the pages of the count are exactly those that have entries. -/
theorem pages_partition (items : List RawTelemetryEntry) :
    (∀ page : ℤ, 1 ≤ page → page ≤ pageCount items.length →
      let own := window 10 (page - 1).toNat items
      (sliceForPage items page).Sublist own ∧
      ((sliceForPage items page).map entryKey).Nodup ∧
      ∀ entry ∈ own, entryKey entry ∈ (sliceForPage items page).map entryKey) ∧
    ((items.map entryKey).Nodup →
      ((List.range (pageCount items.length).toNat).flatMap fun k : ℕ => sliceForPage items (k + 1)) =
        items) ∧
    (∀ page : ℤ, pageCount items.length < page → sliceForPage items page = []) ∧
    (∀ page : ℤ, page < 1 → sliceForPage items page = sliceForPage items 1) ∧
    (items ≠ [] → ∀ page : ℤ, 1 ≤ page → page ≤ pageCount items.length →
      sliceForPage items page ≠ []) := by
  refine ⟨?_, flatMap_sliceForPage, fun _ h => sliceForPage_of_gt h,
    fun _ h => sliceForPage_of_lt_one items h, fun hne _ h1 h => sliceForPage_ne_nil hne h1 h⟩
  intro page h1 _ own
  obtain ⟨k, rfl⟩ := exists_window h1
  have hown : own = window 10 k items := by simp [own]
  rw [hown, sliceForPage_eq]
  refine ⟨firsts_sublist _ _ _, nodup_map_firsts _ _ _, ?_⟩
  intro entry hentry
  exact (mem_map_firsts _ _ _ _).mpr ⟨List.mem_map_of_mem hentry, Finset.notMem_empty _⟩

end CfsBridge.UiUtils
