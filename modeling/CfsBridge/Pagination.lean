import CfsBridge.UiUtils

/-!
# Page state of the dashboard

The current page lives in the session across reruns of the script, while the
list it points into changes underneath. A refresh brings it back into range
before anything reads it, and the buttons move it within the range, so no run
of refreshes shows a page that is not there.
-/
namespace CfsBridge.Pagination
open TelemetryReceiver UiUtils

/-- What `_safe_rerun` does: the rerun ends the script, or it fails or is not
there and the script goes on. -/
inductive Rerun
  | aborts
  | returns
  deriving DecidableEq

/-- A button, pressed or not, with the rerun that follows a press. -/
abbrev Press := Option Rerun

/-- The page keys of `st.session_state`; `none` is a key not set yet. -/
structure Session where
  tlmCurrentPage : Option ℤ
  tlmLastTotal : Option ℕ
  deriving DecidableEq

/-- One run of the script: the buttons, and the items that pass the filter. -/
structure Refresh where
  clear : Press
  filteredItems : List RawTelemetryEntry
  previous : Press
  next : Press

/-- How far a refresh came. `updated` is the page after the update and `page`
the one after the buttons; without items a caption stands for the page. -/
inductive Outcome
  | cleared
  | turned (updated page : ℤ)
  | rendered (updated page : ℤ) (pageItems : Option (List RawTelemetryEntry))
  deriving DecidableEq

/-- The two comparisons after `update_page_on_new`. -/
def clampPage (totalPages page : ℤ) : ℤ :=
  let page := if page < 1 then 1 else page
  if page > totalPages then totalPages else page

/-- A page button: with its condition it moves to the target page and reruns.
An error is a script that ended there. -/
def turnPage (press : Press) (condition : Bool) (target page : ℤ) : Except ℤ ℤ :=
  match press with
  | none => .ok page
  | some rerun =>
    if condition then
      match rerun with
      | .aborts => .error target
      | .returns => .ok target
    else .ok page

/-- The part of `main` after the page update: the buttons, then the page. -/
def pressButtons (r : Refresh) (updated : ℤ) (lastTotal : ℕ) : Session × Outcome :=
  let total := r.filteredItems.length
  match turnPage r.previous (updated > 1) (updated - 1) updated with
  | .error page => (⟨some page, some lastTotal⟩, .turned updated page)
  | .ok page =>
    match turnPage r.next (page < pageCount total) (page + 1) page with
    | .error page => (⟨some page, some lastTotal⟩, .turned updated page)
    | .ok page =>
      let pageItems := if total = 0 then none else some (sliceForPage r.filteredItems page)
      (⟨some page, some lastTotal⟩, .rendered updated page pageItems)

/-- The part of `main` from the defaults of the page state on. -/
def showPage (s : Session) (r : Refresh) : Session × Outcome :=
  let total := r.filteredItems.length
  let update := updatePageOnNew total (s.tlmLastTotal.getD 0) (s.tlmCurrentPage.getD 1) false
  pressButtons r (clampPage (pageCount total) update.1) update.2

/-- One refresh; `Clear Logs` resets the page state first. -/
def refresh (s : Session) (r : Refresh) : Session × Outcome :=
  match r.clear with
  | none => showPage s r
  | some .aborts => (⟨some 1, some 0⟩, .cleared)
  | some .returns => showPage ⟨some 1, some 0⟩ r

/-- A refresh of a run, with what it came to and the session after it. -/
structure Visit where
  refresh : Refresh
  outcome : Outcome
  after : Session

/-- A run of refreshes in one session. -/
def visits (s : Session) : List Refresh → List Visit
  | [] => []
  | r :: rs => ⟨r, (refresh s r).2, (refresh s r).1⟩ :: visits (refresh s r).1 rs

/-! ### Valid pages -/

/-- A page number that the pages of `total` items have. -/
def OnPage (total : ℕ) (page : ℤ) : Prop := 1 ≤ page ∧ page ≤ pageCount total

/-- Another update at the same total changes nothing. -/
def Settled (total : ℕ) (page : ℤ) : Prop :=
  ∀ lastTotal autoScroll, updatePageOnNew total lastTotal page autoScroll = (page, total) ∧
    clampPage (pageCount total) page = page

/-- The update alone brings any page into range, before the comparisons after it. -/
def Recovers (total : ℕ) : Prop :=
  ∀ lastTotal page autoScroll, OnPage total (updatePageOnNew total lastTotal page autoScroll).1

/-- A visit on which every page the operator gets to is valid, and the page
shown has entries if the list has. -/
def Visit.Valid (v : Visit) : Prop :=
  let items := v.refresh.filteredItems
  Recovers items.length ∧ match v.outcome with
  | .cleared => v.refresh.clear = some .aborts ∧ v.after.tlmCurrentPage = some 1
  | .turned updated page =>
    (v.refresh.previous = some .aborts ∨ v.refresh.next = some .aborts) ∧
      OnPage items.length updated ∧ Settled items.length updated ∧ OnPage items.length page ∧
      v.after.tlmCurrentPage = some page
  | .rendered updated page pageItems =>
    OnPage items.length updated ∧ Settled items.length updated ∧ OnPage items.length page ∧
      v.after.tlmCurrentPage = some page ∧
      (0 < items.length → ∃ shown, pageItems = some shown ∧ shown = sliceForPage items page ∧
        shown ≠ [])

theorem clampPage_eq {total : ℕ} {page : ℤ} (h : OnPage total page) :
    clampPage (pageCount total) page = page := by
  obtain ⟨h1, hcount⟩ := h
  simp only [clampPage]
  rw [if_neg (by omega), if_neg (by omega)]

theorem updatePageOnNew_eq {total : ℕ} {page : ℤ} (h : OnPage total page) (lastTotal : ℕ)
    (autoScroll : Bool) : updatePageOnNew total lastTotal page autoScroll = (page, total) := by
  obtain ⟨h1, hcount⟩ := h
  simp only [updatePageOnNew]
  rw [if_neg (by omega), if_neg (by omega)]

theorem OnPage.settled {total : ℕ} {page : ℤ} (h : OnPage total page) : Settled total page :=
  fun lastTotal autoScroll => ⟨updatePageOnNew_eq h lastTotal autoScroll, clampPage_eq h⟩

theorem recovers (total : ℕ) : Recovers total := by
  intro lastTotal page autoScroll
  have hone := one_le_pageCount total
  simp only [updatePageOnNew, OnPage]
  split_ifs with hover hunder
  · exact ⟨hone, le_refl _⟩
  · exact ⟨le_refl 1, hone⟩
  · exact ⟨by omega, by omega⟩

theorem turnPage_ok {press : Press} {condition : Bool} {target page turned : ℤ}
    (h : turnPage press condition target page = .ok turned) :
    turned = page ∨ (condition = true ∧ turned = target) := by
  unfold turnPage at h
  split at h
  · cases h
    exact .inl rfl
  · split_ifs at h with hcondition
    · split at h
      · cases h
      · cases h
        exact .inr ⟨hcondition, rfl⟩
    · cases h
      exact .inl rfl

/-- The script ends at a page button only when it moved. -/
theorem turnPage_error {press : Press} {condition : Bool} {target page turned : ℤ}
    (h : turnPage press condition target page = .error turned) :
    press = some .aborts ∧ condition = true ∧ turned = target := by
  unfold turnPage at h
  split at h
  · cases h
  · split_ifs at h with hcondition
    · split at h
      · cases h
        exact ⟨rfl, hcondition, rfl⟩
      · cases h

theorem OnPage.previous {total : ℕ} {page : ℤ} (h : OnPage total page)
    (hcondition : decide (page > 1) = true) : OnPage total (page - 1) := by
  obtain ⟨h1, hcount⟩ := h
  have hgt := of_decide_eq_true hcondition
  exact ⟨by omega, by omega⟩

theorem OnPage.next {total : ℕ} {page : ℤ} (h : OnPage total page)
    (hcondition : decide (page < pageCount total) = true) : OnPage total (page + 1) := by
  obtain ⟨h1, hcount⟩ := h
  have hlt := of_decide_eq_true hcondition
  exact ⟨by omega, by omega⟩

/-- From a page in range the buttons lead to pages in range only. -/
theorem valid_pressButtons {r : Refresh} {updated : ℤ} (h : OnPage r.filteredItems.length updated)
    (lastTotal : ℕ) :
    Visit.Valid ⟨r, (pressButtons r updated lastTotal).2, (pressButtons r updated lastTotal).1⟩ := by
  unfold pressButtons
  cases hprevious : turnPage r.previous (updated > 1) (updated - 1) updated with
  | error page =>
    obtain ⟨haborts, hcondition, rfl⟩ := turnPage_error hprevious
    exact ⟨recovers _, .inl haborts, h, h.settled, h.previous hcondition, rfl⟩
  | ok page =>
    have hpage : OnPage r.filteredItems.length page := by
      cases turnPage_ok hprevious with
      | inl hsame => exact hsame ▸ h
      | inr hmoved => exact hmoved.2 ▸ h.previous hmoved.1
    simp only
    cases hnext : turnPage r.next (page < pageCount r.filteredItems.length) (page + 1) page with
    | error turned =>
      obtain ⟨haborts, hcondition, rfl⟩ := turnPage_error hnext
      exact ⟨recovers _, .inr haborts, h, h.settled, hpage.next hcondition, rfl⟩
    | ok turned =>
      have hturned : OnPage r.filteredItems.length turned := by
        cases turnPage_ok hnext with
        | inl hsame => exact hsame ▸ hpage
        | inr hmoved => exact hmoved.2 ▸ hpage.next hmoved.1
      have hshown (hpos : 0 < r.filteredItems.length) :
          sliceForPage r.filteredItems turned ≠ [] :=
        sliceForPage_ne_nil (List.ne_nil_of_length_pos hpos) hturned.1 hturned.2
      exact ⟨recovers _, h, h.settled, hturned, rfl, fun hpos =>
        ⟨_, if_neg (Nat.ne_of_gt hpos), rfl, hshown hpos⟩⟩

/-- The update makes the page valid from every stored session. -/
theorem valid_showPage (s : Session) (r : Refresh) :
    Visit.Valid ⟨r, (showPage s r).2, (showPage s r).1⟩ := by
  have hupdate := recovers r.filteredItems.length (s.tlmLastTotal.getD 0)
    (s.tlmCurrentPage.getD 1) false
  unfold showPage
  simp only [clampPage_eq hupdate]
  exact valid_pressButtons hupdate _

theorem valid_refresh (s : Session) (r : Refresh) :
    Visit.Valid ⟨r, (refresh s r).2, (refresh s r).1⟩ := by
  cases hclear : r.clear with
  | none =>
    have hrefresh : refresh s r = showPage s r := by rw [refresh, hclear]
    rw [hrefresh]
    exact valid_showPage s r
  | some rerun =>
    cases rerun with
    | aborts =>
      have hrefresh : refresh s r = (⟨some 1, some 0⟩, .cleared) := by rw [refresh, hclear]
      rw [hrefresh]
      exact ⟨recovers _, hclear, rfl⟩
    | returns =>
      have hrefresh : refresh s r = showPage ⟨some 1, some 0⟩ r := by rw [refresh, hclear]
      rw [hrefresh]
      exact valid_showPage _ r

/-- Every refresh of every run lands on valid pages, whatever was stored before. -/
theorem visits_valid (s : Session) (refreshes : List Refresh) :
    ∀ v ∈ visits s refreshes, v.Valid := by
  induction refreshes generalizing s with
  | nil =>
    intro v hv
    cases hv
  | cons r refreshes ih =>
    intro v hv
    cases List.mem_cons.mp hv with
    | inl hfirst =>
      rw [hfirst]
      exact valid_refresh s r
    | inr hrest => exact ih _ v hrest

/-- From a stored page 7 the list shrinks to 25 entries, and a press of
`Previous` leads from page 3 to page 2. -/
theorem visits_valid_shrunk :
    let entry : RawTelemetryEntry := ⟨0, 0x0882, "0882", {}, 6⟩
    let refreshes : List Refresh := [⟨none, List.replicate 25 entry, some .returns, none⟩]
    ∃ v ∈ visits ⟨some 7, some 60⟩ refreshes, v.Valid ∧ v.after = ⟨some 2, some 25⟩ := by
  intro entry refreshes
  have hvalid := visits_valid ⟨some 7, some 60⟩ refreshes _ List.mem_cons_self
  exact ⟨_, List.mem_cons_self, hvalid, by decide +kernel⟩

end CfsBridge.Pagination
