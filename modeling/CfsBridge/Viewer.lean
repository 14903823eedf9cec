import CfsBridge.Screens
import CfsBridge.SolarStatus
import CfsBridge.UiUtils

/-!
# The telemetry viewer

The entries that the dashboard lists: filtered by type, cut into pages and each
given a label with a coloured mark. An entry is told apart by its bytes and its
time, which are all there is to it, so a page that drops a repeated entry drops
nothing, and every recent datagram is found on some page.
-/
namespace CfsBridge.Viewer
open Bytes Python TelemetryReceiver Processor Transitions TypeFilter UiUtils Windows
open CfsBridge.Parser CfsBridge.Dashboard
open CfsBridge.Classification

/-! ### Labels -/

/-- `s.lower()` of an ASCII string. -/
def lower (s : String) : String := String.ofList (s.toList.map Char.toLower)

/-- The text of an event; other entries have none. -/
def eventText (entry : RawTelemetryEntry) : String :=
  if entry.parsed.type = some .evs then entry.parsed.eventText.getD "" else ""

/-- `prefix`. -/
def mark (entry : RawTelemetryEntry) : String :=
  let etLow := lower (eventText entry)
  if contains "error" etLow || contains "fail" etLow || entry.parsed.health = some 2 then "🔴 "
  else if contains "cfe_time" etLow || contains "to_lab" etLow || contains "time" etLow then "🟢 "
  else ""

/-- `short_evt`: at most 80 characters of the text. -/
def shortEvt (text : String) : String :=
  if text.toList.length ≤ 80 then text else String.ofList (text.toList.take 77 ++ ['.', '.', '.'])

section Labels

-- `strftime("%Y-%m-%d %H:%M:%S", localtime(t))`, which depends on the host's time zone
variable (ymdhms : Timestamp → String)

def header (entry : RawTelemetryEntry) : String :=
  let ts := ymdhms entry.timestamp
  let mid := entry.parsed.midHex.getD (hex04X entry.mid.toNat)
  let type := displayedType entry
  let head := s!"[{ts}] | MID: {mid} | Type: {type}"
  if eventText entry = "" then head
  else
    let short := shortEvt (eventText entry)
    s!"{head} | Event: {short}"

/-- The line that an entry is folded up under. -/
def label (entry : RawTelemetryEntry) : String := mark entry ++ header ymdhms entry

end Labels

/-! ### Marks -/

/-- Some part of the text is the word, whatever the case of its letters. -/
def Mentions (word text : String) : Prop :=
  ∃ part, part <:+: text.toList ∧ part.map Char.toLower = word.toList

theorem contains_lower_iff (word text : String) :
    contains word (lower text) = true ↔ Mentions word text := by
  rw [LongEvent.contains_iff, lower, String.toList_ofList, List.infix_map_iff]
  constructor
  · intro h
    obtain ⟨part, hpart, hword⟩ := h
    exact ⟨part, hpart, hword.symm⟩
  · intro h
    obtain ⟨part, hpart, hword⟩ := h
    exact ⟨part, hpart, hword.symm⟩

theorem not_mentions_empty {word : String} (h : word ≠ "") : ¬ Mentions word "" := by
  rintro ⟨part, hpart, hword⟩
  have hnil : part = [] := List.infix_nil.mp hpart
  rw [hnil, List.map_nil] at hword
  exact h (String.toList_inj.mp hword.symm)

/-- A datagram that reports a critical reading, or an error or failure. -/
def Alarm (data : Bytes) : Prop :=
  match Telemetry.ofDatagram data with
  | .radiation _ health => health = 2
  | .thermal _ health => health = 2
  | .evs text => Mentions "error" text ∨ Mentions "fail" text
  | _ => False

theorem eventText_entryOf (now : Timestamp) (datagram : Datagram) :
    eventText (entryOf now datagram) =
      match Telemetry.ofDatagram datagram.val with
      | .evs text => text
      | _ => "" := by
  rw [eventText, parsed_entryOf datagram.property]
  cases Telemetry.ofDatagram datagram.val <;> rfl

theorem health_entryOf (now : Timestamp) (datagram : Datagram) :
    (entryOf now datagram).parsed.health =
      match Telemetry.ofDatagram datagram.val with
      | .radiation _ health => some health
      | .thermal _ health => some health
      | _ => none := by
  rw [parsed_entryOf datagram.property]
  cases Telemetry.ofDatagram datagram.val <;> rfl

theorem mark_eq_red_iff (now : Timestamp) (datagram : Datagram) :
    mark (entryOf now datagram) = "🔴 " ↔ Alarm datagram := by
  have hred : mark (entryOf now datagram) = "🔴 " ↔
      (Mentions "error" (eventText (entryOf now datagram)) ∨
        Mentions "fail" (eventText (entryOf now datagram))) ∨
        (entryOf now datagram).parsed.health = some 2 := by
    simp only [mark]
    split_ifs <;> simp_all [contains_lower_iff]
  rw [hred, eventText_entryOf, health_entryOf, Alarm]
  have herror := not_mentions_empty (show "error" ≠ "" by decide)
  have hfail := not_mentions_empty (show "fail" ≠ "" by decide)
  cases Telemetry.ofDatagram datagram.val <;> simp [herror, hfail]

/-- Besides events, the alarms are what the processor logs. -/
theorem alarm_iff_eventLine (hms : Timestamp → String) (now : Timestamp) {datagram : Datagram}
    (h : (entryOf now datagram).parsed.type ≠ some .evs) :
    Alarm datagram ↔ ((Op.packet now datagram).eventLine hms).isSome = true := by
  rw [parsed_entryOf datagram.property] at h
  rw [Alarm, Op.eventLine]
  cases hdata : Telemetry.ofDatagram datagram.val with
  | radiation value health => by_cases hcritical : health = 2 <;> simp [hcritical]
  | thermal value health => by_cases hcritical : health = 2 <;> simp [hcritical]
  | evs text => simp [hdata, report] at h
  | unknown payload => simp
  | headerOnly => simp
  | short => simp

theorem mark_cases (entry : RawTelemetryEntry) :
    mark entry = "🔴 " ∨ mark entry = "🟢 " ∨ mark entry = "" := by
  simp only [mark]
  split_ifs <;> simp

theorem head_header (ymdhms : Timestamp → String) (entry : RawTelemetryEntry) :
    (header ymdhms entry).toList.head? = some '[' := by
  unfold header
  split_ifs <;> simp [String.toList_append, toString]

/-- A label begins with the red mark exactly for an alarm. -/
theorem head_label_iff (ymdhms : Timestamp → String) (now : Timestamp) (datagram : Datagram) :
    (label ymdhms (entryOf now datagram)).toList.head? = some '🔴' ↔ Alarm datagram := by
  rw [← mark_eq_red_iff now, label, String.toList_append, List.head?_append, head_header]
  rcases mark_cases (entryOf now datagram) with h | h | h
  · simp [h]
  · simp [h]
  · simp [h]

/-! ### Pages -/

/-- Entries with the same bytes and the same time are the same. -/
def KeysTell (items : List RawTelemetryEntry) : Prop :=
  ∀ a ∈ items, ∀ b ∈ items, entryKey a = entryKey b → a = b

theorem hex_injective : Function.Injective hex := by
  intro data data' h
  apply Option.some_injective
  rw [← unhex_hex data, ← unhex_hex data', h]

theorem entryKey_entryOf {now now' : Timestamp} {data data' : Bytes}
    (h : entryKey (entryOf now data) = entryKey (entryOf now' data')) :
    entryOf now data = entryOf now' data' := by
  obtain ⟨hhex, htime⟩ := Prod.mk.inj h
  obtain rfl := hex_injective hhex
  obtain rfl : now = now' := htime
  rfl

section Pages
variable {items : List RawTelemetryEntry} {entry : RawTelemetryEntry}

/-- A page drops only what it shows already. -/
theorem mem_sliceForPage (h : KeysTell items) (k : ℕ) :
    entry ∈ sliceForPage items (k + 1) ↔ entry ∈ window 10 k items := by
  rw [sliceForPage_eq]
  constructor
  · exact fun hentry => (firsts_sublist _ _ _).subset hentry
  · intro hentry
    have hkey := (mem_map_firsts entryKey ∅ (window 10 k items) (entryKey entry)).mpr
      ⟨List.mem_map_of_mem hentry, Finset.notMem_empty _⟩
    obtain ⟨shown, hshown, heq⟩ := List.mem_map.mp hkey
    have hwindow := (window_sublist 10 k items).subset
    have hsame := h shown (hwindow ((firsts_sublist _ _ _).subset hshown)) entry (hwindow hentry) heq
    rwa [← hsame]

/-- The pages that the buttons lead to, one after the other. -/
def allPages (items : List RawTelemetryEntry) : List RawTelemetryEntry :=
  (List.range (pageCount items.length).toNat).flatMap fun k : ℕ => sliceForPage items (k + 1)

theorem windows_cover (items : List RawTelemetryEntry) :
    ((List.range (pageCount items.length).toNat).flatMap fun k => window 10 k items) = items := by
  have hlen := le_pageCount items.length
  apply flatMap_window
  omega

theorem allPages_sublist (items : List RawTelemetryEntry) : (allPages items).Sublist items := by
  have hpages : (allPages items).Sublist
      ((List.range (pageCount items.length).toNat).flatMap fun k => window 10 k items) := by
    apply List.Sublist.flatMap_right
    intro k _
    rw [sliceForPage_eq]
    exact firsts_sublist _ _ _
  rwa [windows_cover] at hpages

/-- Every entry is on some page. -/
theorem mem_allPages (h : KeysTell items) : entry ∈ allPages items ↔ entry ∈ items := by
  constructor
  · exact fun hentry => (allPages_sublist items).subset hentry
  · intro hentry
    rw [← windows_cover items] at hentry
    obtain ⟨k, hk, hwindow⟩ := List.mem_flatMap.mp hentry
    exact List.mem_flatMap.mpr ⟨k, hk, (mem_sliceForPage h k).mpr hwindow⟩

end Pages

/-! ### The viewer after a run -/

/-- The entries that a choice of types lets through. -/
def Selects (selected : List String) (entry : RawTelemetryEntry) : Prop :=
  selected = [] ∨ "all" ∈ selected ∨
    ∃ type, entry.parsed.type = some type ∧ type.name ∈ selected

theorem filterItemsByEvent_sublist (items : List RawTelemetryEntry) (selected : List String) :
    (filterItemsByEvent items selected).Sublist items := by
  unfold filterItemsByEvent
  split_ifs
  · exact List.Sublist.refl items
  · exact List.Sublist.refl items
  · exact List.filter_sublist

theorem mem_filterItemsByEvent {items : List RawTelemetryEntry} {selected : List String}
    {entry : RawTelemetryEntry} :
    entry ∈ filterItemsByEvent items selected ↔ entry ∈ items ∧ Selects selected entry := by
  unfold filterItemsByEvent Selects
  split_ifs with hnil hall
  · simp [hnil]
  · simp [hall]
  · cases htype : entry.parsed.type <;> simp [hnil, hall, htype, List.mem_filter]

section Run
variable {σ : Type} {hms : Timestamp → String} {es : List (Dashboard.Event σ)}

theorem mem_buffered {entry : RawTelemetryEntry} (h : entry ∈ buffered es) :
    ∃ now, ∃ datagram : Datagram, .receive now datagram ∈ es ∧ entry = entryOf now datagram := by
  obtain ⟨e, he, hentry⟩ := List.mem_filterMap.mp h
  have hmem : e ∈ es := (List.rtakeWhile_suffix _ es).subset he
  cases e with
  | receive now datagram => exact ⟨now, datagram, hmem, (Option.some.inj hentry).symm⟩
  | callback now datagram => cases hentry
  | rerun c pressed => cases hentry
  | act c action now => cases hentry

variable [DecidableEq σ] {s : Station σ}

/-- After any run and for every choice of types, the pages together are the
newest entries that the choice lets through, newest first, with nothing left out
but repetitions and nothing added. A label has the red mark exactly when its
datagram raises an alarm, which is for every other type than an event what the
processor logs. -/
theorem viewer_complete (hrun : run (Station.step hms) .init es = some s)
    (ymdhms : Timestamp → String) (selected : List String) :
    let shown := allPages (filterItemsByEvent (itemsAll s.services) selected)
    let recent := (buffered es).rtake 200
    shown.Sublist recent.reverse ∧
      (∀ entry, entry ∈ shown ↔ entry ∈ recent ∧ Selects selected entry) ∧
      ∀ entry ∈ shown, ∃ now, ∃ datagram : Datagram,
        .receive now datagram ∈ es ∧ entry = entryOf now datagram ∧
        ((label ymdhms entry).toList.head? = some '🔴' ↔ Alarm datagram) ∧
        (entry.parsed.type ≠ some .evs →
          (Alarm datagram ↔ ((Op.packet now datagram).eventLine hms).isSome = true)) := by
  intro shown recent
  have hitems : itemsAll s.services = recent.reverse := by
    rw [itemsAll_eq, (kept_run hrun).buffer, RecentEntries.rtake_rtake]
    rfl
  have horigin (entry : RawTelemetryEntry) (h : entry ∈ recent) :=
    mem_buffered ((RecentEntries.rtake_suffix 200 _).subset h)
  have hfiltered (entry : RawTelemetryEntry) :
      entry ∈ filterItemsByEvent (itemsAll s.services) selected ↔
        entry ∈ recent ∧ Selects selected entry := by
    rw [mem_filterItemsByEvent, hitems, List.mem_reverse]
  have hkeys : KeysTell (filterItemsByEvent (itemsAll s.services) selected) := by
    intro a ha b hb hkey
    obtain ⟨now, datagram, _, rfl⟩ := horigin a ((hfiltered a).mp ha).1
    obtain ⟨now', datagram', _, rfl⟩ := horigin b ((hfiltered b).mp hb).1
    exact entryKey_entryOf hkey
  have hshown (entry : RawTelemetryEntry) :
      entry ∈ shown ↔ entry ∈ recent ∧ Selects selected entry :=
    (mem_allPages hkeys).trans (hfiltered entry)
  refine ⟨?_, hshown, ?_⟩
  · rw [← hitems]
    exact (allPages_sublist _).trans (filterItemsByEvent_sublist _ selected)
  · intro entry hentry
    obtain ⟨now, datagram, hreceived, rfl⟩ := horigin entry ((hshown entry).mp hentry).1
    exact ⟨now, datagram, hreceived, rfl, head_label_iff ymdhms now datagram,
      alarm_iff_eventLine hms now⟩

end Run

/-- The same critical packet comes in twice within one tick of the clock. -/
def repeatedPacket : List (Dashboard.Event Unit) :=
  [.receive 0 Operators.Console.criticalRadiation,
    .callback 0 Operators.Console.criticalRadiation,
    .receive 0 Operators.Console.criticalRadiation]

/-- It is shown with the red mark, also under the filter of its type. -/
theorem viewer_complete_repeated : ∃ s,
    run (Station.step fun _ => "00:00:00") .init repeatedPacket = some s ∧
      let entry := entryOf 0 Operators.Console.criticalRadiation
      entry ∈ allPages (filterItemsByEvent (itemsAll s.services) ["radiation"]) ∧
        (label (fun _ => "") entry).toList.head? = some '🔴' := by
  have hends : (run (Station.step fun _ => "00:00:00") .init repeatedPacket).isSome = true := by
    decide +kernel
  obtain ⟨s, hrun⟩ := Option.isSome_iff_exists.mp hends
  have hviewer := viewer_complete hrun (fun _ => "") ["radiation"]
  have hselects : Selects ["radiation"] (entryOf 0 Operators.Console.criticalRadiation) :=
    .inr (.inr ⟨.radiation, by decide +kernel, by decide⟩)
  have hshown := (hviewer.2.1 _).mpr ⟨by decide +kernel, hselects⟩
  refine ⟨s, hrun, hshown, ?_⟩
  decide +kernel

end CfsBridge.Viewer
