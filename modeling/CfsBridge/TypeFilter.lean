import CfsBridge.Classification
import CfsBridge.RecentEntries

/-!
# The type filter of the telemetry viewer

The viewer shows an entry without a type as `unknown` and offers that type in
its filter. The filter itself compares the type key, which such an entry does
not have. The two agree as long as every entry has a type, that is, while no
datagram ends before its telemetry header does.
-/
namespace CfsBridge.TypeFilter
open Bytes Python TelemetryReceiver Processor
open CfsBridge.Parser

/-- `filter_items_by_event`; an entry without a type is in no list of types. -/
def filterItemsByEvent (items : List RawTelemetryEntry) (eventTypes : List String) :
    List RawTelemetryEntry :=
  if eventTypes = [] then items
  else if "all" ∈ eventTypes then items
  else items.filter fun it =>
    let typ := it.parsed.type.map PacketType.name
    eventTypes.any fun eventType => typ = some eventType

/-- The type that an entry is shown with. -/
def displayedType (entry : RawTelemetryEntry) : String :=
  (entry.parsed.type.map PacketType.name).getD "unknown"

/-- `available_types`: the set of displayed types, sorted. -/
def availableTypes (items : List RawTelemetryEntry) : List String :=
  (items.map displayedType).dedup.mergeSort

/-- The types among the options of the filter, which offers `all` besides them. -/
def offeredTypes (items : List RawTelemetryEntry) : List String :=
  (availableTypes items).filter fun t => t ≠ ""

/-- The filter selects what the viewer shows and offers. -/
structure FilterAgrees (items : List RawTelemetryEntry) : Prop where
  complete : filterItemsByEvent items (offeredTypes items) = items
  productive : ∀ t ∈ offeredTypes items, filterItemsByEvent items [t] ≠ []
  exact : ∀ selected, selected ≠ [] → selected ⊆ offeredTypes items →
    filterItemsByEvent items selected = items.filter fun it => displayedType it ∈ selected

/-! ### The offered types -/

theorem displayedType_ne (entry : RawTelemetryEntry) :
    displayedType entry ≠ "" ∧ displayedType entry ≠ "all" := by
  unfold displayedType
  cases entry.parsed.type with
  | none => decide
  | some type => cases type <;> decide

theorem mem_offeredTypes {items : List RawTelemetryEntry} {t : String} :
    t ∈ offeredTypes items ↔ ∃ it ∈ items, displayedType it = t := by
  unfold offeredTypes availableTypes
  rw [List.mem_filter, List.mem_mergeSort, List.mem_dedup, List.mem_map]
  constructor
  · exact fun h => h.1
  · intro h
    obtain ⟨it, hit, rfl⟩ := h
    exact ⟨⟨it, hit, rfl⟩, by simpa using (displayedType_ne it).1⟩

theorem all_not_mem {items : List RawTelemetryEntry} {selected : List String}
    (h : selected ⊆ offeredTypes items) : "all" ∉ selected := by
  intro hall
  obtain ⟨it, _, hit⟩ := mem_offeredTypes.mp (h hall)
  exact (displayedType_ne it).2 hit

/-- A selection of offered types keeps the entries whose type key is among them. -/
theorem filterItemsByEvent_eq {items : List RawTelemetryEntry} {selected : List String}
    (hne : selected ≠ []) (h : selected ⊆ offeredTypes items) :
    filterItemsByEvent items selected = items.filter fun it =>
      it.parsed.type.isSome && decide (displayedType it ∈ selected) := by
  rw [filterItemsByEvent, if_neg hne, if_neg (all_not_mem h)]
  congr 1
  funext it
  unfold displayedType
  cases it.parsed.type with
  | none => simp
  | some type =>
    rw [Bool.eq_iff_iff]
    simp

/-- The filter agrees with the viewer exactly when every entry has a type. -/
theorem filterAgrees_iff_isSome (items : List RawTelemetryEntry) :
    FilterAgrees items ↔ ∀ it ∈ items, it.parsed.type.isSome = true := by
  constructor
  · intro h it hit
    have hoffered : displayedType it ∈ offeredTypes items := mem_offeredTypes.mpr ⟨it, hit, rfl⟩
    have hcomplete := h.complete
    rw [filterItemsByEvent_eq (List.ne_nil_of_mem hoffered) (List.Subset.refl _)] at hcomplete
    have hkept := List.filter_eq_self.mp hcomplete it hit
    exact ((Bool.and_eq_true _ _).mp hkept).1
  · intro h
    have hexact (selected : List String) (hne : selected ≠ [])
        (hsub : selected ⊆ offeredTypes items) :
        filterItemsByEvent items selected = items.filter fun it => displayedType it ∈ selected := by
      rw [filterItemsByEvent_eq hne hsub]
      apply List.filter_congr
      intro it hit
      rw [h it hit, Bool.true_and]
    constructor
    · by_cases hnil : offeredTypes items = []
      · rw [filterItemsByEvent, if_pos hnil]
      · rw [hexact _ hnil (List.Subset.refl _)]
        apply List.filter_eq_self.mpr
        intro it hit
        exact decide_eq_true (mem_offeredTypes.mpr ⟨it, hit, rfl⟩)
    · intro t ht
      obtain ⟨it, hit, hshown⟩ := mem_offeredTypes.mp ht
      rw [hexact [t] (List.cons_ne_nil t []) (by simpa using ht)]
      apply List.ne_nil_of_mem (a := it)
      exact List.mem_filter.mpr ⟨hit, by simp [hshown]⟩
    · exact hexact

/-! ### Entries of the receiver -/

/-- The entries of datagrams received at given times. -/
def itemsOf (datagrams : List (Timestamp × Datagram)) : List RawTelemetryEntry :=
  datagrams.map fun d => entryOf d.1 d.2

theorem type_isSome_entryOf (now : Timestamp) (datagram : Datagram) :
    (entryOf now datagram).parsed.type.isSome = true ↔ 16 ≤ datagram.val.length := by
  rw [parsed_entryOf datagram.property]
  by_cases h16 : 16 ≤ datagram.val.length
  · simp [Classification.type_report h16, h16]
  · rw [Classification.ofDatagram_headerOnly datagram.property (by omega)]
    simp [report, headerKeys, h16]

/-- The filter and the types it offers agree on the entries of a list of
datagrams exactly when every datagram has a full telemetry header. -/
theorem filterAgrees_iff (datagrams : List (Timestamp × Datagram)) :
    FilterAgrees (itemsOf datagrams) ↔ ∀ d ∈ datagrams, 16 ≤ d.2.val.length := by
  rw [filterAgrees_iff_isSome, itemsOf, List.forall_mem_map]
  constructor
  · exact fun h d hd => (type_isSome_entryOf d.1 d.2).mp (h d hd)
  · exact fun h d hd => (type_isSome_entryOf d.1 d.2).mpr (h d hd)

/-- A no-op command to RAD_APP, sent to the telemetry port. -/
def headerOnly : Datagram := ⟨[0x18, 0x82, 0xC0, 0x00, 0x00, 0x01, 0x00, 0xA4], by decide⟩

/-- The viewer shows it as `unknown`, and selecting that type hides it. -/
theorem headerOnly_hidden :
    (itemsOf [(0, headerOnly)]).map displayedType = ["unknown"] ∧
      filterItemsByEvent (itemsOf [(0, headerOnly)]) ["unknown"] = [] ∧
      ¬ FilterAgrees (itemsOf [(0, headerOnly)]) := by
  have hshown : (itemsOf [(0, headerOnly)]).map displayedType = ["unknown"] := by decide +kernel
  have hhidden : filterItemsByEvent (itemsOf [(0, headerOnly)]) ["unknown"] = [] := by
    decide +kernel
  refine ⟨hshown, hhidden, fun h => h.productive "unknown" ?_ hhidden⟩
  apply mem_offeredTypes.mpr
  apply List.mem_map.mp
  rw [hshown]
  exact List.mem_singleton_self _

/-! ### The dashboard -/

/-- `items_all`: the newest 200 entries of the receiver, newest first. -/
def itemsAll {ω : Type} (s : Receiver ω) : List RawTelemetryEntry :=
  (sliceFrom (-200) (s.getRecent 200)).reverse

/-- After a run of the receive loop the dashboard lists the newest accepted datagrams. -/
theorem itemsAll_listenLoop {ω : Type} (callbacks : List (Callback ω)) (bufferSize : ℕ) (world : ω)
    (turns : List LoopTurn) :
    itemsAll (listenLoop callbacks turns (.init bufferSize world)).2 =
      (entriesOf ((accepted turns).rtake (min 200 bufferSize))).reverse := by
  have hrecent := RecentEntries.getRecent_listenLoop callbacks bufferSize world turns
    (show 0 < 200 by decide)
  have hall := sliceFrom_neg 200 ((entriesOf (accepted turns)).rtake (min 200 bufferSize))
  have hmap : (entriesOf (accepted turns)).rtake (min 200 bufferSize) =
      entriesOf ((accepted turns).rtake (min 200 bufferSize)) :=
    (RingBuffer.map_rtake _ _ _).symm
  rw [Nat.cast_ofNat] at hrecent hall
  rw [itemsAll, hrecent, hall, if_neg (by decide), RecentEntries.rtake_rtake, ← min_assoc,
    min_self, hmap]

theorem six_le_of_mem_accepted {turns : List LoopTurn} {d : Bytes × Timestamp}
    (h : d ∈ accepted turns) : 6 ≤ d.1.length := by
  obtain ⟨turn, _, hturn⟩ := List.mem_filterMap.mp h
  unfold LoopTurn.accepted at hturn
  split at hturn
  · split_ifs at hturn with hlen
    cases hturn
    exact hlen
  · cases hturn
  · cases hturn

/-- On the dashboard the two agree as long as the newest datagrams all have a
full telemetry header. -/
theorem filterAgrees_itemsAll_iff {ω : Type} (callbacks : List (Callback ω)) (bufferSize : ℕ)
    (world : ω) (turns : List LoopTurn) :
    FilterAgrees (itemsAll (listenLoop callbacks turns (.init bufferSize world)).2) ↔
      ∀ d ∈ (accepted turns).rtake (min 200 bufferSize), 16 ≤ d.1.length := by
  have hmem (d : Bytes × Timestamp) (hd : d ∈ (accepted turns).rtake (min 200 bufferSize)) :
      (entryOf d.2 d.1).parsed.type.isSome = true ↔ 16 ≤ d.1.length :=
    type_isSome_entryOf d.2 ⟨d.1, six_le_of_mem_accepted (List.mem_of_mem_drop hd)⟩
  rw [itemsAll_listenLoop, filterAgrees_iff_isSome]
  simp only [List.mem_reverse, entriesOf, List.forall_mem_map]
  constructor
  · exact fun h d hd => (hmem d hd).mp (h d hd)
  · exact fun h d hd => (hmem d hd).mpr (h d hd)

end CfsBridge.TypeFilter
