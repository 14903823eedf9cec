import CfsBridge.Dicts
import CfsBridge.SensorRuns
import Mathlib.Data.String.Basic

/-!
# The sensor manager

The page that `manager_app` draws: one column for each sensor class of the
package, with a slider and a button that sends its reading. Every browser
session has sensors of its own. Whatever the package holds, each sensor goes
through its own presses only, and as no reading ever leaves its range, every
slider can be drawn at its sensor's reading, and so every column.
-/
namespace CfsBridge.SensorManager
open Python Sensors Dicts
open Ieee (Binary64 ExtRat)

/-- A sensor class with its name. -/
structure SensorType where
  name : String
  attributes : SensorClass

/-- A class among the members of a module. -/
inductive Member
  | baseSensor
  | sensor (type : SensorType)
  | other

/-- Subclasses of `BaseSensor` other than itself. -/
def Member.sensorType : Member → Option SensorType
  | .sensor type => some type
  | _ => none

def byName (a b : SensorType) : Bool := a.name ≤ b.name

/-- `discover_sensors`, over the classes of each module of the package. -/
def discoverSensors (modules : List (List Member)) : List SensorType :=
  (modules.flatMap fun members => members.filterMap Member.sensorType).mergeSort byName

/-- The sensors of a session by name, each with its class. -/
abbrev Sensors := List (String × SensorType × BaseSensor)

/-- `{cls.name: cls() for cls in sensor_classes}`. -/
def newSensors (types : List SensorType) : Sensors :=
  ofItems (types.map fun type => (type.name, type, .init type.attributes))

/-- The position of a column's slider, and the outcome of `sendto` when its
button is pressed. -/
structure Column where
  slider : Binary64
  press : Option (Except PyException ℕ)

/-- The columns by sensor name. -/
abbrev Page := String → Column

/-- Python's `a <= b`. -/
def pyLe (a b : Binary64) : Bool :=
  match a.value, b.value with
  | some x, some y => x ≤ y
  | _, _ => false

/-- The value lies between the bounds. -/
def between (minValue maxValue value : Binary64) : Bool :=
  pyLe minValue value && pyLe value maxValue

/-- `st.slider`, by whether it takes its `min_value`, `max_value` and `value`; it
raises for the rest. -/
abbrev Slider := Binary64 → Binary64 → Binary64 → Bool

/-- A slider whose bounds are finite and apart takes every value of its range. -/
structure Slider.Documented (slider : Slider) : Prop where
  accepts : ∀ {minValue maxValue value : Binary64} {lo hi : ℚ},
    minValue.value = some (ExtRat.finite lo) → maxValue.value = some (ExtRat.finite hi) →
    lo < hi → Within lo hi value → slider minValue maxValue value = true

/-- What a press of the button does; its exception is shown and goes no further. -/
def press (c : SensorClass) (column : Column) (s : BaseSensor) : BaseSensor :=
  match column.press with
  | none => s
  | some sendto => (s.updateAndSend c column.slider sendto).2

/-- A column that is drawn, with the metric `Current Value`. -/
structure Drawn where
  name : String
  currentValue : Binary64

/-- The loop over the columns. A slider that raises ends the script. -/
def drawColumns (slider : Slider) (page : Page) :
    Sensors → Sensors × Except (List Drawn) (List Drawn)
  | [] => ([], .ok [])
  | (name, type, s) :: rest =>
    if slider type.attributes.minValue type.attributes.maxValue s.value then
      let s := press type.attributes (page name) s
      let column : Drawn := ⟨name, s.value⟩
      match drawColumns slider page rest with
      | (rest, .ok columns) => ((name, type, s) :: rest, .ok (column :: columns))
      | (rest, .error columns) => ((name, type, s) :: rest, .error (column :: columns))
    else ((name, type, s) :: rest, .error [])

/-- `main` in one session; `none` is a session without sensors yet. -/
def main (slider : Slider) (modules : List (List Member)) (page : Page)
    (session : Option Sensors) : Option Sensors × Except (List Drawn) (List Drawn) :=
  let sensorClasses := discoverSensors modules
  if sensorClasses.isEmpty then (session, .ok [])
  else
    let sensors := session.getD (newSensors sensorClasses)
    let drawn := drawColumns slider page sensors
    (some drawn.1, drawn.2)

/-- Any number of sessions draw their pages in any order. -/
def run {σ : Type} [DecidableEq σ] (slider : Slider) (modules : List (List Member))
    (pages : List (σ × Page)) : σ → Option Sensors :=
  pages.foldl (fun sessions visit => Function.update sessions visit.1
    (main slider modules visit.2 (sessions visit.1)).1) fun _ => none

/-! ### The package -/

theorem mem_discoverSensors {modules : List (List Member)} {type : SensorType} :
    type ∈ discoverSensors modules ↔ ∃ members ∈ modules, .sensor type ∈ members := by
  rw [discoverSensors, List.mem_mergeSort, List.mem_flatMap]
  constructor
  · rintro ⟨members, hmembers, htype⟩
    obtain ⟨member, hmember, hsensor⟩ := List.mem_filterMap.mp htype
    cases member with
    | sensor type' =>
      cases hsensor
      exact ⟨members, hmembers, hmember⟩
    | baseSensor => cases hsensor
    | other => cases hsensor
  · rintro ⟨members, hmembers, hmember⟩
    exact ⟨members, hmembers, List.mem_filterMap.mpr ⟨_, hmember, rfl⟩⟩

theorem sorted_discoverSensors (modules : List (List Member)) :
    ((discoverSensors modules).map SensorType.name).Pairwise (· ≤ ·) := by
  have htrans (a b c : SensorType) (hab : byName a b = true) (hbc : byName b c = true) :
      byName a c = true :=
    decide_eq_true ((of_decide_eq_true hab).trans (of_decide_eq_true hbc))
  have htotal (a b : SensorType) : (byName a b || byName b a) = true := by
    rw [Bool.or_eq_true]
    exact (le_total a.name b.name).imp decide_eq_true decide_eq_true
  rw [List.pairwise_map]
  exact (List.pairwise_mergeSort htrans htotal _).imp fun h => of_decide_eq_true h

theorem newSensors_item {types : List SensorType} {item : String × SensorType × BaseSensor}
    (h : item ∈ newSensors types) :
    item.2.1 ∈ types ∧ item.2.1.name = item.1 ∧ item.2.2 = .init item.2.1.attributes := by
  obtain ⟨type, htype, rfl⟩ := List.mem_map.mp (mem_of_mem_ofItems h)
  exact ⟨htype, rfl, rfl⟩

theorem mem_names {types : List SensorType} {name : String} :
    name ∈ (newSensors types).map Prod.fst ↔ ∃ type ∈ types, type.name = name := by
  rw [newSensors, mem_keys_ofItems, List.map_map, List.mem_map]
  rfl

theorem sorted_newSensors (modules : List (List Member)) :
    ((newSensors (discoverSensors modules)).map Prod.fst).Pairwise (· < ·) := by
  apply sorted_ofItems
  rw [List.map_map]
  exact sorted_discoverSensors modules

/-! ### One page -/

/-- The calls that a sensor gets from a run of pages. -/
def turnsOf (name : String) (pages : List Page) : List SensorTurn :=
  pages.filterMap fun page =>
    (page name).press.map fun sendto => ⟨.updateAndSend (page name).slider, sendto⟩

/-- The slider's position at the latest press, or the default. -/
def latest (c : SensorClass) (name : String) (pages : List Page) : Binary64 :=
  ((pages.filterMap fun page => (page name).press.map fun _ => (page name).slider).getLast?).getD
    c.default

/-- A sensor after a page. -/
def advance (page : Page) (item : String × SensorType × BaseSensor) :
    String × SensorType × BaseSensor :=
  (item.1, item.2.1, press item.2.1.attributes (page item.1) item.2.2)

theorem drawColumns_eq {slider : Slider} (page : Page) {sensors : Sensors}
    (h : ∀ item ∈ sensors, slider item.2.1.attributes.minValue item.2.1.attributes.maxValue
      item.2.2.value = true) :
    drawColumns slider page sensors = (sensors.map (advance page),
      .ok ((sensors.map (advance page)).map fun item => ⟨item.1, item.2.2.value⟩)) := by
  induction sensors with
  | nil => rfl
  | cons item sensors ih =>
    obtain ⟨name, type, s⟩ := item
    have hfirst := h (name, type, s) List.mem_cons_self
    have hrest := ih fun item hitem => h item (List.mem_cons_of_mem _ hitem)
    rw [drawColumns, if_pos hfirst, hrest]
    rfl

theorem press_run (c : SensorClass) (name : String) (pages : List Page) (page : Page) :
    press c (page name) (BaseSensor.run c (turnsOf name pages)) =
      BaseSensor.run c (turnsOf name (pages ++ [page])) := by
  rw [turnsOf, turnsOf, List.filterMap_append, BaseSensor.run, BaseSensor.run, List.foldl_append,
    press]
  cases hpress : (page name).press with
  | none => simp [hpress]
  | some sendto =>
    simp only [List.filterMap_cons, List.filterMap_nil, hpress, Option.map_some]
    rfl

section Range
variable {c : SensorClass} {lo hi : ℚ}

theorem between_iff (h : c.WellFormed lo hi) {v : Binary64} :
    between c.minValue c.maxValue v = true ↔ Within lo hi v := by
  rw [between, Bool.and_eq_true, pyLe, pyLe, h.minValue, h.maxValue]
  cases hv : v.value with
  | none =>
    constructor
    · rintro ⟨hlo, _⟩
      cases hlo
    · rintro ⟨q, hq, _⟩
      rw [hv] at hq
      cases hq
  | some x =>
    simp only [decide_eq_true_iff]
    constructor
    · rintro ⟨hlo, hhi⟩
      obtain ⟨q, rfl, hq⟩ := ExtRat.exists_finite hlo hhi
      exact ⟨q, hv, hq⟩
    · rintro ⟨q, hq, hlo, hhi⟩
      obtain rfl : x = ExtRat.finite q := Option.some.inj (hv.symm.trans hq)
      exact ⟨ExtRat.finite_le_finite.mpr hlo, ExtRat.finite_le_finite.mpr hhi⟩

/-- What a slider gives is stored as it is, whether the send succeeds or not. -/
theorem value_run_turnsOf (h : c.WellFormed lo hi) {name : String} {pages : List Page}
    (hrange : ∀ page ∈ pages, between c.minValue c.maxValue (page name).slider = true) :
    (BaseSensor.run c (turnsOf name pages)).value.value = (latest c name pages).value := by
  induction pages using List.reverseRecOn with
  | nil => rfl
  | append_singleton pages page ih =>
    have hbefore := ih fun page hpage => hrange page (by simp [hpage])
    have hslider := (between_iff h).mp (hrange page (by simp))
    rw [← press_run, press, latest, List.filterMap_append]
    cases hpress : (page name).press with
    | none => simpa [hpress, latest] using hbefore
    | some sendto =>
      obtain ⟨q, hq, hlo, hhi⟩ := hslider
      have hstored := h.value_clamp_of_within hq hlo hhi
      simp [hpress, BaseSensor.updateAndSend, SendFailures.value_send, BaseSensor.setValue, hstored,
        hq]

end Range

/-! ### Sessions -/

/-- The pages that one session draws. -/
def pagesOf {σ : Type} [DecidableEq σ] (c : σ) (visits : List (σ × Page)) : List Page :=
  visits.filterMap fun visit => if visit.1 = c then some visit.2 else none

/-- Every slider of the page is at a position that it has. -/
def InRange (modules : List (List Member)) (page : Page) : Prop :=
  ∀ item ∈ newSensors (discoverSensors modules),
    between item.2.1.attributes.minValue item.2.1.attributes.maxValue (page item.1).slider = true

/-- The sensors of a session that has drawn the given pages. -/
def sensorsAfter (modules : List (List Member)) (pages : List Page) : Sensors :=
  (newSensors (discoverSensors modules)).map fun item =>
    (item.1, item.2.1, .run item.2.1.attributes (turnsOf item.1 pages))

section Sessions
variable {slider : Slider} {modules : List (List Member)}

theorem sensorsAfter_nil (modules : List (List Member)) :
    sensorsAfter modules [] = newSensors (discoverSensors modules) := by
  have hitem : ∀ item ∈ newSensors (discoverSensors modules),
      (item.1, item.2.1, BaseSensor.run item.2.1.attributes (turnsOf item.1 [])) = item := by
    rintro ⟨name, type, s⟩ hitem
    have hinit : s = .init type.attributes := (newSensors_item hitem).2.2
    rw [hinit]
    rfl
  rw [sensorsAfter, List.map_congr_left hitem, List.map_id']

theorem advance_sensorsAfter (modules : List (List Member)) (pages : List Page) (page : Page) :
    (sensorsAfter modules pages).map (advance page) = sensorsAfter modules (pages ++ [page]) := by
  rw [sensorsAfter, sensorsAfter, List.map_map]
  apply List.map_congr_left
  intro item _
  simp only [Function.comp_apply, advance, press_run]

variable (hslider : slider.Documented)
variable (hclasses : ∀ type ∈ discoverSensors modules,
  ∃ lo hi, lo < hi ∧ type.attributes.WellFormed lo hi)
variable (hne : discoverSensors modules ≠ [])
include hslider hclasses hne

/-- One more page of a session draws every column. -/
theorem main_eq (pages : List Page) (page : Page) {session : Option Sensors}
    (hsession : session.getD (newSensors (discoverSensors modules)) = sensorsAfter modules pages) :
    main slider modules page session = (some (sensorsAfter modules (pages ++ [page])),
      .ok ((sensorsAfter modules (pages ++ [page])).map fun item => ⟨item.1, item.2.2.value⟩)) := by
  have haccepts : ∀ item ∈ sensorsAfter modules pages,
      slider item.2.1.attributes.minValue item.2.1.attributes.maxValue item.2.2.value = true := by
    intro item hitem
    obtain ⟨first, hfirst, rfl⟩ := List.mem_map.mp hitem
    obtain ⟨lo, hi, hlt, hwell⟩ := hclasses _ (newSensors_item hfirst).1
    exact hslider.accepts hwell.minValue hwell.maxValue hlt (within_run hwell _)
  have hsome : (discoverSensors modules).isEmpty = false := by
    rwa [List.isEmpty_eq_false_iff]
  simp only [main, hsome, Bool.false_eq_true, if_false, hsession, drawColumns_eq page haccepts,
    advance_sensorsAfter]

theorem run_session {σ : Type} [DecidableEq σ] (visits : List (σ × Page)) (c : σ) :
    (run slider modules visits c).getD (newSensors (discoverSensors modules)) =
      sensorsAfter modules (pagesOf c visits) := by
  induction visits using List.reverseRecOn with
  | nil => exact (sensorsAfter_nil modules).symm
  | append_singleton visits visit ih =>
    rw [run, List.foldl_append, List.foldl_cons, List.foldl_nil, pagesOf, List.filterMap_append]
    by_cases hsame : visit.1 = c
    · subst hsame
      rw [Function.update_self]
      have hmain := main_eq hslider hclasses hne (pagesOf visit.1 visits) visit.2 ih
      rw [run] at hmain
      rw [hmain]
      simp [pagesOf]
    · rw [Function.update_of_ne (Ne.symm hsame)]
      simpa [hsame, pagesOf, run] using ih

/-- Over any history of all sessions, the next page of a session draws every
column. There is one for each sensor name of the package, in order; its sensor
has gone through the session's own presses of its own button, and it shows the
position of the slider at the latest of them, sent or not. -/
theorem sensors_follow_presses {σ : Type} [DecidableEq σ] (visits : List (σ × Page)) (c : σ)
    (page : Page) (hrange : ∀ p ∈ pagesOf c visits ++ [page], InRange modules p) :
    let pages := pagesOf c visits ++ [page]
    ∃ sensors columns,
      main slider modules page (run slider modules visits c) = (some sensors, .ok columns) ∧
      (sensors.map Prod.fst).Pairwise (· < ·) ∧
      (∀ name, name ∈ sensors.map Prod.fst ↔
        ∃ members ∈ modules, ∃ type, .sensor type ∈ members ∧ type.name = name) ∧
      (∀ item ∈ sensors, item.2.1 ∈ discoverSensors modules ∧ item.2.1.name = item.1 ∧
        item.2.2 = .run item.2.1.attributes (turnsOf item.1 pages) ∧
        item.2.2.value.value = (latest item.2.1.attributes item.1 pages).value) ∧
      columns = sensors.map fun item => ⟨item.1, item.2.2.value⟩ := by
  intro pages
  have hmain := main_eq hslider hclasses hne (pagesOf c visits) page
    (run_session hslider hclasses hne visits c)
  have hnames : (sensorsAfter modules pages).map Prod.fst =
      (newSensors (discoverSensors modules)).map Prod.fst := by
    rw [sensorsAfter, List.map_map]
    rfl
  refine ⟨_, _, hmain, ?_, ?_, ?_, rfl⟩
  · rw [hnames]
    exact sorted_newSensors modules
  · intro name
    rw [hnames, mem_names]
    constructor
    · rintro ⟨type, htype, hname⟩
      obtain ⟨members, hmembers, hmember⟩ := mem_discoverSensors.mp htype
      exact ⟨members, hmembers, type, hmember, hname⟩
    · rintro ⟨members, hmembers, type, hmember, hname⟩
      exact ⟨type, mem_discoverSensors.mpr ⟨members, hmembers, hmember⟩, hname⟩
  · intro item hitem
    obtain ⟨first, hfirst, rfl⟩ := List.mem_map.mp hitem
    obtain ⟨htype, hname, _⟩ := newSensors_item hfirst
    obtain ⟨lo, hi, _, hwell⟩ := hclasses _ htype
    exact ⟨htype, hname, rfl, value_run_turnsOf hwell fun p hp => hrange p hp first hfirst⟩

end Sessions

/-- The two modules of the package. -/
def sensorsPackage : List (List Member) :=
  [[.baseSensor, .other, .other, .sensor ⟨"Radiation Sensor", radiationSensor⟩],
    [.baseSensor, .other, .other, .sensor ⟨"Thermal Sensor", thermalSensor⟩]]

theorem sensorsPackage_types {type : SensorType} (h : type ∈ discoverSensors sensorsPackage) :
    type = ⟨"Radiation Sensor", radiationSensor⟩ ∨ type = ⟨"Thermal Sensor", thermalSensor⟩ := by
  rw [mem_discoverSensors] at h
  simpa [sensorsPackage] using h

/-- A slider that widens its bounds to a value beyond them and then needs a range. -/
def wideningSlider : Slider := fun minValue maxValue value =>
  (pyMin minValue value).lt (pyMax maxValue value)

theorem wideningSlider_documented : wideningSlider.Documented where
  accepts {minValue maxValue value lo hi} hmin hmax hlt := by
    rintro ⟨q, hq, hlo, hhi⟩
    have hbelow : value.lt minValue = false := by simp [Binary64.lt, hq, hmin, ExtRat.finite, hlo]
    have habove : maxValue.lt value = false := by simp [Binary64.lt, hq, hmax, ExtRat.finite, hhi]
    rw [wideningSlider, pyMin, pyMax, hbelow, habove]
    simp [Binary64.lt, hmin, hmax, ExtRat.finite, hlt]

/-- Both sliders at 60, and both sends fail. -/
def failingPage : Page := fun _ => ⟨0x404E000000000000#64, some (.error .osError)⟩

/-- Both sliders at 50, and no button pressed. -/
def movedPage : Page := fun _ => ⟨0x4049000000000000#64, none⟩

/-- The session whose sends have failed is not held up, and its metrics show
what was not sent, wherever the sliders are now. -/
theorem sensors_follow_presses_failing : ∃ sensors columns,
    main wideningSlider sensorsPackage movedPage
      (run wideningSlider sensorsPackage [(true, failingPage), (false, movedPage)] true) =
        (some sensors, .ok columns) ∧
      ∀ name ∈ ["Radiation Sensor", "Thermal Sensor"], ∃ column ∈ columns,
        column.name = name ∧ column.currentValue.value = some (ExtRat.finite 60) := by
  have hclasses : ∀ type ∈ discoverSensors sensorsPackage,
      ∃ lo hi, lo < hi ∧ type.attributes.WellFormed lo hi := by
    intro type htype
    rcases sensorsPackage_types htype with rfl | rfl
    · exact ⟨0, 1000, by norm_num, radiationSensor_wellFormed⟩
    · exact ⟨-40, 85, by norm_num, thermalSensor_wellFormed⟩
  have hradiation : ⟨"Radiation Sensor", radiationSensor⟩ ∈ discoverSensors sensorsPackage :=
    mem_discoverSensors.mpr ⟨_, List.mem_cons_self, by simp⟩
  have hsixty : Binary64.value 0x404E000000000000#64 = some (ExtRat.finite 60) := by decide
  have hfifty : Binary64.value 0x4049000000000000#64 = some (ExtRat.finite 50) := by decide
  have hrange : ∀ p ∈ pagesOf true [(true, failingPage), (false, movedPage)] ++ [movedPage],
      InRange sensorsPackage p := by
    intro p hp item hitem
    obtain ⟨q, hq, hlo, hhi⟩ : Within 0 85 (p item.1).slider := by
      obtain rfl | rfl : p = failingPage ∨ p = movedPage := by simpa [pagesOf] using hp
      · exact ⟨60, hsixty, by norm_num, by norm_num⟩
      · exact ⟨50, hfifty, by norm_num, by norm_num⟩
    rcases sensorsPackage_types (newSensors_item hitem).1 with htype | htype
    · rw [htype]
      exact (between_iff radiationSensor_wellFormed).mpr ⟨q, hq, hlo, by linarith⟩
    · rw [htype]
      exact (between_iff thermalSensor_wellFormed).mpr ⟨q, hq, by linarith, hhi⟩
  obtain ⟨sensors, columns, hmain, _, hnames, hitems, hcolumns⟩ :=
    sensors_follow_presses wideningSlider_documented hclasses (List.ne_nil_of_mem hradiation)
      [(true, failingPage), (false, movedPage)] true movedPage hrange
  refine ⟨sensors, columns, hmain, fun name hname => ?_⟩
  have hmem : name ∈ sensors.map Prod.fst := by
    rw [hnames]
    simp only [List.mem_cons, List.not_mem_nil, or_false] at hname
    rcases hname with rfl | rfl
    · exact ⟨_, List.mem_cons_self, ⟨"Radiation Sensor", radiationSensor⟩, by simp, rfl⟩
    · exact ⟨_, List.mem_cons_of_mem _ List.mem_cons_self,
        ⟨"Thermal Sensor", thermalSensor⟩, by simp, rfl⟩
  obtain ⟨item, hitem, rfl⟩ := List.mem_map.mp hmem
  refine ⟨⟨item.1, item.2.2.value⟩, by rw [hcolumns]; exact List.mem_map_of_mem hitem, rfl, ?_⟩
  rw [(hitems item hitem).2.2.2]
  exact hsixty

end CfsBridge.SensorManager
