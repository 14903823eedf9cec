import CfsBridge.MissionFlow

/-!
# Runs of the mission

What holds of every run, whatever the order of events. The ground station shows
what was sent as far as the links keep it, and never anything else; the array
is closed on account of readings that were sent; and when nobody interferes,
everything in transit gets through.
-/
namespace CfsBridge.Mission
open Bytes Python Cfe FlightApps TelemetryReceiver Processor Sensors Channels Transitions
open CfsBridge.Monitor CfsBridge.Parser
open Ieee (Binary32 ExtRat)

variable {D : Discipline} {cfe : Services} {hms : Timestamp → String} {s : System}
variable {es : List Event} {boot : Source → Script}

/-- The readings that are neither shown nor lost, those nearest to the display first. -/
def System.inTransit (k : Source) (s : System) : List Binary32 :=
  s.downlink.flatMap k.reported ++ s.ascending k

/-! ### Networks -/

/-- A network that loses and reorders messages without repeating any. -/
def Event.repeats : Event → Bool
  | .fault _ (.duplicate _) => true
  | _ => false

theorem allowed_arbitrary (cfe : Services) (s : System) (e : Event) :
    Allowed .arbitrary cfe s e := by
  cases e with
  | fault link f => exact Discipline.arbitrary_tolerates f
  | ingest => exact fun _ _ _ _ _ _ => Discipline.arbitrary_tolerates _
  | _ => trivial

theorem allowed_lossyUnordered {e : Event} (h : e.repeats = false) (cfe : Services) (s : System) :
    Allowed .lossyUnordered cfe s e := by
  cases e with
  | fault link f =>
    cases f with
    | drop i => exact Discipline.lossyUnordered_tolerates_drop i
    | swap i => exact Discipline.lossyUnordered_tolerates_swap i
    | duplicate i => cases h
  | ingest => exact fun _ _ _ _ _ _ => Discipline.lossyUnordered_tolerates_drop _
  | _ => trivial

/-! ### What is shown -/

/-- In every run whose faults the discipline allows, what is shown followed by
what is in transit stands in its relation to what was sent. The charts are the
end of what is shown, and the status bar its last reading. -/
theorem readings_conserved (hcfe : cfe.Documented) (hms : Timestamp → String)
    (boot : Source → Script) (hrun : run (step cfe hms) (start cfe boot) es = some s)
    (hallowed : Meets (step cfe hms) (start cfe boot) (fun _ s e => Allowed D cfe s e) es)
    (k : Source) :
    D.Rel (k.shown s.log ++ s.inTransit k) (s.sent k) ∧
      (k.series s.receiver.world).map TelemetryPoint.value =
        (k.shown (Runs.sinceLast Op.clears s.log)).rtake 200 ∧
      (k.last s.receiver.world).map TelemetryPoint.value = (k.shown s.log).getLast? := by
  obtain ⟨hup, hdown⟩ := conserved hcfe hms boot hrun hallowed k
  have hworld := (inv_run hcfe hms boot hrun).world
  rw [hworld]
  refine ⟨?_, k.series_run hms 200 s.log⟩
  have hall := D.trans (Discipline.append_right hdown (s.ascending k)) hup
  rwa [System.descending, List.append_assoc] at hall

/-- Two readings are sent, 200.0 is lost, and 120.0 is shown. -/
def lossyRun : List Event := [
  .sense .radiation ⟨.updateAndSend 0x4069000000000000#64, .ok 12⟩,
  .sense .radiation ⟨.updateAndSend 0x405E000000000000#64, .ok 12⟩,
  .fault .uplink (.drop 0), .ingest,
  .turn .radiation (delivery (EndToEnd.exactly
    [0x18, 0x82, 0xC0, 0x01, 0x00, 0x05, 0x02, 0x11, 0x42, 0xF0, 0x00, 0x00] rfl) ⟨0, 0⟩),
  .arrive 5]

/-- A mission whose monitors start without an error. -/
def booted : System := start ccsdsV1 fun _ => nominal []

theorem readings_conserved_lossy :
    ∃ s, run (step ccsdsV1 fun _ => "00:00:00") booted lossyRun = some s ∧
      (Source.radiation.shown s.log ++ s.inTransit .radiation).Subperm (s.sent .radiation) ∧
      Source.radiation.shown s.log = [0x42F00000#32] ∧
      s.sent .radiation = [0x43480000#32, 0x42F00000#32] := by
  have hends : (run (step ccsdsV1 fun _ => "00:00:00") booted lossyRun).map
      (fun s => (Source.radiation.shown s.log, s.sent .radiation)) =
        some ([0x42F00000#32], [0x43480000#32, 0x42F00000#32]) := by decide +kernel
  obtain ⟨s, hrun, hviews⟩ := Option.map_eq_some_iff.mp hends
  obtain ⟨hshown, hsent⟩ := Prod.mk.inj hviews
  have hrepeats : ∀ e ∈ lossyRun, e.repeats = false := by decide
  have hconserved := readings_conserved ccsdsV1_documented _ _ hrun
    (meets_of_forall fun e he s => allowed_lossyUnordered (hrepeats e he) ccsdsV1 s) .radiation
  exact ⟨s, hrun, hconserved.1, hshown, hsent⟩

/-! ### Nothing else is shown -/

/-- The points that the dashboard has of a source: its chart and its status bar. -/
def displayed (k : Source) (p : TelemetryProcessor) : List TelemetryPoint :=
  k.series p ++ (k.last p).toList

theorem mem_log_of_displayed {k : Source} {maxPoints : ℕ} {log : List Op} {point : TelemetryPoint}
    (h : point ∈ displayed k (TelemetryProcessor.run hms maxPoints log)) :
    ∃ op ∈ log, k.point op = some point := by
  have hview {xs : List TelemetryPoint} (hxs : xs ⊆ log.filterMap k.point) (hx : point ∈ xs) :
      ∃ op ∈ log, k.point op = some point := List.mem_filterMap.mp (hxs hx)
  have hrecent (emit : Op → Option TelemetryPoint) :
      ((Runs.sinceLast Op.clears log).filterMap emit).rtake maxPoints ⊆ log.filterMap emit := by
    refine List.Subset.trans (List.drop_subset _ _) ?_
    exact ((List.rtakeWhile_suffix _ log).sublist.filterMap emit).subset
  have hlast (emit : Op → Option TelemetryPoint) :
      ((log.filterMap emit).getLast?).toList ⊆ log.filterMap emit := by
    intro x hx
    exact List.mem_of_getLast? (Option.mem_toList.mp hx)
  obtain ⟨_, hrad, htherm, _, _, hlastRad, hlastTherm, _⟩ := run_histories hms maxPoints log
  cases List.mem_append.mp h with
  | inl hseries =>
    cases k with
    | radiation => exact hview (hrecent _) (hrad ▸ hseries)
    | thermal => exact hview (hrecent _) (htherm ▸ hseries)
  | inr hbar =>
    cases k with
    | radiation => exact hview (hlast _) (hlastRad ▸ hbar)
    | thermal => exact hview (hlast _) (hlastTherm ▸ hbar)

/-- A reading of the thermal range is not critical. -/
theorem not_exceeds_of_within {value : Binary32}
    (h : ∃ q, value.value = some (ExtRat.finite q) ∧ Source.thermal.lo ≤ q ∧
      q ≤ Source.thermal.hi) : ¬ value.Exceeds Source.thermal.limit := by
  obtain ⟨q, hq, -, hhi⟩ := h
  rw [Binary32.exceeds_iff_lt hq]
  simp only [Source.hi, Source.limit] at hhi ⊢
  linarith

theorem shown_subset_sent (hcfe : cfe.Documented) (hms : Timestamp → String)
    (boot : Source → Script) (hrun : run (step cfe hms) (start cfe boot) es = some s)
    (k : Source) : k.shown s.log ⊆ s.sent k ∧ s.flown k cfe ⊆ s.sent k := by
  have hallowed : Meets (step cfe hms) (start cfe boot)
      (fun _ s e => Allowed .arbitrary cfe s e) es :=
    meets_of_forall fun e _ s => allowed_arbitrary cfe s e
  have hall := (readings_conserved hcfe hms boot hrun hallowed k).1
  have hup := (conserved hcfe hms boot hrun hallowed k).1
  exact ⟨List.Subset.trans (List.subset_append_left _ _) (Discipline.arbitrary.subset hall),
    List.Subset.trans (List.subset_append_left _ _) (Discipline.arbitrary.subset hup)⟩

/-- In every run, whatever the links do: each point of the dashboard shows a
reading that its sensor has sent, a value of the sensor's range, with the grade
and the label that the reading deserves. No temperature is ever critical. -/
theorem displayed_points_genuine (hcfe : cfe.Documented) (hms : Timestamp → String)
    (boot : Source → Script) (hrun : run (step cfe hms) (start cfe boot) es = some s)
    (k : Source) (point : TelemetryPoint) (hpoint : point ∈ displayed k s.receiver.world) :
    point.value ∈ s.sent k ∧
      (∃ q, point.value.value = some (ExtRat.finite q) ∧ k.lo ≤ q ∧ q ≤ k.hi) ∧
      Grades k.limit k.warning point.value point.health ∧
      point.healthLabel = healthLabels point.health ∧ (k = .thermal → point.health ≠ 2) := by
  have hinv := inv_run hcfe hms boot hrun
  rw [hinv.world] at hpoint
  obtain ⟨op, hop, hemit⟩ := mem_log_of_displayed hpoint
  have hshown : point.value ∈ k.shown s.log :=
    List.mem_map_of_mem (List.mem_filterMap.mpr ⟨op, hop, hemit⟩)
  have hsent := (shown_subset_sent hcfe hms boot hrun k).1 hshown
  obtain ⟨packet, hpacket, hvalue⟩ := List.mem_map.mp hsent
  have hwithin := (hinv.transmitted k packet hpacket).within
  rw [hvalue] at hwithin
  obtain ⟨hgrades, hlabel⟩ := hinv.log op hop k point hemit
  refine ⟨hsent, hwithin, hgrades, hlabel, ?_⟩
  rintro rfl h2
  exact not_exceeds_of_within hwithin (hgrades.critical_iff.mp h2)

/-- One reading of 200.0 that the uplink repeats. -/
def repeatedRun : List Event := [
  .sense .radiation ⟨.updateAndSend 0x4069000000000000#64, .ok 12⟩,
  .fault .uplink (.duplicate 0), .ingest, .ingest,
  .turn .radiation (delivery hotCommand ⟨0, 0⟩), .turn .radiation (delivery hotCommand ⟨0, 0⟩),
  .arrive 5, .arrive 6]

theorem displayed_points_genuine_repeated :
    ∃ s point, run (step ccsdsV1 fun _ => "00:00:00") booted repeatedRun = some s ∧
      s.sent .radiation = [0x43480000#32] ∧
      (displayed .radiation s.receiver.world).length = 3 ∧
      point ∈ displayed .radiation s.receiver.world ∧ point.health = 2 ∧
      point.value ∈ s.sent .radiation ∧ point.healthLabel = healthLabels point.health := by
  have hends : (run (step ccsdsV1 fun _ => "00:00:00") booted repeatedRun).map
      (fun s => (s.sent .radiation, displayed .radiation s.receiver.world)) =
        some ([0x43480000#32], [⟨5, 0x43480000#32, 2, "CRITICAL"⟩, ⟨6, 0x43480000#32, 2, "CRITICAL"⟩,
          ⟨6, 0x43480000#32, 2, "CRITICAL"⟩]) := by decide +kernel
  obtain ⟨s, hrun, hviews⟩ := Option.map_eq_some_iff.mp hends
  obtain ⟨hsent, hdisplayed⟩ := Prod.mk.inj hviews
  have hpoint : ⟨6, 0x43480000#32, 2, "CRITICAL"⟩ ∈ displayed .radiation s.receiver.world := by
    rw [hdisplayed]
    decide
  have hgenuine := displayed_points_genuine ccsdsV1_documented _ _ hrun .radiation _ hpoint
  exact ⟨s, _, hrun, hsent, by rw [hdisplayed]; rfl, hpoint, rfl, hgenuine.1, hgenuine.2.2.2.1⟩

/-! ### The array is closed for cause -/

/-- The operator's updates are those of the two buttons. -/
def Pressed (op : Op) : Prop :=
  ∀ status now, op = .update status now → ∃ button : Operators.Button, status = button.status

theorem pressed_run (hrun : run (step cfe hms) (start cfe boot) es = some s) :
    ∀ op ∈ s.log, Pressed op := by
  refine run_invariant (fun _ s => ∀ op ∈ s.log, Pressed op) ?_ ?_ hrun
  · intro op hop
    cases hop
  · rintro _ s e s' h he op hop status now rfl
    rcases mem_log_step he hop with hold | hclear | ⟨button, _, hupdate⟩ | ⟨_, _, hpacket, _⟩
    · exact h _ hold status now rfl
    · cases hclear
    · cases hupdate
      exact ⟨button, rfl⟩
    · cases hpacket

/-- One reading of 200.0 on links without faults. -/
def closingRun : List Event := [
  .sense .radiation ⟨.updateAndSend 0x4069000000000000#64, .ok 12⟩, .ingest,
  .turn .radiation (delivery hotCommand ⟨0, 0⟩), .arrive 5]

/-- The messages in transit, by the number of events that each still needs. -/
def System.pending (s : System) : ℕ :=
  3 * s.uplink.length + 2 * ((s.pipe .radiation).length + (s.pipe .thermal).length) +
    s.downlink.length

variable {path sent : Source → List Binary32}

/-- A message of at least eight bytes as a monitor receives it. -/
def received (message : Bytes) (h : 8 ≤ message.length) : Turn :=
  delivery (padded message h 0) ⟨0, 0⟩

/-- The calls of a sensor in a run. -/
def sensorTurns (k : Source) (es : List Event) : List SensorTurn :=
  es.filterMap fun e => match e with
    | .sense j turn => if j = k then some turn else none
    | _ => none

/-- The calls of the dispatcher in a run. -/
def dispatcherTurns (es : List Event) : List Dispatcher.Turn :=
  es.filterMap fun e => match e with
    | .command c sendto => some ⟨c.op, sendto⟩
    | _ => none

/-- The turns of a monitor in a run. -/
def monitorTurns (k : Source) (es : List Event) : List Turn :=
  es.filterMap fun e => match e with
    | .turn j turn => if j = k then some turn else none
    | _ => none

/-- The parties after the given events, each by its own program. -/
structure Separate (cfe : Services) (boot : Source → Script) (es : List Event) (s : System) :
    Prop where
  sensor : ∀ k, s.sensor k = BaseSensor.run k.sensorClass (sensorTurns k es)
  dispatcher : s.dispatcher = Dispatcher.CommandDispatcher.run (dispatcherTurns es)
  task : ∀ k, s.task k = (monitorTurns k es).foldl (fun task turn => task.turn k.monitor cfe turn)
    ⟨k.monitor.startUp cfe (boot k), false⟩

theorem sensorTurns_append (k : Source) (es es' : List Event) :
    sensorTurns k (es ++ es') = sensorTurns k es ++ sensorTurns k es' := List.filterMap_append

theorem dispatcherTurns_append (es es' : List Event) :
    dispatcherTurns (es ++ es') = dispatcherTurns es ++ dispatcherTurns es' :=
  List.filterMap_append

theorem monitorTurns_append (k : Source) (es es' : List Event) :
    monitorTurns k (es ++ es') = monitorTurns k es ++ monitorTurns k es' := List.filterMap_append

/-- One more event, by what it does to each party. -/
theorem Separate.concat {pre : List Event} (h : Separate cfe boot pre s) {e : Event} {s' : System}
    (hsensor : ∀ k, s'.sensor k =
      (sensorTurns k [e]).foldl (BaseSensor.call k.sensorClass) (s.sensor k))
    (hdispatcher : s'.dispatcher =
      (dispatcherTurns [e]).foldl (fun d turn => (d.call turn).2) s.dispatcher)
    (htask : ∀ k, s'.task k = (monitorTurns k [e]).foldl
      (fun task turn => Task.turn k.monitor cfe turn task) (s.task k)) :
    Separate cfe boot (pre ++ [e]) s' where
  sensor k := by rw [hsensor, h.sensor, sensorTurns_append, BaseSensor.run, BaseSensor.run,
    List.foldl_append]
  dispatcher := by rw [hdispatcher, h.dispatcher, dispatcherTurns_append,
    Dispatcher.CommandDispatcher.run, Dispatcher.CommandDispatcher.run, List.foldl_append]
  task k := by rw [htask, h.task, monitorTurns_append, List.foldl_append]

theorem separate_step {pre : List Event} (h : Separate cfe boot pre s) {e : Event} {s' : System}
    (he : step cfe hms s e = some s') : Separate cfe boot (pre ++ [e]) s' := by
  cases e with
  | sense k turn =>
    cases he
    refine h.concat (fun j => ?_) rfl fun j => rfl
    by_cases hj : k = j
    · subst hj
      simp [sense, sensorTurns]
    · simp [sense, sensorTurns, hj, Ne.symm hj]
  | command c sendto =>
    cases he
    exact h.concat (fun j => rfl) rfl fun j => rfl
  | ingest =>
    obtain ⟨_, _, _, rfl⟩ := ingest_eq_some_iff.mp he
    exact h.concat (fun j => rfl) rfl fun j => rfl
  | turn k turn =>
    have hadvance {s : System} (j : Source) : (advance cfe k turn s).task j =
        (monitorTurns j [.turn k turn]).foldl
          (fun task turn => Task.turn j.monitor cfe turn task) (s.task j) := by
      by_cases hj : k = j
      · subst hj
        simp [advance, monitorTurns]
      · simp [advance, monitorTurns, hj, Ne.symm hj]
    rcases takeTurn_cases he with ⟨_, _, _, _, _, rfl⟩ | ⟨_, rfl⟩
    · exact h.concat (fun j => rfl) rfl fun j => hadvance j
    · exact h.concat (fun j => rfl) rfl fun j => hadvance j
  | other data =>
    simp only [step] at he
    split_ifs at he
    cases he
    exact h.concat (fun j => rfl) rfl fun j => rfl
  | arrive now =>
    obtain ⟨_, _, _, rfl⟩ := arrive_eq_some_iff.mp he
    exact h.concat (fun j => rfl) rfl fun j => rfl
  | update button now =>
    cases he
    exact h.concat (fun j => rfl) rfl fun j => rfl
  | clear =>
    cases he
    exact h.concat (fun j => rfl) rfl fun j => rfl
  | fault link f =>
    cases he
    cases link <;> exact h.concat (fun j => rfl) rfl fun j => rfl

/-- In every interleaving each party is where its own program takes it: the
sensors and the dispatcher on their own calls, each monitor's `Main` on its own
turns, and the processor on the packets that arrived and the operator's presses. -/
theorem parties_run_alone (hcfe : cfe.Documented) (hms : Timestamp → String)
    (boot : Source → Script) (hrun : run (step cfe hms) (start cfe boot) es = some s) :
    (∀ k, s.sensor k = BaseSensor.run k.sensorClass (sensorTurns k es)) ∧
      s.dispatcher = Dispatcher.CommandDispatcher.run (dispatcherTurns es) ∧
      (∀ k, (s.task k).data =
        k.monitor.main cfe { boot k with turns := monitorTurns k es }) ∧
      s.receiver.world = TelemetryProcessor.run hms 200 s.log := by
  have hseparate : Separate cfe boot es s :=
    run_invariant (Separate cfe boot)
      ⟨fun _ => rfl, rfl, fun _ => rfl⟩ (fun pre s e s' h he => separate_step h he) hrun
  refine ⟨hseparate.sensor, hseparate.dispatcher, fun k => ?_, (inv_run hcfe hms boot hrun).world⟩
  rw [hseparate.task k]
  exact Task.data_foldl k.monitor cfe (monitorTurns k es) _

/-- RAD_APP in the run above, as if it were alone. -/
theorem parties_run_alone_closing :
    ∃ s, run (step ccsdsV1 fun _ => "00:00:00") booted closingRun = some s ∧
      (s.task .radiation).data = RadApp.main ccsdsV1 (nominal [hotCommand]) := by
  have hends : (run (step ccsdsV1 fun _ => "00:00:00") booted closingRun).isSome = true := by
    decide +kernel
  obtain ⟨s, hrun⟩ := Option.isSome_iff_exists.mp hends
  exact ⟨s, hrun, (parties_run_alone ccsdsV1_documented _ _ hrun).2.2.1 .radiation⟩

end CfsBridge.Mission
