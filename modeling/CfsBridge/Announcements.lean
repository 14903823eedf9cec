import CfsBridge.MissionRuns
import CfsBridge.SolarStatus

/-!
# Announcements

RAD_APP announces that it closes the array in an event, and TO_LAB sends events
down beside the telemetry. The scanner shows the name of the application where
the message should be, so the display learns of a closure from the telemetry
alone. When that packet is lost, no announcement makes up for it.
-/
namespace CfsBridge.Mission
open Bytes Python Cfe FlightApps TelemetryReceiver Processor SolarStatus Channels Transitions
open CfsBridge.Monitor CfsBridge.Parser
open Ieee (Binary32)

variable {cfe : Services} {hms : Timestamp → String} {s s' : System}
variable {es : List Event} {boot : Source → Script}

/-- If the datagram is an event, it is a long event of an application whose name
does not mention the array. Its message may say anything. -/
def Announces (data : Bytes) : Prop :=
  streamWord data = cfeEvsLongEventMsgMid →
    ∃ e : LongEvent, e.encode = data ∧ ¬ Says "SOLAR" e.nameText

/-- What moves the status on the display: a reading above RAD_APP's limit, and
the operator. -/
def mover : Op → Option String
  | .packet _ datagram =>
    (Source.radiation.read datagram.val).bind fun reading =>
      if reading.1.gt RadApp.monitor.limit then some "Closed (FDIR Auto)" else none
  | .update status _ => some status
  | .clear => none

/-! ### Events do not move the status -/

theorem says_solar_parseEvs (e : LongEvent) :
    Says "SOLAR" (parseEvs e.payload) ↔ Says "SOLAR" e.nameText := by
  have hmentions (text : String) : LongEvent.mentions "SOLAR" text = true ↔ Says "SOLAR" text := by
    rw [LongEvent.mentions, Bool.and_self, contains_upper_iff]
  rw [← hmentions, ← hmentions, LongEvent.mentions_parseEvs]

theorem status_announces (before : String) {data : Bytes} (h : Announces data)
    {text : String} (htext : Telemetry.ofDatagram data = .evs text) :
    TelemetryProcessor.statusFromEvs text before = before := by
  have hevs : streamWord data = cfeEvsLongEventMsgMid := by
    by_contra hword
    simp only [Telemetry.ofDatagram] at htext
    split_ifs at htext
  obtain ⟨e, rfl, hname⟩ := h hevs
  rw [LongEvent.ofDatagram_encode] at htext
  cases htext
  rw [statusFromEvs_getD, textEffect, if_neg fun hboth => hname ((says_solar_parseEvs e).mp hboth.1),
    if_neg fun hboth => hname ((says_solar_parseEvs e).mp hboth.1)]
  rfl

/-- A packet moves the status as `mover` says. -/
theorem status_mover (before : String) {op : Op}
    (hgrades : ∀ point, op.radiationPoint = some point →
      Grades Source.radiation.limit Source.radiation.warning point.value point.health)
    (hevents : ∀ now datagram, op = .packet now datagram → Announces datagram.val) :
    op.status before = (mover op).getD before := by
  cases op with
  | update status now => rfl
  | clear => rfl
  | packet now datagram =>
    simp only [Op.status, mover, Source.read]
    cases hdata : Telemetry.ofDatagram datagram.val with
    | radiation value health =>
      have hgrade := hgrades ⟨now, value, health, healthLabels health⟩
        (by simp [Op.radiationPoint, hdata])
      have hcritical : health = 2 ↔ value.gt RadApp.monitor.limit = true :=
        hgrade.critical_iff.trans (Binary32.gt_iff_exceeds radThresholds.limit_value).symm
      simp only [hcritical, Option.bind_some]
      split_ifs <;> rfl
    | evs text => exact status_announces before (hevents now datagram rfl) hdata
    | _ => rfl

/-- After a run of the processor the status is where the last mover left it. -/
theorem solarArrayStatus_run {maxPoints : ℕ} {log : List Op}
    (h : ∀ op ∈ log, ∀ before, op.status before = (mover op).getD before) :
    (TelemetryProcessor.run hms maxPoints log).solarArrayStatus =
      ((log.filterMap mover).getLast?).getD "Unknown" := by
  induction log using List.reverseRecOn with
  | nil => rfl
  | append_singleton log op ih =>
    rw [TelemetryProcessor.run, List.foldl_append, List.foldl_cons, List.foldl_nil,
      TelemetryProcessor.step_solarArrayStatus, ← TelemetryProcessor.run, h op (by simp),
      ih fun op' hop' => h op' (by simp [hop']), List.filterMap_append]
    cases hmover : mover op <;> simp [hmover]

/-! ### Every packet announces -/

/-- The datagrams on their way down and those that have arrived. -/
structure Announced (s : System) : Prop where
  downlink : ∀ data ∈ s.downlink, Announces data
  log : ∀ now datagram, Op.packet now datagram ∈ s.log → Announces datagram.val

/-- Telemetry of a monitor is no event. -/
theorem announces_of_read {k : Source} {data : Bytes} {reading : Binary32 × ℕ}
    (h : k.read data = some reading) : Announces data := by
  intro hword
  rw [Source.read_of_streamWord_ne (by rw [hword]; decide) (by rw [hword]; decide)] at h
  cases h

theorem Announced.step (h : Announced s) (hcfe : cfe.Documented) (hinv : Inv cfe hms s) {e : Event}
    (hother : ∀ data, e = .other data → Announces data) (he : step cfe hms s e = some s') :
    Announced s' where
  downlink data hdata := by
    rcases mem_downlink_step hcfe hinv he hdata with hold | ⟨k, reading, hread⟩ | hnew
    · exact h.downlink data hold
    · exact announces_of_read hread
    · exact hother data hnew
  log now datagram hop := by
    rcases mem_log_step he hop with hold | hclear | ⟨_, _, hupdate⟩ | ⟨_, _, hpacket, hdown⟩
    · exact h.log now datagram hold
    · cases hclear
    · cases hupdate
    · cases hpacket
      exact h.downlink datagram.val hdown

theorem announced_run (hcfe : cfe.Documented) (hms : Timestamp → String) (boot : Source → Script)
    (hother : ∀ data, .other data ∈ es → Announces data)
    (hrun : run (step cfe hms) (start cfe boot) es = some s) : Announced s := by
  have hboth : Inv cfe hms s ∧ ((∀ data, .other data ∈ es → Announces data) → Announced s) := by
    refine run_invariant (fun es s => Inv cfe hms s ∧
      ((∀ data, .other data ∈ es → Announces data) → Announced s)) ?_ ?_ hrun
    · refine ⟨inv_start hcfe hms boot, fun _ => ⟨?_, ?_⟩⟩
      · intro data hdata
        cases hdata
      · intro now datagram hmem
        cases hmem
    · rintro pre s e s' ⟨hinv, hannounced⟩ he
      refine ⟨inv_step hcfe s e s' hinv he, fun hother => ?_⟩
      have hbefore := hannounced fun data hdata => hother data (by simp [hdata])
      exact hbefore.step hcfe hinv (fun data hdata => hother data (by simp [hdata])) he
  exact hboth.2 hother

/-! ### What the display says -/

/-- Only a shown reading above the limit and the operator move the status. -/
theorem mem_movers {log : List Op} (hpressed : ∀ op ∈ log, Pressed op) {status : String}
    (h : status ∈ log.filterMap mover) :
    (∃ button : Operators.Button, status = button.status) ∨
      (status = "Closed (FDIR Auto)" ∧
        ∃ reading ∈ Source.radiation.shown log, reading.Exceeds 150) := by
  obtain ⟨op, hop, hmover⟩ := List.mem_filterMap.mp h
  cases op with
  | clear => cases hmover
  | update status' now =>
    cases hmover
    exact .inl (hpressed _ hop status now rfl)
  | packet now datagram =>
    obtain ⟨reading, hread, hstatus⟩ := Option.bind_eq_some_iff.mp hmover
    split_ifs at hstatus with hgt
    cases hstatus
    have hpoint := Source.radiation.point_packet now datagram
    rw [hread] at hpoint
    refine .inr ⟨rfl, reading.1, ?_, (Binary32.gt_iff_exceeds radThresholds.limit_value).mp hgt⟩
    exact List.mem_map.mpr ⟨_, List.mem_filterMap.mpr ⟨_, hop, hpoint⟩, rfl⟩

/-- In every run, whatever the links do, in which the other telemetry announces
at most: the status is what the last shown reading above 150 or the operator has
made of it, and never one of the two words that the text of an event could set.
As long as no such reading is shown, it is the operator's, whatever RAD_APP has
done and announced. -/
theorem status_from_telemetry_alone (hcfe : cfe.Documented) (hms : Timestamp → String)
    (boot : Source → Script) (hrun : run (step cfe hms) (start cfe boot) es = some s)
    (hother : ∀ data, .other data ∈ es → Announces data) :
    let status := s.receiver.world.solarArrayStatus
    status = ((s.log.filterMap mover).getLast?).getD "Unknown" ∧
      status ≠ "Closed" ∧ status ≠ "Open" ∧
      ((∀ reading ∈ Source.radiation.shown s.log, ¬ reading.Exceeds 150) →
        status = "Unknown" ∨ ∃ button : Operators.Button, status = button.status) := by
  intro status
  have hinv := inv_run hcfe hms boot hrun
  have hannounced := announced_run hcfe hms boot hother hrun
  have hstatus : status = ((s.log.filterMap mover).getLast?).getD "Unknown" := by
    change s.receiver.world.solarArrayStatus = _
    rw [hinv.world]
    apply solarArrayStatus_run
    intro op hop before
    apply status_mover before
    · exact fun point hpoint => (hinv.log op hop .radiation point hpoint).1
    · rintro now datagram rfl
      exact hannounced.log now datagram hop
  have hcases : status = "Unknown" ∨ (∃ button : Operators.Button, status = button.status) ∨
      (status = "Closed (FDIR Auto)" ∧
        ∃ reading ∈ Source.radiation.shown s.log, reading.Exceeds 150) := by
    cases hlast : (s.log.filterMap mover).getLast? with
    | none => exact .inl (by rw [hstatus, hlast]; rfl)
    | some last =>
      rw [hstatus, hlast]
      exact .inr (mem_movers (pressed_run hrun) (List.mem_of_getLast? hlast))
  have hwords (button : Operators.Button) : button.status ≠ "Closed" ∧ button.status ≠ "Open" := by
    cases button <;> decide
  refine ⟨hstatus, ?_, ?_, ?_⟩
  · rcases hcases with h | ⟨button, h⟩ | ⟨h, _⟩ <;> rw [h]
    · decide
    · exact (hwords button).1
    · decide
  · rcases hcases with h | ⟨button, h⟩ | ⟨h, _⟩ <;> rw [h]
    · decide
    · exact (hwords button).2
    · decide
  · intro hnone
    rcases hcases with h | h | ⟨_, reading, hshown, hexceeds⟩
    · exact .inl h
    · exact .inr h
    · exact absurd hexceeds (hnone reading hshown)

/-- RAD_APP closes the array for a reading of 200.0. Its telemetry is lost, its
announcement arrives. -/
def announcedRun : List Event := [
  .sense .radiation ⟨.updateAndSend 0x4069000000000000#64, .ok 12⟩, .ingest,
  .turn .radiation (delivery hotCommand ⟨0, 0⟩), .fault .downlink (.drop 0),
  .other LongEvent.solarArrayClosed.encode, .arrive 5]

/-- The array is closed, the announcement says so, and the display does not. -/
theorem status_from_telemetry_alone_lost :
    ∃ s, run (step ccsdsV1 fun _ => "00:00:00") booted announcedRun = some s ∧
      (s.task .radiation).data.actions.countP (RequestThresholds.closes ccsdsV1) = 1 ∧
      s.log.length = 1 ∧ s.receiver.world.solarArrayStatus = "Unknown" := by
  have hends : (run (step ccsdsV1 fun _ => "00:00:00") booted announcedRun).map
      (fun s => ((s.task .radiation).data.actions.countP (RequestThresholds.closes ccsdsV1),
        s.log.length, s.log.filterMap mover)) = some (1, 1, []) := by decide +kernel
  obtain ⟨s, hrun, hviews⟩ := Option.map_eq_some_iff.mp hends
  obtain ⟨hclosures, hrest⟩ := Prod.mk.inj hviews
  obtain ⟨hlength, hmovers⟩ := Prod.mk.inj hrest
  have hother : ∀ data, .other data ∈ announcedRun → Announces data := by
    intro data hdata hword
    have heq : data = LongEvent.solarArrayClosed.encode := by simpa [announcedRun] using hdata
    exact ⟨LongEvent.solarArrayClosed, heq.symm, by decide +kernel⟩
  have hstatus := (status_from_telemetry_alone ccsdsV1_documented _ _ hrun hother).1
  rw [hmovers] at hstatus
  exact ⟨s, hrun, hclosures, hlength, hstatus⟩

end CfsBridge.Mission
