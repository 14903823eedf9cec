import CfsBridge.Runs
import CfsBridge.TelemetryReceiver

/-!
# The telemetry processor

`TelemetryProcessor` files each entry into four ring buffers and keeps the
latest reading of each sensor. Every view of its state follows one law of
runs: what an operation emits is read off the datagram alone, and the buffers
hold the last emissions since the logs were cleared.
-/
namespace CfsBridge.Processor
open Bytes Python Runs TelemetryReceiver
open CfsBridge.Parser
open Ieee (Binary32)

structure TelemetryPoint where
  timestamp : Timestamp
  value : Binary32
  health : ℕ
  healthLabel : String
  deriving DecidableEq, Repr

structure TelemetryProcessor where
  radiationHistory : RingBuffer TelemetryPoint
  thermalHistory : RingBuffer TelemetryPoint
  eventLog : RingBuffer String
  rawLog : RingBuffer String
  solarArrayStatus : String
  lastRadiation : Option TelemetryPoint
  lastThermal : Option TelemetryPoint

namespace TelemetryProcessor

def init (maxPoints : ℕ) : TelemetryProcessor where
  radiationHistory := .empty _ maxPoints
  thermalHistory := .empty _ maxPoints
  eventLog := .empty _ 500
  rawLog := .empty _ 200
  solarArrayStatus := "Unknown"
  lastRadiation := none
  lastThermal := none

/-- The point of a sensor entry; `parsed["value"]` raises when the key is not set. -/
def pointOf (entry : RawTelemetryEntry) : Except PyException TelemetryPoint :=
  match entry.parsed.value with
  | none => .error (.keyError "value")
  | some value => .ok {
      timestamp := entry.timestamp
      value := value
      health := entry.parsed.health.getD 0
      healthLabel := entry.parsed.healthLabel.getD "NOMINAL" }

section Lines

-- `strftime("%H:%M:%S", localtime(t))`, which depends on the host's time zone
variable (hms : Timestamp → String)

def rawLine (entry : RawTelemetryEntry) : String :=
  let ts := hms entry.timestamp
  let mid := entry.parsed.midHex.getD "????"
  let size := entry.size
  let head := String.ofList (entry.rawHex.toList.take 80)
  s!"[{ts}] MID={mid} Size={size}B | {head}"

def radiationCriticalLine (now : Timestamp) (value : Binary32) : String :=
  let ts := hms now
  let reading := value.fixed1
  s!"[{ts}] FDIR: Radiation CRITICAL ({reading} mSv/h) — Solar Array Auto-Closed"

def thermalCriticalLine (now : Timestamp) (value : Binary32) : String :=
  let ts := hms now
  let reading := value.fixed1
  s!"[{ts}] FDIR: Temperature CRITICAL ({reading} C)"

def evsLine (now : Timestamp) (text : String) : String :=
  let ts := hms now
  s!"[{ts}] EVS: {text}"

def operatorLine (now : Timestamp) (status : String) : String :=
  let ts := hms now
  s!"[{ts}] OPERATOR: Solar Array manually set to '{status}'"

end Lines

/-- The solar array status after an EVS message, by its keywords. -/
def statusFromEvs (text status : String) : String :=
  if contains "SOLAR" (upper text) && contains "CLOSE" (upper text) then "Closed"
  else if contains "SOLAR" (upper text) && contains "OPEN" (upper text) then "Open"
  else status

/-- `process`: the state it leaves, and whether it returned or raised. -/
def process (hms : Timestamp → String) (entry : RawTelemetryEntry) (p : TelemetryProcessor) :
    Except PyException Unit × TelemetryProcessor :=
  let p := { p with rawLog := p.rawLog.append (rawLine hms entry) }
  match entry.parsed.type.getD .unknown with
  | .radiation =>
    match pointOf entry with
    | .error e => (.error e, p)
    | .ok point =>
      let p := { p with
        radiationHistory := p.radiationHistory.append point
        lastRadiation := some point }
      if point.health = 2 then
        (.ok (), { p with
          solarArrayStatus := "Closed (FDIR Auto)"
          eventLog := p.eventLog.append (radiationCriticalLine hms entry.timestamp point.value) })
      else (.ok (), p)
  | .thermal =>
    match pointOf entry with
    | .error e => (.error e, p)
    | .ok point =>
      let p := { p with
        thermalHistory := p.thermalHistory.append point
        lastThermal := some point }
      if point.health = 2 then
        (.ok (), { p with
          eventLog := p.eventLog.append (thermalCriticalLine hms entry.timestamp point.value) })
      else (.ok (), p)
  | .evs =>
    let text := entry.parsed.eventText.getD ""
    (.ok (), { p with
      eventLog := p.eventLog.append (evsLine hms entry.timestamp text)
      solarArrayStatus := statusFromEvs text p.solarArrayStatus })
  | .unknown => (.ok (), p)

/-- `update_solar_array_status` at time `now`. -/
def updateSolarArrayStatus (hms : Timestamp → String) (status : String) (now : Timestamp)
    (p : TelemetryProcessor) : TelemetryProcessor :=
  { p with
    solarArrayStatus := status
    eventLog := p.eventLog.append (operatorLine hms now status) }

/-- The `Clear Logs` button. -/
def clearLogs (p : TelemetryProcessor) : TelemetryProcessor :=
  { p with
    eventLog := p.eventLog.clear
    rawLog := p.rawLog.clear
    radiationHistory := p.radiationHistory.clear
    thermalHistory := p.thermalHistory.clear }

/-- `get_radiation_series`. -/
def getRadiationSeries (p : TelemetryProcessor) : List TelemetryPoint := p.radiationHistory.items

/-- `get_thermal_series`. -/
def getThermalSeries (p : TelemetryProcessor) : List TelemetryPoint := p.thermalHistory.items

/-- `get_events`. -/
def getEvents (p : TelemetryProcessor) (count : ℤ) : List String :=
  sliceFrom (-count) p.eventLog.items

/-- `get_raw_log`. -/
def getRawLog (p : TelemetryProcessor) (count : ℤ) : List String :=
  sliceFrom (-count) p.rawLog.items

end TelemetryProcessor

/-! ### Operations and what they emit -/

/-- A datagram that the receiver turns into an entry. -/
abbrev Datagram := { data : Bytes // 6 ≤ data.length }

inductive Op
  | packet (now : Timestamp) (datagram : Datagram)
  | update (status : String) (now : Timestamp)
  | clear

namespace Op

def clears : Op → Bool
  | .clear => true
  | _ => false

/-- The point that a radiation packet adds. -/
def radiationPoint : Op → Option TelemetryPoint
  | .packet now datagram =>
    match Telemetry.ofDatagram datagram with
    | .radiation value health => some ⟨now, value, health, healthLabels health⟩
    | _ => none
  | _ => none

/-- The point that a thermal packet adds. -/
def thermalPoint : Op → Option TelemetryPoint
  | .packet now datagram =>
    match Telemetry.ofDatagram datagram with
    | .thermal value health => some ⟨now, value, health, healthLabels health⟩
    | _ => none
  | _ => none

/-- The raw line that any packet adds. -/
def rawLine (hms : Timestamp → String) : Op → Option String
  | .packet now datagram => some (TelemetryProcessor.rawLine hms (entryOf now datagram))
  | _ => none

/-- The event line that a critical reading, an EVS message or the operator adds. -/
def eventLine (hms : Timestamp → String) : Op → Option String
  | .packet now datagram =>
    match Telemetry.ofDatagram datagram with
    | .radiation value health =>
      if health = 2 then some (TelemetryProcessor.radiationCriticalLine hms now value) else none
    | .thermal value health =>
      if health = 2 then some (TelemetryProcessor.thermalCriticalLine hms now value) else none
    | .evs text => some (TelemetryProcessor.evsLine hms now text)
    | _ => none
  | .update status now => some (TelemetryProcessor.operatorLine hms now status)
  | .clear => none

/-- The solar array status after an operation. -/
def status (before : String) : Op → String
  | .packet _ datagram =>
    match Telemetry.ofDatagram datagram with
    | .radiation _ health => if health = 2 then "Closed (FDIR Auto)" else before
    | .evs text => TelemetryProcessor.statusFromEvs text before
    | _ => before
  | .update status _ => status
  | .clear => before

end Op

namespace TelemetryProcessor

def step (hms : Timestamp → String) (p : TelemetryProcessor) : Op → TelemetryProcessor
  | .packet now datagram => (p.process hms (entryOf now datagram)).2
  | .update status now => p.updateSolarArrayStatus hms status now
  | .clear => p.clearLogs

/-- A run of operations on a new processor. -/
def run (hms : Timestamp → String) (maxPoints : ℕ) (ops : List Op) : TelemetryProcessor :=
  ops.foldl (step hms) (init maxPoints)

/-! ### One step, seen through each view -/

variable {hms : Timestamp → String}

/-- Processing a received datagram never raises, and changes each view by what
the datagram emits for it. -/
theorem process_entryOf (now : Timestamp) (datagram : Datagram) (p : TelemetryProcessor) :
    let op := Op.packet now datagram
    p.process hms (entryOf now datagram) = (.ok (), {
      radiationHistory := op.radiationPoint.elim p.radiationHistory p.radiationHistory.append
      thermalHistory := op.thermalPoint.elim p.thermalHistory p.thermalHistory.append
      eventLog := (op.eventLine hms).elim p.eventLog p.eventLog.append
      rawLog := p.rawLog.append (rawLine hms (entryOf now datagram))
      solarArrayStatus := op.status p.solarArrayStatus
      lastRadiation := op.radiationPoint.or p.lastRadiation
      lastThermal := op.thermalPoint.or p.lastThermal }) := by
  intro op
  have htime : (entryOf now datagram).timestamp = now := rfl
  have hparsed := parsed_entryOf datagram.2 now
  generalize entryOf now datagram = entry at htime hparsed ⊢
  unfold process pointOf
  simp only [htime, hparsed, op, Op.radiationPoint, Op.thermalPoint, Op.eventLine, Op.status]
  cases Telemetry.ofDatagram datagram.1 with
  | radiation value health =>
    by_cases hcritical : health = 2
    · simp [report, hcritical]
    · simp [report, hcritical]
  | thermal value health =>
    by_cases hcritical : health = 2
    · simp [report, hcritical]
    · simp [report, hcritical]
  | evs text => rfl
  | unknown payload => rfl
  | headerOnly => rfl
  | short => rfl

/-- A ring buffer follows the law of runs when each kind of operation does. -/
theorem logs_of_op {α : Type} {view : TelemetryProcessor → RingBuffer α} {emit : Op → Option α}
    (hpacket : ∀ p now datagram, view (p.process hms (entryOf now datagram.val)).2 =
      (emit (.packet now datagram)).elim (view p) (view p).append)
    (hupdate : ∀ p status now, view (p.updateSolarArrayStatus hms status now) =
      (emit (.update status now)).elim (view p) (view p).append)
    (hclear : ∀ p, view p.clearLogs = (view p).clear) : Logs (step hms) view Op.clears emit where
  clear_step p op h := by
    cases op with
    | clear => exact hclear p
    | packet now datagram => cases h
    | update status now => cases h
  emit_step p op h := by
    cases op with
    | clear => cases h
    | packet now datagram => exact hpacket p now datagram
    | update status now => exact hupdate p status now

theorem logs_radiationHistory :
    Logs (step hms) radiationHistory Op.clears Op.radiationPoint :=
  logs_of_op (fun p now datagram => by rw [process_entryOf]) (fun _ _ _ => rfl) fun _ => rfl

theorem logs_thermalHistory : Logs (step hms) thermalHistory Op.clears Op.thermalPoint :=
  logs_of_op (fun p now datagram => by rw [process_entryOf]) (fun _ _ _ => rfl) fun _ => rfl

theorem logs_eventLog : Logs (step hms) eventLog Op.clears (Op.eventLine hms) :=
  logs_of_op (fun p now datagram => by rw [process_entryOf]) (fun _ _ _ => rfl) fun _ => rfl

theorem logs_rawLog : Logs (step hms) rawLog Op.clears (Op.rawLine hms) :=
  logs_of_op (fun p now datagram => by rw [process_entryOf]; rfl) (fun _ _ _ => rfl) fun _ => rfl

/-- An optional field remembers its latest effect when each kind of operation does. -/
theorem latest_of_op {α : Type} {view : TelemetryProcessor → Option α} {effect : Op → Option α}
    (hpacket : ∀ p now datagram, view (p.process hms (entryOf now datagram.val)).2 =
      (effect (.packet now datagram)).or (view p))
    (hupdate : ∀ p status now, view (p.updateSolarArrayStatus hms status now) =
      (effect (.update status now)).or (view p))
    (hclear : ∀ p, view p.clearLogs = (effect .clear).or (view p)) :
    Latest (step hms) view effect := by
  intro p op
  cases op with
  | packet now datagram => exact hpacket p now datagram
  | update status now => exact hupdate p status now
  | clear => exact hclear p

theorem latest_lastRadiation : Latest (step hms) lastRadiation Op.radiationPoint :=
  latest_of_op (fun p now datagram => by rw [process_entryOf]) (fun _ _ _ => rfl) fun _ => rfl

theorem latest_lastThermal : Latest (step hms) lastThermal Op.thermalPoint :=
  latest_of_op (fun p now datagram => by rw [process_entryOf]) (fun _ _ _ => rfl) fun _ => rfl

theorem step_solarArrayStatus (p : TelemetryProcessor) (op : Op) :
    (step hms p op).solarArrayStatus = op.status p.solarArrayStatus := by
  cases op with
  | packet now datagram => rw [step, process_entryOf]
  | update status now => rfl
  | clear => rfl

end TelemetryProcessor

/-! ### Whole runs -/

/-- The operations that set the status by anything but a radiation packet. -/
def Op.overrides : Op → Bool
  | .packet _ datagram =>
    match Telemetry.ofDatagram datagram with
    | .evs _ => true
    | _ => false
  | .update _ _ => true
  | .clear => false

/-- Without them the status tells whether a critical radiation packet came. -/
theorem run_solarArrayStatus (hms : Timestamp → String) (maxPoints : ℕ) {ops : List Op}
    (h : ∀ op ∈ ops, op.overrides = false) :
    (TelemetryProcessor.run hms maxPoints ops).solarArrayStatus =
      if (ops.filterMap Op.radiationPoint).any fun point => point.health = 2 then
        "Closed (FDIR Auto)"
      else "Unknown" := by
  induction ops using List.reverseRecOn with
  | nil => rfl
  | append_singleton ops op ih =>
    have hstatus := ih fun o ho => h o (by simp [ho])
    have hop := h op (by simp)
    rw [TelemetryProcessor.run, List.foldl_append, List.foldl_cons, List.foldl_nil,
      TelemetryProcessor.step_solarArrayStatus, List.filterMap_append, List.any_append]
    rw [TelemetryProcessor.run] at hstatus
    rw [hstatus]
    cases op with
    | packet now datagram =>
      cases hdata : Telemetry.ofDatagram datagram.val with
      | radiation value health =>
        by_cases hcritical : health = 2 <;>
          simp [Op.status, Op.radiationPoint, hdata, hcritical]
      | evs text => simp [Op.overrides, hdata] at hop
      | _ => simp [Op.status, Op.radiationPoint, hdata]
    | update status now => simp [Op.overrides] at hop
    | clear => simp [Op.status, Op.radiationPoint]

/-- The clears and the packets with a radiation point. -/
def Op.inRadiationHistory (op : Op) : Bool := op.clears || op.radiationPoint.isSome

/-- The clears and the packets with a thermal point. -/
def Op.inThermalHistory (op : Op) : Bool := op.clears || op.thermalPoint.isSome

/-- Every view of a run is determined by the operations' own emissions: the
buffers hold the last ones since the logs were cleared, and the latest
readings outlive a clear. -/
theorem run_histories (hms : Timestamp → String) (maxPoints : ℕ) (ops : List Op) :
    let p := TelemetryProcessor.run hms maxPoints ops
    let recent := sinceLast Op.clears ops
    (∀ (q : TelemetryProcessor) (now : Timestamp) (datagram : Datagram),
        (q.process hms (entryOf now datagram)).1 = .ok ()) ∧
      p.radiationHistory.items = (recent.filterMap Op.radiationPoint).rtake maxPoints ∧
      p.thermalHistory.items = (recent.filterMap Op.thermalPoint).rtake maxPoints ∧
      p.rawLog.items = (recent.filterMap (Op.rawLine hms)).rtake 200 ∧
      p.eventLog.items = (recent.filterMap (Op.eventLine hms)).rtake 500 ∧
      p.lastRadiation = (ops.filterMap Op.radiationPoint).getLast? ∧
      p.lastThermal = (ops.filterMap Op.thermalPoint).getLast? ∧
      (∀ ops', ops.filter Op.inRadiationHistory = ops'.filter Op.inRadiationHistory →
        p.radiationHistory = (TelemetryProcessor.run hms maxPoints ops').radiationHistory) ∧
      (∀ ops', ops.filter Op.inThermalHistory = ops'.filter Op.inThermalHistory →
        p.thermalHistory = (TelemetryProcessor.run hms maxPoints ops').thermalHistory) := by
  intro p recent
  have hlast : ∀ x : Option TelemetryPoint, x.or none = x := by simp
  refine ⟨?_, ?_, ?_, ?_, ?_, ?_, ?_, ?_, ?_⟩
  · intro q now datagram
    rw [TelemetryProcessor.process_entryOf]
  · exact (TelemetryProcessor.logs_radiationHistory.run (.init maxPoints) rfl ops).2
  · exact (TelemetryProcessor.logs_thermalHistory.run (.init maxPoints) rfl ops).2
  · exact (TelemetryProcessor.logs_rawLog.run (.init maxPoints) rfl ops).2
  · exact (TelemetryProcessor.logs_eventLog.run (.init maxPoints) rfl ops).2
  · exact (TelemetryProcessor.latest_lastRadiation.run (.init maxPoints) ops).trans (hlast _)
  · exact (TelemetryProcessor.latest_lastThermal.run (.init maxPoints) ops).trans (hlast _)
  · intro ops' hops
    exact TelemetryProcessor.logs_radiationHistory.isolated.run_congr rfl hops
  · intro ops' hops
    exact TelemetryProcessor.logs_thermalHistory.isolated.run_congr rfl hops

end CfsBridge.Processor
