import CfsBridge.Channels
import CfsBridge.RequestThresholds

/-!
# The two sources of readings

A reading travels as the payload of a command, is graded by a monitor and comes
down as a telemetry field. Both sensors go this way with constants of their
own. For each hop: which reading a message of that hop carries, and for whom.
-/
namespace CfsBridge
open Bytes Python CcsdsUtils Cfe FlightApps TelemetryReceiver Processor Sensors
open CfsBridge.Monitor CfsBridge.Parser RequestThresholds
open Ieee (Binary32 ExtRat)

inductive Source
  | radiation
  | thermal
  deriving DecidableEq, Repr

namespace Source

def sensorClass : Source → SensorClass
  | .radiation => radiationSensor
  | .thermal => thermalSensor

def monitor : Source → Monitor
  | .radiation => RadApp.monitor
  | .thermal => ThermApp.monitor

def lo : Source → ℚ
  | .radiation => 0
  | .thermal => -40

def hi : Source → ℚ
  | .radiation => 1000
  | .thermal => 85

def limit : Source → ℚ
  | .radiation => 150
  | .thermal => 100

def warning : Source → ℚ
  | .radiation => 100
  | .thermal => 80

/-- The reading and the health code that a datagram shows of a source. -/
def read (k : Source) (data : Bytes) : Option (Binary32 × ℕ) :=
  match k, Telemetry.ofDatagram data with
  | .radiation, .radiation value health => some (value, health)
  | .thermal, .thermal value health => some (value, health)
  | _, _ => none

/-- The point that an operation of the processor adds for a source. -/
def point : Source → Op → Option TelemetryPoint
  | .radiation => Op.radiationPoint
  | .thermal => Op.thermalPoint

def series : Source → TelemetryProcessor → List TelemetryPoint
  | .radiation => TelemetryProcessor.getRadiationSeries
  | .thermal => TelemetryProcessor.getThermalSeries

def last : Source → TelemetryProcessor → Option TelemetryPoint
  | .radiation => TelemetryProcessor.lastRadiation
  | .thermal => TelemetryProcessor.lastThermal

/-- The reading that a command carries to the monitor of a source. -/
def commanded (k : Source) (message : Bytes) : List Binary32 :=
  if SendData k.monitor.cmdMid message then [readingOf message] else []

/-- The reading that a datagram brings down. -/
def reported (k : Source) (data : Bytes) : List Binary32 := ((k.read data).map Prod.fst).toList

/-- The readings that the operations of the processor have shown. -/
def shown (k : Source) (log : List Op) : List Binary32 :=
  (log.filterMap k.point).map TelemetryPoint.value

/-! ### Constants -/

theorem paired (k : Source) : SensorFdir.Paired k.sensorClass k.monitor := by
  cases k with
  | radiation => exact SensorFdir.paired_radiation
  | thermal => exact SensorFdir.paired_thermal

theorem wellFormed (k : Source) : k.sensorClass.WellFormed k.lo k.hi := by
  cases k with
  | radiation => exact radiationSensor_wellFormed
  | thermal => exact thermalSensor_wellFormed

theorem thresholds (k : Source) : Thresholds k.monitor k.limit k.warning := by
  cases k with
  | radiation => exact radThresholds
  | thermal => exact thermThresholds

theorem isSingle_bounds (k : Source) :
    k.sensorClass.minValue.IsSingle k.lo ∧ k.sensorClass.maxValue.IsSingle k.hi := by
  cases k with
  | radiation => exact ⟨⟨by decide +kernel, 0#32, by decide +kernel⟩,
      ⟨by decide, 0x447A0000#32, by decide⟩⟩
  | thermal => exact ⟨⟨by decide, 0xC2200000#32, by decide⟩, ⟨by decide, 0x42AA0000#32, by decide⟩⟩

theorem cmdMid_inj {j k : Source} (h : j.monitor.cmdMid = k.monitor.cmdMid) : j = k := by
  cases j <;> cases k <;> first | rfl | exact absurd h (by decide)

theorem tlmMid_lt (k : Source) : k.monitor.tlmMid < 65536 := by cases k <;> decide

/-! ### Commands -/

theorem commanded_self {k : Source} {message : Bytes} (h : SendData k.monitor.cmdMid message) :
    k.commanded message = [readingOf message] := if_pos h

theorem commanded_of_mid_ne {k : Source} {message : Bytes}
    (h : ofBE (message.take 2) ≠ k.monitor.cmdMid) : k.commanded message = [] :=
  if_neg fun hsend => h hsend.1

/-- A command from the sensor of a source, and for that one only. -/
structure FromSensor (k : Source) (packet : Bytes) : Prop where
  length : packet.length = 12
  sendData : SendData k.monitor.cmdMid packet
  within : ∃ q, (readingOf packet).value = some (ExtRat.finite q) ∧ k.lo ≤ q ∧ q ≤ k.hi

/-- No sensor sends a signalling NaN. -/
theorem FromSensor.quiet_readingOf {k : Source} {packet : Bytes} (h : k.FromSensor packet) :
    (readingOf packet).quiet = readingOf packet := by
  obtain ⟨q, hq, _⟩ := h.within
  exact Binary32.quiet_of_value hq

theorem fromSensor_of_requested {k : Source} {request : Ieee.Binary64} {packet : Bytes}
    (h : Requested k.sensorClass k.monitor request packet) : k.FromSensor packet := by
  refine ⟨h.length, h.sendData, ?_⟩
  obtain ⟨x, hx, hr⟩ := h.reading
  obtain ⟨q, hq, hlo, hhi⟩ := k.wellFormed.within_clamp request
  exact Ieee.narrow_between k.isSingle_bounds.1 k.isSingle_bounds.2 (hx.trans hq) hlo hhi hr

/-- Whatever is done with a sensor that holds a value of its range, the packets
that leave are commands from it. -/
theorem fromSensor_call (k : Source) {s : BaseSensor} (hs : Within k.lo k.hi s.value)
    (turn : SensorTurn) : ∃ packets,
      (s.call k.sensorClass turn).transmitted = s.transmitted ++ packets ∧
        ∀ packet ∈ packets, k.FromSensor packet := by
  have hsend {s : BaseSensor} {request : Ieee.Binary64} (hs : Within k.lo k.hi s.value)
      (hvalue : s.value.value = (k.sensorClass.clamp request).value) : ∃ packets,
        (s.send k.sensorClass turn.sendto).2.transmitted = s.transmitted ++ packets ∧
          ∀ packet ∈ packets, k.FromSensor packet := by
    obtain ⟨packets, hpackets, hall⟩ := requested_attempt k.paired k.wellFormed hs hvalue
      turn.sendto
    exact ⟨packets, hpackets, EndToEnd.forall_right_of_forall₂
      (hall.imp fun _ _ hx => fromSensor_of_requested hx)⟩
  obtain ⟨op, sendto⟩ := turn
  cases op with
  | setValue newValue => exact ⟨[], (List.append_nil _).symm, by simp⟩
  | send =>
    obtain ⟨q, hq, hlo, hhi⟩ := hs
    exact hsend ⟨q, hq, hlo, hhi⟩ (hq.trans (k.wellFormed.value_clamp_of_within hq hlo hhi).symm)
  | updateAndSend newValue =>
    exact hsend (s := s.setValue k.sensorClass newValue) (k.wellFormed.within_clamp newValue) rfl

theorem FromSensor.mid {k : Source} {packet : Bytes} (h : k.FromSensor packet) :
    ofBE (packet.take 2) = k.monitor.cmdMid := h.sendData.1

/-- The readings of one sensor are no commands to the other monitor. -/
theorem flatMap_commanded {j k : Source} {packets : List Bytes}
    (h : ∀ packet ∈ packets, k.FromSensor packet) :
    packets.flatMap j.commanded = if j = k then packets.map readingOf else [] := by
  split_ifs with heq
  · subst heq
    rw [List.map_eq_flatMap]
    exact List.flatMap_congr fun packet hpacket => commanded_self (h packet hpacket).sendData
  · refine List.flatMap_eq_nil_iff.mpr fun packet hpacket => commanded_of_mid_ne ?_
    rw [(h packet hpacket).mid]
    exact fun hmid => heq (cmdMid_inj hmid.symm)

/-! ### Telemetry -/

theorem patternAt_tlmPkt (tlm : TlmPkt) : patternAt tlm.bytes = tlm.processedValue := by
  have hlt := tlm.processedValue.isLt
  rw [patternAt, tlm.bytes_value, ofLE_leBytes, Nat.mod_eq_of_lt (by simpa using hlt),
    BitVec.ofNat_toNat, BitVec.setWidth_eq]

/-- A telemetry packet of a monitor shows its reading under its own source. -/
theorem read_tlmPkt (j k : Source) {tlm : TlmPkt}
    (hmid : tlm.tlmHeader.val.take 2 = beBytes 2 k.monitor.tlmMid) :
    j.read tlm.bytes =
      if j = k then some (tlm.processedValue.quiet, tlm.healthStatus.toNat) else none := by
  have hlen := tlm.bytes_length
  have hword : streamWord tlm.bytes = k.monitor.tlmMid := by
    have htake : ofBE (slice 0 2 tlm.bytes) = k.monitor.tlmMid := by
      rw [slice_zero_left, tlm.bytes_mid, hmid,
        ofBE_beBytes_of_lt (by have := k.tlmMid_lt; simpa using this)]
    rw [streamWord, unpackUnsigned, htake]
  unfold read Telemetry.ofDatagram readingAt
  rw [hword, patternAt_tlmPkt, tlm.bytes_health, if_neg (by omega), if_neg (by omega)]
  cases k <;> cases j <;> simp [monitor, RadApp.monitor, ThermApp.monitor, RadApp.tlmMid,
    ThermApp.tlmMid, tlmMidRad, tlmMidTherm]

/-- Telemetry of anyone else shows no reading. -/
theorem read_of_streamWord_ne {data : Bytes} (hrad : streamWord data ≠ tlmMidRad)
    (htherm : streamWord data ≠ tlmMidTherm) (k : Source) : k.read data = none := by
  unfold read Telemetry.ofDatagram
  simp only [hrad, htherm, false_and, if_false]
  split_ifs <;> cases k <;> rfl

theorem point_packet (k : Source) (now : Timestamp) (datagram : Datagram) :
    k.point (.packet now datagram) = (k.read datagram.val).map fun reading =>
      ⟨now, reading.1, reading.2, healthLabels reading.2⟩ := by
  cases k with
  | radiation =>
    simp only [point, Op.radiationPoint, read]
    cases Telemetry.ofDatagram datagram.val <;> rfl
  | thermal =>
    simp only [point, Op.thermalPoint, read]
    cases Telemetry.ofDatagram datagram.val <;> rfl

theorem read_short (k : Source) {data : Bytes} (h : data.length < 6) : k.read data = none := by
  unfold read Telemetry.ofDatagram
  rw [if_pos h]
  cases k <;> rfl

theorem shown_concat (k : Source) (log : List Op) (op : Op) :
    k.shown (log ++ [op]) = k.shown log ++ ((k.point op).map TelemetryPoint.value).toList := by
  rw [shown, List.filterMap_append, List.map_append, shown]
  cases h : k.point op <;> simp [h]

theorem shown_packet (k : Source) (log : List Op) (now : Timestamp) (datagram : Datagram) :
    k.shown (log ++ [.packet now datagram]) = k.shown log ++ k.reported datagram.val := by
  rw [shown_concat, point_packet, reported]
  cases k.read datagram.val <;> rfl

/-- What a run of the processor shows of a source. -/
theorem series_run (k : Source) (hms : Timestamp → String) (maxPoints : ℕ) (log : List Op) :
    (k.series (TelemetryProcessor.run hms maxPoints log)).map TelemetryPoint.value =
        (k.shown (Runs.sinceLast Op.clears log)).rtake maxPoints ∧
      (k.last (TelemetryProcessor.run hms maxPoints log)).map TelemetryPoint.value =
        (k.shown log).getLast? := by
  obtain ⟨_, hrad, htherm, _, _, hlastRad, hlastTherm, _⟩ := run_histories hms maxPoints log
  unfold shown
  rw [← RingBuffer.map_rtake, List.getLast?_map]
  cases k with
  | radiation => exact ⟨congrArg _ hrad, congrArg _ hlastRad⟩
  | thermal => exact ⟨congrArg _ htherm, congrArg _ hlastTherm⟩

end Source
end CfsBridge
