import CfsBridge.EndToEnd
import CfsBridge.Sensors

/-!
# Requests to a sensor

What the flight monitors do about a value that an operator asks a sensor for.
The sensor clamps the request to the range of its class, and the monitor judges
the clamped reading; the two agree about the request as long as the range and
the limit lie right.
-/
namespace CfsBridge.SensorFdir
open Bytes Python CcsdsUtils Cfe Monitor FlightApps Sensors EndToEnd
open Ieee (Binary32 Binary64 ExtRat)

/-- The application answers a buffer with its FDIR action and a critical health status. -/
def TakesFdir (m : Monitor) (cfe : Services) (IsFdir : List Call → Prop) (now : SysTime)
    (buffer : SbBuffer) (d : AppData) : Prop :=
  ∃ action tlm, (m.receive cfe (delivery buffer now) d).actions =
      d.actions ++ (action ++ [.transmitMsg tlm]) ∧
    (tlm.getD 20 0).toNat = 2 ∧ IsFdir action

/-- An `update_and_send` of `newValue`, whose exact value is `request`, makes
the application take its FDIR action exactly above the limit. -/
def FollowsRequest (c : SensorClass) (m : Monitor) (cfe : Services) (IsFdir : List Call → Prop)
    (limit : ℚ) (s : BaseSensor) (d : AppData) (newValue : Binary64) (request : ℚ) : Prop :=
  ∀ bytesSent, ∃ packet,
    (s.updateAndSend c newValue (.ok bytesSent)).2.transmitted = s.transmitted ++ [packet] ∧
      ∀ buffer now, buffer.message = packet →
        (TakesFdir m cfe IsFdir now buffer d ↔ limit < request)

/-- The sensor class and the application exchange sensor data. -/
structure Paired (c : SensorClass) (m : Monitor) : Prop where
  mid : c.mid = m.cmdMid
  isCommand : IsCommand m.cmdMid
  mid_lt : m.cmdMid < 65536
  funcCode : c.funcCode = 2
  fcSendData : m.fcSendData = 2

theorem paired_radiation : Paired radiationSensor RadApp.monitor where
  mid := rfl
  isCommand := by decide
  mid_lt := by decide
  funcCode := rfl
  fcSendData := rfl

theorem paired_thermal : Paired thermalSensor ThermApp.monitor where
  mid := rfl
  isCommand := by decide
  mid_lt := by decide
  funcCode := rfl
  fcSendData := rfl

/-! ### The sensor's side -/

/-- A stored value that a single holds leaves as a command with that reading. -/
theorem send_reading {c : SensorClass} {m : Monitor} (h : Paired c m) {s : BaseSensor} {q : ℚ}
    (hvalue : s.value.IsSingle q) (bytesSent : ℕ) :
    ∃ packet, (s.send c (.ok bytesSent)).2.transmitted = s.transmitted ++ [packet] ∧
      packet.length = 12 ∧ SendData m.cmdMid packet ∧
      (readingOf packet).value = some (ExtRat.finite q) := by
  obtain ⟨reading, hnarrow, hreading⟩ := Ieee.narrow_exact hvalue
  have hpayload : packFloat s.value = .ok (beBytes 4 reading.toNat) := by
    rw [packFloat, hnarrow]
  have hmid : 0 ≤ c.mid ∧ c.mid ≤ 65535 := by
    have hlt := h.mid_lt
    have heq := h.mid
    omega
  obtain ⟨hlen, hsend, hread⟩ := sendData_cmdBytes h.mid_lt reading s.seqCount
  refine ⟨cmdBytes m.cmdMid 2 (beBytes 4 reading.toNat) s.seqCount, ?_, hlen, hsend, ?_⟩
  · rw [BaseSensor.send_eq, hpayload, h.funcCode]
    dsimp only
    rw [if_pos hmid, h.mid]
    rfl
  · rw [hread]
    exact hreading

/-! ### The application's side -/

/-- One message is answered with the FDIR action exactly when its reading exceeds the limit. -/
theorem takesFdir_iff {m : Monitor} {cfe : Services} (hcfe : cfe.Documented)
    (hcmd : IsCommand m.cmdMid) (hcode : m.fcSendData = 2) {limit warning : ℚ}
    (hm : Thresholds m limit warning) {IsFdir : List Call → Prop}
    (hfdir : ∀ value count, IsFdir (m.criticalActions cfe value count)) {buffer : SbBuffer}
    (hsend : SendData m.cmdMid buffer.message) (hsize : 12 ≤ buffer.size) (now : SysTime)
    (d : AppData) :
    TakesFdir m cfe IsFdir now buffer d ↔ (readingOf buffer.message).Exceeds limit := by
  have hstep : Handled m cfe now _ (d.call [.receiveBuffer d.commandPipe]) _ :=
    handled_processSensorData now buffer _
  have hactions : (d.call [.receiveBuffer d.commandPipe]).actions = d.actions := by
    rw [actions_call]
    exact List.append_nil _
  rw [TakesFdir, receive_delivery (addressed_of_sendData hcfe hcmd hcode hsend),
    readingOf_message hsize]
  generalize m.processSensorData cfe now buffer _ = d' at hstep ⊢
  have hgrades := grades_healthOf hm (readingOf buffer.bytes)
  have hgt := Ieee.Binary32.gt_iff_exceeds (b := readingOf buffer.bytes) hm.limit_value
  have hhealth : (d'.tlmPkt.bytes.getD 20 0).toNat = 2 ↔
      (readingOf buffer.bytes).Exceeds limit := by
    rw [TlmPkt.bytes_health, hstep.tlmPkt]
    exact hgrades.critical_iff
  rw [hstep.actions, hactions]
  constructor
  · rintro ⟨action, tlm, heq, h2, -⟩
    -- the telemetry packet is the last action either way
    have hlast := (List.append_inj' (List.append_cancel_left heq) rfl).2
    cases hlast
    exact hhealth.mp h2
  · intro hexceeds
    exact ⟨_, _, rfl, hhealth.mpr hexceeds, by rw [if_pos (hgt.mpr hexceeds)]; exact hfdir _ _⟩

/-! ### Both sides -/

/-- The monitor follows a request exactly when clamping leaves it on its side of the limit. -/
theorem followsRequest_iff_clamp {c : SensorClass} {m : Monitor} (h : Paired c m) {lo hi : ℚ}
    (hrange : c.Range lo hi) {limit warning : ℚ} (hm : Thresholds m limit warning)
    {cfe : Services} (hcfe : cfe.Documented) {IsFdir : List Call → Prop}
    (hfdir : ∀ value count, IsFdir (m.criticalActions cfe value count)) (s : BaseSensor)
    (d : AppData) {newValue : Binary64} {request : ℚ} (hvalue : newValue.IsSingle request) :
    FollowsRequest c m cfe IsFdir limit s d newValue request ↔
      (limit < max lo (min hi request) ↔ limit < request) := by
  have hsent := send_reading h (s := s.setValue c newValue) (hrange.clamp hvalue)
  have htakes {packet : Bytes} {buffer : SbBuffer} (hlen : packet.length = 12)
      (hsend : SendData m.cmdMid packet)
      (hread : (readingOf packet).value = some (ExtRat.finite (max lo (min hi request))))
      (hb : buffer.message = packet) (now : SysTime) :
      TakesFdir m cfe IsFdir now buffer d ↔ limit < max lo (min hi request) := by
    subst hb
    have hsize : 12 ≤ buffer.size := by rw [← buffer.message_length, hlen]
    rw [takesFdir_iff hcfe h.isCommand h.fcSendData hm hfdir hsend hsize]
    exact Ieee.Binary32.exceeds_iff_lt hread limit
  constructor
  · intro hfollows
    obtain ⟨packet, htransmitted, hjudged⟩ := hfollows 0
    obtain ⟨packet', htransmitted', hlen, hsend, hread⟩ := hsent 0
    have heq := htransmitted.symm.trans htransmitted'
    have hpacket : packet = packet' := by simpa [BaseSensor.setValue] using heq
    subst hpacket
    have hmessage := message_padded packet (by omega) 0
    exact (htakes hlen hsend hread hmessage ⟨0, 0⟩).symm.trans (hjudged _ ⟨0, 0⟩ hmessage)
  · intro hclamp bytesSent
    obtain ⟨packet, htransmitted, hlen, hsend, hread⟩ := hsent bytesSent
    exact ⟨packet, htransmitted, fun buffer now hb =>
      (htakes hlen hsend hread hb now).trans hclamp⟩

/-- RAD_APP follows every request to the radiation sensor. THERM_APP follows a
request to the thermal sensor exactly when it is at most the limit, because the
sensor's range ends below it. -/
theorem request_drives_fdir_iff (cfe : Services) (hcfe : cfe.Documented) (newValue : Binary64)
    (request : ℚ) (hvalue : newValue.IsSingle request) (s : BaseSensor) (d : AppData) :
    FollowsRequest radiationSensor RadApp.monitor cfe (IsSolarClose cfe) 150 s d newValue
        request ∧
      (FollowsRequest thermalSensor ThermApp.monitor cfe IsCriticalEvent 100 s d newValue
        request ↔ request ≤ 100) := by
  constructor
  · rw [followsRequest_iff_clamp paired_radiation radiationSensor_range radThresholds hcfe
      (isSolarClose_criticalActions hcfe) s d hvalue, lt_max_iff, lt_min_iff]
    norm_num
  · rw [followsRequest_iff_clamp paired_thermal thermalSensor_range thermThresholds hcfe
      (fun _ _ => ⟨_, _, rfl⟩) s d hvalue, lt_max_iff, lt_min_iff]
    norm_num

/-- A radiation request of 200.0 closes the array; the same request to the
thermal sensor raises nothing. -/
theorem request_drives_fdir_iff_200 :
    FollowsRequest radiationSensor RadApp.monitor ccsdsV1 (IsSolarClose ccsdsV1) 150
        (.init radiationSensor) (RadApp.main ccsdsV1 (nominal [])) 0x4069000000000000#64 200 ∧
      ¬ FollowsRequest thermalSensor ThermApp.monitor ccsdsV1 IsCriticalEvent 100
        (.init thermalSensor) (ThermApp.main ccsdsV1 (nominal [])) 0x4069000000000000#64 200 := by
  have hvalue : Binary64.IsSingle 0x4069000000000000#64 200 :=
    ⟨by decide, 0x43480000#32, by decide⟩
  refine ⟨(request_drives_fdir_iff ccsdsV1 ccsdsV1_documented _ 200 hvalue _ _).1, ?_⟩
  rw [(request_drives_fdir_iff ccsdsV1 ccsdsV1_documented _ 200 hvalue _ _).2]
  norm_num

/-- The command that a request of 120.0 becomes: its payload is 85.0. -/
def clampedCommand : Bytes :=
  [0x18, 0x83, 0xC0, 0x00, 0x00, 0x05, 0x02, 0x4B, 0x42, 0xAA, 0x00, 0x00]

/-- The health codes that an application has published. -/
def publishedHealth (d : AppData) : List ℕ :=
  d.actions.filterMap fun call => match call with
    | .transmitMsg msg => some (msg.getD 20 0).toNat
    | _ => none

theorem request120_not_followed :
    Binary64.IsSingle 0x405E000000000000#64 120 ∧
      (BaseSensor.run thermalSensor
        [⟨.updateAndSend 0x405E000000000000#64, .ok 12⟩]).transmitted = [clampedCommand] ∧
      publishedHealth (ThermApp.main ccsdsV1 (nominal [exactly clampedCommand rfl])) = [1] ∧
      ¬ FollowsRequest thermalSensor ThermApp.monitor ccsdsV1 IsCriticalEvent 100
        (.init thermalSensor) (ThermApp.main ccsdsV1 (nominal [])) 0x405E000000000000#64 120 := by
  have hvalue : Binary64.IsSingle 0x405E000000000000#64 120 :=
    ⟨by decide, 0x42F00000#32, by decide⟩
  refine ⟨hvalue, by decide +kernel, by decide +kernel, ?_⟩
  rw [followsRequest_iff_clamp paired_thermal thermalSensor_range thermThresholds
    ccsdsV1_documented (fun _ _ => ⟨_, _, rfl⟩) _ _ hvalue, lt_max_iff, lt_min_iff]
  norm_num

end CfsBridge.SensorFdir
