import CfsBridge.CcsdsCodec
import CfsBridge.FlightApps
import CfsBridge.Processor

/-!
# The radiation path from end to end

A reading leaves the sensor side as a big-endian command payload, is decoded,
graded and stored in host order by RAD_APP, and comes back as a little-endian
field of a telemetry datagram, bit for bit up to there. The ground station widens
it to a double, which makes a signalling NaN quiet. Each layer is composed with
the next by what it does to one reading; whole runs follow by relating the lists
element by element.
-/
namespace CfsBridge.EndToEnd
open Bytes Python CcsdsUtils Cfe FlightApps TelemetryReceiver Processor
open CfsBridge.Monitor CfsBridge.Parser
open Ieee (Binary32)

/-- A reading packed by `pack_cmd_packet(0x1882, 2, struct.pack('!f', ...))`
with some sequence count. -/
def Packed (reading : Binary32) (packet : Bytes) : Prop :=
  ∃ seqCount, packCmdPacket 0x1882 2 (beBytes 4 reading.toNat) seqCount = .ok packet

/-- The bus traffic that TO_LAB forwards from RAD_APP: its telemetry. -/
def forwarded (cfe : Services) : Call → Option Bytes
  | .transmitMsg msg => if cfe.getMsgId msg = RadApp.tlmMid then some msg else none
  | _ => none

def downlink (cfe : Services) (d : AppData) : List Bytes := d.actions.filterMap (forwarded cfe)

/-- The datagram of a radiation packet. -/
def radiationDatagram : Op → Option Bytes
  | .packet _ datagram =>
    if streamWord datagram = tlmMidRad then some datagram.val else none
  | _ => none

/-! ### Uplink: from a reading to the handler -/

/-- A command with the code for sensor data and one reading as its payload. -/
theorem sendData_cmdBytes {mid : ℕ} (hmid : mid < 65536) (reading : Binary32) (seqCount : ℤ) :
    let packet := cmdBytes mid 2 (beBytes 4 reading.toNat) seqCount
    packet.length = 12 ∧ SendData mid packet ∧ readingOf packet = reading := by
  intro packet
  obtain ⟨_, _, hpayload⟩ := slice_cmdBytes mid 2 (beBytes 4 reading.toNat) seqCount
  have hword : packet.take 2 = beBytes 2 mid := by
    rw [show packet = _ from cmdBytes_eq ..]
    exact (slice_primaryBytes mid seqCount _ _).1
  have hlen : packet.length = 12 := by rw [cmdBytes_length, beBytes_length]
  have hslice : slice 8 12 packet = beBytes 4 reading.toNat := by
    rw [slice, List.take_of_length_le hlen.le, hpayload]
  have hbyte : packet.getD 6 0 = 2 := by
    rw [show packet = _ from cmdBytes_eq ..]
    simp [List.getD_eq_getElem?_getD, beBytes]
  refine ⟨hlen, ⟨?_, ?_⟩, ?_⟩
  · rw [hword, ofBE_beBytes_of_lt (by simpa using hmid)]
  · rw [hbyte]
    rfl
  · have hlt := reading.isLt
    rw [readingOf, hslice, ofBE_beBytes_of_lt (by simpa using hlt), BitVec.ofNat_toNat,
      BitVec.setWidth_eq]

/-- A packed reading is a command that RAD_APP takes, with the reading in its payload. -/
theorem packed_message {reading : Binary32} {packet : Bytes} (h : Packed reading packet) :
    packet.length = 12 ∧ SendData RadApp.cmdMid packet ∧ readingOf packet = reading := by
  obtain ⟨seqCount, hpack⟩ := h
  have hpacket : cmdBytes 0x1882 2 (beBytes 4 reading.toNat) seqCount = packet :=
    (packCmdPacket_eq_ok_iff.mp hpack).2
  rw [← hpacket]
  exact sendData_cmdBytes (show 0x1882 < 65536 by decide) reading seqCount

/-! ### Downlink: from the handler to a datagram -/

/-- A telemetry packet with a reading, bit for bit, and its grade. -/
structure Carries (reading : Binary32) (tlm : Bytes) : Prop where
  length : tlm.length = 24
  mid : streamWord tlm = tlmMidRad
  pattern : patternAt tlm = reading
  grades : Grades 150 100 reading (readingAt tlm).2

theorem Carries.value {reading : Binary32} {tlm : Bytes} (h : Carries reading tlm) :
    (readingAt tlm).1 = reading.quiet := by
  rw [readingAt, h.pattern]

theorem carries_of_answers {cfe : Services} (hcfe : cfe.Documented) {message : Bytes}
    {block : List Call}
    (h : Answers cfe RadApp.tlmMid 150 100 (IsSolarClose cfe) message block) :
    ∃ tlm, block.filterMap (forwarded cfe) = [tlm] ∧ Carries (readingOf message) tlm := by
  obtain ⟨action, tlm, rfl, htlm, hmid, hbits, hgrades, hfdir, hnone⟩ := h
  have haction : action.filterMap (forwarded cfe) = [] := by
    by_cases h2 : (tlm.getD 20 0).toNat = 2
    · obtain ⟨cmd, format, args, rfl, _, hcmd, _⟩ := hfdir h2
      simp [forwarded, hcmd, RadApp.tlmMid]
    · rw [hnone h2]
      rfl
  have hword : ofBE (slice 0 2 tlm) = RadApp.tlmMid := by
    rw [← hmid, hcfe.getMsgId_eq (by omega)]
    rfl
  refine ⟨tlm, ?_, htlm, ?_, ?_, hgrades⟩
  · rw [List.filterMap_append, haction]
    simp [forwarded, hmid]
  · rw [streamWord, unpackUnsigned, hword]
    rfl
  · rw [patternAt, hbits]
    rfl

theorem carries_flatten {cfe : Services} (hcfe : cfe.Documented) {messages : List Bytes}
    {blocks : List (List Call)}
    (h : List.Forall₂ (Answers cfe RadApp.tlmMid 150 100 (IsSolarClose cfe)) messages blocks) :
    List.Forall₂ Carries (messages.map readingOf)
      (blocks.flatten.filterMap (forwarded cfe)) := by
  induction h with
  | nil => exact .nil
  | cons hblock _ ih =>
    obtain ⟨tlm, htlm, hcarries⟩ := carries_of_answers hcfe hblock
    rw [List.map_cons, List.flatten_cons, List.filterMap_append, htlm, List.singleton_append]
    exact .cons hcarries ih

theorem packed_messages {readings : List Binary32} {packets : List Bytes}
    (h : List.Forall₂ Packed readings packets) :
    packets.map readingOf = readings ∧
      ∀ packet ∈ packets, packet.length = 12 ∧ SendData RadApp.cmdMid packet := by
  induction h with
  | nil => exact ⟨rfl, by simp⟩
  | cons hpacked _ ih =>
    obtain ⟨hlen, hsend, hreading⟩ := packed_message hpacked
    refine ⟨by rw [List.map_cons, hreading, ih.1], ?_⟩
    intro packet hmem
    rcases List.mem_cons.mp hmem with rfl | hmem
    · exact ⟨hlen, hsend⟩
    · exact ih.2 packet hmem

/-- Every reading sent comes down again, in order. -/
theorem carries_downlink {cfe : Services} (hcfe : cfe.Documented) {readings : List Binary32}
    {packets : List Bytes} (hpacked : List.Forall₂ Packed readings packets) {script : Script}
    (hreceived : script.received.map SbBuffer.message = packets) :
    List.Forall₂ Carries readings (downlink cfe (RadApp.main cfe script)) := by
  obtain ⟨hreadings, hall⟩ := packed_messages hpacked
  have hmessage : ∀ buffer ∈ script.received, buffer.message.length = 12 ∧
      SendData RadApp.cmdMid buffer.message := fun buffer hbuffer =>
    hall _ (hreceived ▸ List.mem_map_of_mem hbuffer)
  have hsize : ∀ buffer ∈ script.received, 12 ≤ buffer.size := by
    intro buffer hbuffer
    rw [← buffer.message_length, (hmessage buffer hbuffer).1]
  have hprocessed : RadApp.monitor.processed cfe script = script.received :=
    List.filter_eq_self.mpr fun buffer hbuffer =>
      addressed_of_sendData hcfe (by decide) rfl (hmessage buffer hbuffer).2
  obtain ⟨_, ⟨blocks, hblocks, hactions⟩, _⟩ :=
    monitorLaw (m := RadApp.monitor) hcfe (by decide) radThresholds
      (isSolarClose_criticalActions hcfe) hsize
  rw [hprocessed, hreceived] at hblocks
  rw [downlink, RadApp.main, hactions, ← hreadings]
  exact carries_flatten hcfe hblocks

/-! ### Ground: from a datagram to a point -/

theorem ofDatagram_carries {reading : Binary32} {tlm : Bytes} (h : Carries reading tlm) :
    Telemetry.ofDatagram tlm = .radiation reading.quiet (readingAt tlm).2 := by
  have hlen := h.length
  unfold Telemetry.ofDatagram
  rw [if_neg (by omega), if_neg (by omega), if_pos ⟨h.mid, by omega⟩, h.value]

/-- The value, health and label that a datagram shows as a radiation point. -/
def pointView (data : Bytes) : Option (Binary32 × ℕ × String) :=
  match Telemetry.ofDatagram data with
  | .radiation value health => some (value, health, healthLabels health)
  | _ => none

theorem pointView_carries {reading : Binary32} {tlm : Bytes} (h : Carries reading tlm) :
    pointView tlm = some (reading.quiet, (readingAt tlm).2, healthLabels (readingAt tlm).2) := by
  rw [pointView, ofDatagram_carries h]

theorem streamWord_of_radiation {data : Bytes} {value : Binary32} {health : ℕ}
    (h : Telemetry.ofDatagram data = .radiation value health) : streamWord data = tlmMidRad := by
  unfold Telemetry.ofDatagram at h
  split_ifs at h with _ _ hrad
  exact hrad.1

/-- A radiation point comes from a radiation datagram. -/
theorem radiationPoint_view (op : Op) :
    op.radiationPoint.map (fun point => (point.value, point.health, point.healthLabel)) =
      (radiationDatagram op).bind pointView := by
  cases op with
  | packet now datagram =>
    simp only [Op.radiationPoint, radiationDatagram]
    cases hdata : Telemetry.ofDatagram datagram.val with
    | radiation value health => simp [streamWord_of_radiation hdata, pointView, hdata]
    | _ => split_ifs <;> simp [pointView, hdata]
  | update status now => rfl
  | clear => rfl

/-- The point of a reading: its value, its grade and the label of the grade. -/
def Shows (reading : Binary32) (view : Binary32 × ℕ × String) : Prop :=
  view.1 = reading.quiet ∧ Grades 150 100 reading view.2.1 ∧ view.2.2 = healthLabels view.2.1

theorem shows_datagrams {readings : List Binary32} {datagrams : List Bytes}
    (h : List.Forall₂ Carries readings datagrams) :
    List.Forall₂ Shows readings (datagrams.filterMap pointView) := by
  induction h with
  | nil => exact .nil
  | cons hcarries _ ih =>
    rw [List.filterMap_cons, pointView_carries hcarries]
    exact .cons ⟨rfl, hcarries.grades, rfl⟩ ih

/-- The points of a run show the readings behind its radiation datagrams. -/
theorem shows_points {readings : List Binary32} {ops : List Op}
    (h : List.Forall₂ Carries readings (ops.filterMap radiationDatagram)) :
    List.Forall₂ (fun reading point => Shows reading (point.value, point.health, point.healthLabel))
      readings (ops.filterMap Op.radiationPoint) := by
  have hview : (ops.filterMap Op.radiationPoint).map
      (fun point => (point.value, point.health, point.healthLabel)) =
        (ops.filterMap radiationDatagram).filterMap pointView := by
    rw [List.map_filterMap, List.filterMap_filterMap]
    exact congrArg (fun f => ops.filterMap f) (funext radiationPoint_view)
  have hshows := shows_datagrams h
  rw [← hview] at hshows
  exact List.forall₂_map_right_iff.mp hshows

theorem forall₂_rtake {α β : Type} {R : α → β → Prop} {xs : List α} {ys : List β}
    (h : List.Forall₂ R xs ys) (n : ℕ) : List.Forall₂ R (xs.rtake n) (ys.rtake n) := by
  rw [List.rtake, List.rtake, h.length_eq]
  exact List.forall₂_drop _ h

theorem forall_right_of_forall₂ {α β : Type} {Q : β → Prop} {xs : List α} {ys : List β}
    (h : List.Forall₂ (fun _ y => Q y) xs ys) : ∀ y ∈ ys, Q y := by
  induction h with
  | nil => simp
  | cons hxy _ ih => exact List.forall_mem_cons.mpr ⟨hxy, ih⟩

theorem exists_iff_of_forall₂ {α β : Type} {P : α → Prop} {Q : β → Prop} {xs : List α}
    {ys : List β} (h : List.Forall₂ (fun x y => P x ↔ Q y) xs ys) :
    (∃ x ∈ xs, P x) ↔ ∃ y ∈ ys, Q y := by
  induction h with
  | nil => simp
  | cons hxy _ ih => simp only [List.exists_mem_cons_iff, hxy, ih]

/-- The label of a graded reading, never the one for unknown codes. -/
theorem healthLabels_of_grades {limit warning : ℚ} {value : Binary32} {health : ℕ}
    (h : Grades limit warning value health) :
    (health = 2 ∧ healthLabels health = "CRITICAL") ∨
      (health = 1 ∧ healthLabels health = "WARNING") ∨
      (health = 0 ∧ healthLabels health = "NOMINAL") := by
  by_cases hwarning : value.Exceeds warning
  · by_cases hlimit : value.Exceeds limit
    · have h2 := h.critical_iff.mpr hlimit
      exact .inl ⟨h2, by rw [h2]; rfl⟩
    · have h1 := h.warning_iff.mpr ⟨hlimit, hwarning⟩
      exact .inr (.inl ⟨h1, by rw [h1]; rfl⟩)
  · have h0 := h.nominal_iff.mpr hwarning
    exact .inr (.inr ⟨h0, by rw [h0]; rfl⟩)

/-! ### The whole path -/

/-- Every run of readings through the encoder, RAD_APP and the ground station.
The series holds the patterns that were sent, with signalling NaNs made quiet. -/
theorem radiation_path (cfe : Services) (hcfe : cfe.Documented) (readings : List Binary32)
    (packets : List Bytes) (hpacked : List.Forall₂ Packed readings packets) (script : Script)
    (hreceived : script.received.map SbBuffer.message = packets) (hms : Timestamp → String)
    (maxPoints : ℕ) (ops : List Op) (hclear : ∀ op ∈ ops, op.clears = false)
    (hdown : ops.filterMap radiationDatagram = downlink cfe (RadApp.main cfe script)) :
    let p := TelemetryProcessor.run hms maxPoints ops
    p.getRadiationSeries.map TelemetryPoint.value =
        (readings.map Binary32.quiet).rtake maxPoints ∧
      (∀ point ∈ p.getRadiationSeries, Grades 150 100 point.value point.health ∧
        ((point.health = 2 ∧ point.healthLabel = "CRITICAL") ∨
          (point.health = 1 ∧ point.healthLabel = "WARNING") ∨
          (point.health = 0 ∧ point.healthLabel = "NOMINAL"))) ∧
      ((∀ op ∈ ops, op.overrides = false) →
        (p.solarArrayStatus = "Closed (FDIR Auto)" ↔ ∃ reading ∈ readings, reading.Exceeds 150) ∧
          (p.solarArrayStatus = "Unknown" ↔ ¬ ∃ reading ∈ readings, reading.Exceeds 150)) := by
  intro p
  have hcarries := carries_downlink hcfe hpacked hreceived
  rw [← hdown] at hcarries
  have hshows := shows_points hcarries
  have hseries : p.getRadiationSeries = (ops.filterMap Op.radiationPoint).rtake maxPoints := by
    have hlogs : Runs.Logs (TelemetryProcessor.step hms) TelemetryProcessor.radiationHistory
      Op.clears Op.radiationPoint := TelemetryProcessor.logs_radiationHistory
    rw [← Runs.sinceLast_of_forall hclear]
    exact (hlogs.run (.init maxPoints) rfl ops).2
  have hlast := forall₂_rtake hshows maxPoints
  rw [← hseries] at hlast
  refine ⟨?_, ?_, ?_⟩
  · have hvalues : (readings.rtake maxPoints).map Binary32.quiet =
        p.getRadiationSeries.map TelemetryPoint.value := by
      rw [← List.forall₂_eq_eq_eq, List.forall₂_map_left_iff, List.forall₂_map_right_iff]
      exact hlast.imp fun reading point h => h.1.symm
    rw [← hvalues, RingBuffer.map_rtake]
  · refine forall_right_of_forall₂ (hlast.imp fun reading point h => ?_)
    obtain ⟨hvalue, hgrades, hlabel⟩ := h
    have hlabels := healthLabels_of_grades hgrades
    rw [← hlabel] at hlabels
    rw [show point.value = reading.quiet from hvalue]
    exact ⟨hgrades.quiet, hlabels⟩
  · intro hoverrides
    have hcritical := exists_iff_of_forall₂
      (hshows.imp fun reading point h => h.2.1.critical_iff.symm)
    rw [run_solarArrayStatus hms maxPoints hoverrides, hcritical]
    generalize ops.filterMap Op.radiationPoint = points
    cases hany : points.any fun point => point.health = 2 <;> simpa using hany

/-- 200.0, a quiet NaN with a payload and a signalling one. -/
def sampleReadings : List Binary32 := [0x43480000#32, 0x7FC00001#32, 0xFFA00001#32]

def samplePackets : List Bytes := [
  [0x18, 0x82, 0xC0, 0x00, 0x00, 0x05, 0x02, 0xA9, 0x43, 0x48, 0x00, 0x00],
  [0x18, 0x82, 0xC0, 0x01, 0x00, 0x05, 0x02, 0x1D, 0x7F, 0xC0, 0x00, 0x01],
  [0x18, 0x82, 0xC0, 0x02, 0x00, 0x05, 0x02, 0xFE, 0xFF, 0xA0, 0x00, 0x01]]

def sampleTelemetry : List Bytes := [
  [0x08, 0x82, 0xC0, 0x00, 0x00, 0x11, 0, 0, 0, 0, 0, 0, 0, 0, 0, 0,
    0x00, 0x00, 0x48, 0x43, 2, 0, 0, 0],
  [0x08, 0x82, 0xC0, 0x00, 0x00, 0x11, 0, 0, 0, 0, 0, 0, 0, 0, 0, 0,
    0x01, 0x00, 0xC0, 0x7F, 0, 0, 0, 0],
  [0x08, 0x82, 0xC0, 0x00, 0x00, 0x11, 0, 0, 0, 0, 0, 0, 0, 0, 0, 0,
    0x01, 0x00, 0xA0, 0xFF, 0, 0, 0, 0]]

/-- The buffer of a received packet that fills it exactly. -/
def exactly (packet : Bytes) (h : packet.length = 12) : SbBuffer where
  bytes := packet
  size := packet.length
  size_ge := by omega
  size_le := le_refl packet.length
  length_ge := Nat.le_of_eq h.symm

def sampleScript : Script :=
  nominal [exactly (samplePackets.getD 0 []) rfl, exactly (samplePackets.getD 1 []) rfl,
    exactly (samplePackets.getD 2 []) rfl]

def sampleOps : List Op := [
  .packet 1 ⟨sampleTelemetry.getD 0 [], by decide⟩, .packet 2 ⟨sampleTelemetry.getD 1 [], by decide⟩,
  .packet 3 ⟨sampleTelemetry.getD 2 [], by decide⟩]

/-- Only the signalling NaN comes out with another pattern. -/
theorem radiation_path_sample :
    let p := TelemetryProcessor.run (fun _ => "00:00:00") 200 sampleOps
    p.getRadiationSeries.map TelemetryPoint.value = [0x43480000#32, 0x7FC00001#32, 0xFFE00001#32] ∧
      p.solarArrayStatus = "Closed (FDIR Auto)" := by
  have hpacked : List.Forall₂ Packed sampleReadings samplePackets :=
    .cons ⟨0, by decide⟩ (.cons ⟨1, by decide⟩ (.cons ⟨2, by decide⟩ .nil))
  obtain ⟨hvalues, _, hstatus⟩ := radiation_path ccsdsV1 ccsdsV1_documented sampleReadings
    samplePackets hpacked sampleScript (by decide) (fun _ => "00:00:00") 200 sampleOps
    (by decide) (by decide)
  refine ⟨hvalues.trans (by decide), (hstatus (by decide)).1.mpr ⟨0x43480000#32, by decide, ?_⟩⟩
  exact (Binary32.gt_iff_exceeds radThresholds.limit_value).mp (by decide)

/-- A signalling NaN alone. -/
def signallingPacket : Bytes :=
  [0x18, 0x82, 0xC0, 0x00, 0x00, 0x05, 0x02, 0x5C, 0x7F, 0x80, 0x00, 0x01]

def signallingScript : Script := nominal [exactly signallingPacket rfl]

def signallingOps : List Op := [
  .packet 1 ⟨[0x08, 0x82, 0xC0, 0x00, 0x00, 0x11, 0, 0, 0, 0, 0, 0, 0, 0, 0, 0,
    0x01, 0x00, 0x80, 0x7F, 0, 0, 0, 0], by decide⟩]

/-- A run whose series does not hold the pattern that was sent bit for bit. -/
theorem radiation_path_signalling :
    ccsdsV1.Documented ∧ List.Forall₂ Packed [0x7F800001#32] [signallingPacket] ∧
      signallingScript.received.map SbBuffer.message = [signallingPacket] ∧
      (∀ op ∈ signallingOps, op.clears = false ∧ op.overrides = false) ∧
      signallingOps.filterMap radiationDatagram =
        downlink ccsdsV1 (RadApp.main ccsdsV1 signallingScript) ∧
      let p := TelemetryProcessor.run (fun _ => "00:00:00") 200 signallingOps
      p.getRadiationSeries.map TelemetryPoint.value = [0x7FC00001#32] ∧
        p.getRadiationSeries.map TelemetryPoint.value ≠ [0x7F800001#32].rtake 200 := by
  refine ⟨ccsdsV1_documented, .cons ⟨0, by decide⟩ .nil, by decide, by decide, by decide, ?_⟩
  have hseries : (TelemetryProcessor.run (fun _ => "00:00:00") 200
      signallingOps).getRadiationSeries.map TelemetryPoint.value = [0x7FC00001#32] := by decide
  refine ⟨hseries, ?_⟩
  rw [hseries]
  decide

end CfsBridge.EndToEnd
