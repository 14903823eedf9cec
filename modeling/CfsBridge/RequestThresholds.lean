import CfsBridge.Rounding
import CfsBridge.SensorFdir
import CfsBridge.SensorRuns

/-!
# Which requests close the array

An operator asks a sensor for a double, the packet carries a single, and the
monitor compares the single with its threshold. Seen from the request this is a
comparison with a double half a unit of the single above the threshold, because
a tie is rounded to the threshold, whose last bit is even. A NaN replaces no
bound that it is compared with, so the sensor takes it for its largest value.
-/
namespace CfsBridge.RequestThresholds
open Bytes Python CcsdsUtils Cfe Monitor FlightApps Sensors SensorFdir EndToEnd
open Ieee (Binary32 Binary64 ExtRat CutsAt narrow)

/-- The request is above `τ`, or it is a NaN. -/
def above (τ : ℚ) (request : Binary64) : Bool :=
  match request.value with
  | none => true
  | some x => decide (ExtRat.finite τ < x)

/-- A health code that grades a request. -/
structure Verdict (critical warning : Binary64 → Bool) (request : Binary64) (health : ℕ) :
    Prop where
  critical_iff : health = 2 ↔ critical request = true
  warning_iff : health = 1 ↔ critical request = false ∧ warning request = true
  nominal_iff : health = 0 ↔ warning request = false

/-- The requests behind the packets that leave a sensor, which was last asked for `asked`. -/
def requestsFrom : Binary64 → List SensorTurn → List Binary64
  | _, [] => []
  | asked, turn :: turns =>
    let sent (request : Binary64) := if turn.sendto.toBool then [request] else []
    match turn.op with
    | .setValue newValue => requestsFrom newValue turns
    | .send => sent asked ++ requestsFrom asked turns
    | .updateAndSend newValue => sent newValue ++ requestsFrom newValue turns

/-- The health codes in the telemetry among the calls of an application. -/
def telemetryHealth (cfe : Services) (tlmMid : ℕ) (calls : List Call) : List ℕ :=
  calls.filterMap fun call => match call with
    | .transmitMsg msg => if cfe.getMsgId msg = tlmMid then some (msg.getD 20 0).toNat else none
    | _ => none

/-- A Solar Array Close command. -/
def closes (cfe : Services) : Call → Bool
  | .transmitMsg msg => decide (cfe.getMsgId msg = 0x1890 ∧ cfe.getFcnCode msg = 6)
  | _ => false

/-! ### From a request to a packet -/

/-- A packet with the single that the stored request is rounded to. -/
structure Requested (c : SensorClass) (m : Monitor) (request : Binary64) (packet : Bytes) :
    Prop where
  length : packet.length = 12
  sendData : SendData m.cmdMid packet
  reading : ∃ x : Binary64, x.value = (c.clamp request).value ∧ narrow x = some (readingOf packet)

section Sensor
variable {c : SensorClass} {m : Monitor} {lo hi : ℚ}

/-- Every send whose `sendto` succeeds puts the rounded value on the wire. -/
theorem requested_send (h : Paired c m) (hc : c.WellFormed lo hi) {s : BaseSensor}
    (hs : Within lo hi s.value) {request : Binary64} (hvalue : s.value.value = (c.clamp request).value)
    (n : ℕ) : ∃ packet, (s.send c (.ok n)).2.transmitted = s.transmitted ++ [packet] ∧
      Requested c m request packet := by
  obtain ⟨q, hq, hlo, hhi⟩ := hs
  have habs : |q| ≤ Ieee.maxBinary32 := abs_le.mpr ⟨hc.lo_ge.trans hlo, hhi.trans hc.hi_le⟩
  obtain ⟨reading, hnarrow⟩ := Option.isSome_iff_exists.mp (Ieee.narrow_isSome hq habs)
  have hpayload : packFloat s.value = .ok (beBytes 4 reading.toNat) := by rw [packFloat, hnarrow]
  obtain ⟨hlen, hsend, hread⟩ := sendData_cmdBytes h.mid_lt reading s.seqCount
  refine ⟨cmdBytes m.cmdMid 2 (beBytes 4 reading.toNat) s.seqCount, ?_, hlen, hsend, s.value,
    hvalue, ?_⟩
  · rw [BaseSensor.send_eq, hpayload, h.funcCode]
    dsimp only
    rw [if_pos hc.mid, h.mid]
    rfl
  · rw [hread]
    exact hnarrow

theorem transmitted_send_error (s : BaseSensor) (e : PyException) :
    (s.send c (.error e)).2.transmitted = s.transmitted := by
  rw [BaseSensor.send_eq]
  cases packFloat s.value with
  | error e => rfl
  | ok payload =>
    dsimp only
    split_ifs <;> rfl

/-- One send, whatever its outcome. -/
theorem requested_attempt (h : Paired c m) (hc : c.WellFormed lo hi) {s : BaseSensor}
    (hs : Within lo hi s.value) {request : Binary64} (hvalue : s.value.value = (c.clamp request).value)
    (sendto : Except PyException ℕ) :
    ∃ packets, (s.send c sendto).2.transmitted = s.transmitted ++ packets ∧
      List.Forall₂ (Requested c m) (if sendto.toBool then [request] else []) packets := by
  cases sendto with
  | error e => exact ⟨[], by rw [transmitted_send_error, List.append_nil], .nil⟩
  | ok n =>
    obtain ⟨packet, htransmitted, hpacket⟩ := requested_send h hc hs hvalue n
    exact ⟨[packet], htransmitted, .cons hpacket .nil⟩

theorem requested_foldl (h : Paired c m) (hc : c.WellFormed lo hi) (turns : List SensorTurn)
    {s : BaseSensor} (hs : Within lo hi s.value) {asked : Binary64}
    (hvalue : s.value.value = (c.clamp asked).value) :
    ∃ packets, (turns.foldl (BaseSensor.call c) s).transmitted = s.transmitted ++ packets ∧
      List.Forall₂ (Requested c m) (requestsFrom asked turns) packets := by
  induction turns generalizing s asked with
  | nil => exact ⟨[], (List.append_nil _).symm, .nil⟩
  | cons turn turns ih =>
    obtain ⟨op, sendto⟩ := turn
    -- a send leaves the value alone, and the later packets follow its own
    have hstep {s : BaseSensor} (hs : Within lo hi s.value) {request : Binary64}
        (hvalue : s.value.value = (c.clamp request).value) :
        ∃ packets, (turns.foldl (BaseSensor.call c) (s.send c sendto).2).transmitted =
            s.transmitted ++ packets ∧
          List.Forall₂ (Requested c m) ((if sendto.toBool then [request] else []) ++
            requestsFrom request turns) packets := by
      have hsame := SendFailures.value_send c sendto s
      obtain ⟨first, hfirst, hpacket⟩ := requested_attempt h hc hs hvalue sendto
      have hvalue' : (s.send c sendto).2.value.value = (c.clamp request).value := by rwa [hsame]
      obtain ⟨rest, hrest, hpackets⟩ := ih (s := (s.send c sendto).2) (by rwa [hsame]) hvalue'
      refine ⟨first ++ rest, ?_, List.rel_append hpacket hpackets⟩
      rw [hrest, hfirst, List.append_assoc]
    cases op with
    | setValue newValue => exact ih (s := s.setValue c newValue) (hc.within_clamp newValue) rfl
    | send => exact hstep hs hvalue
    | updateAndSend newValue =>
      exact hstep (s := s.setValue c newValue) (hc.within_clamp newValue) rfl

/-- Whatever is done with a sensor, its packets carry the requests in order. -/
theorem requested_run (h : Paired c m) (hc : c.WellFormed lo hi) (turns : List SensorTurn) :
    List.Forall₂ (Requested c m) (requestsFrom c.default turns)
      (BaseSensor.run c turns).transmitted := by
  obtain ⟨q, hq, hlo, hhi⟩ := hc.default
  obtain ⟨packets, hpackets, hall⟩ := requested_foldl h hc turns (s := .init c)
    ⟨q, hq, hlo, hhi⟩ (hq.trans (hc.value_clamp_of_within hq hlo hhi).symm)
  rw [BaseSensor.run, hpackets]
  exact hall

/-! ### From a request to a verdict -/

/-- The single that a request ends up as exceeds the limit exactly when `p` says so. -/
def DecidedBy (c : SensorClass) (limit : ℚ) (p : Binary64 → Bool) : Prop :=
  ∀ (request x : Binary64) (r : Binary32), x.value = (c.clamp request).value → narrow x = some r →
    (r.Exceeds limit ↔ p request = true)

/-- A limit inside the range is decided by its cut. -/
theorem decidedBy_above (hc : c.WellFormed lo hi) {cut : Binary64} {τ limit : ℚ}
    (hcut : CutsAt cut τ limit) (hlo : lo ≤ τ) (hhi : τ < hi) : DecidedBy c limit (above τ) := by
  intro request x r hx hr
  obtain ⟨q, hq, -, -⟩ := hc.within_clamp request
  rw [hcut.exceeds_iff (hx.trans hq) hr]
  have hlt (p : ℚ) : τ < p ↔ ExtRat.finite τ < ExtRat.finite p := by
    rw [← not_le, ← not_le, ExtRat.finite_le_finite]
  unfold above
  cases hv : request.value with
  | none =>
    have hmax : (c.clamp request).value = some (ExtRat.finite hi) := by
      rw [SensorClass.clamp_nan c hv, value_pyMax hc.minValue hc.maxValue,
        max_eq_right (ExtRat.finite_le_finite.mpr hc.lo_le_hi)]
    rw [hmax, Option.some_inj, ExtRat.finite_inj] at hq
    exact iff_of_true (hq ▸ hhi) rfl
  | some v =>
    rw [hc.value_clamp hv, Option.some_inj] at hq
    rw [hlt, ← hq, lt_max_iff, lt_min_iff, ← hlt, ← hlt, decide_eq_true_iff]
    constructor
    · rintro (hbelow | hboth)
      · exact absurd hlo (not_le.mpr hbelow)
      · exact hboth.2
    · exact fun habove => .inr ⟨hhi, habove⟩

end Sensor

/-! ### From packets to actions -/

section Monitor
variable {c : SensorClass} {m : Monitor} {cfe : Services} {limit warning : ℚ}
variable {IsFdir : List Call → Prop} {critical warned : Binary64 → Bool}

/-- What the calls of a monitor that answer one request amount to. -/
structure Judged (cfe : Services) (tlmMid : ℕ) (critical warned : Binary64 → Bool)
    (request : Binary64) (block : List Call) : Prop where
  telemetry : ∃ health, telemetryHealth cfe tlmMid block = [health] ∧
    Verdict critical warned request health
  closes : tlmMid = 0x0882 → block.countP (closes cfe) = if critical request then 1 else 0
  quiet : critical request = false → ∃ tlm, block = [.transmitMsg tlm] ∧ cfe.getMsgId tlm = tlmMid

/-- An action that sends no telemetry, and closes the array when RAD_APP takes it. -/
def Harmless (cfe : Services) (tlmMid : ℕ) (IsFdir : List Call → Prop) : Prop :=
  ∀ action, IsFdir action → telemetryHealth cfe tlmMid action = [] ∧
    (tlmMid = 0x0882 → action.countP (closes cfe) = 1)

theorem judged_of_answers (hcrit : DecidedBy c limit critical) (hwarn : DecidedBy c warning warned)
    (hharmless : Harmless cfe m.tlmMid IsFdir) {request : Binary64} {packet : Bytes}
    (hrequest : Requested c m request packet) {block : List Call}
    (h : Answers cfe m.tlmMid limit warning IsFdir packet block) :
    Judged cfe m.tlmMid critical warned request block := by
  obtain ⟨x, hx, hr⟩ := hrequest.reading
  obtain ⟨action, tlm, rfl, _, hmid, _, hgrades, hfdir, hnone⟩ := h
  have hcrit' := hcrit request x _ hx hr
  have hwarn' := hwarn request x _ hx hr
  have hverdict : Verdict critical warned request (tlm.getD 20 0).toNat := by
    constructor
    · rw [hgrades.critical_iff, hcrit']
    · rw [hgrades.warning_iff, hcrit', hwarn', Bool.not_eq_true]
    · rw [hgrades.nominal_iff, hwarn', Bool.not_eq_true]
  have htlm : telemetryHealth cfe m.tlmMid [.transmitMsg tlm] = [(tlm.getD 20 0).toNat] := by
    simp [telemetryHealth, hmid]
  have hopen (hrad : m.tlmMid = 0x0882) : [Call.transmitMsg tlm].countP (closes cfe) = 0 := by
    simp [closes, hmid, hrad]
  have hquiet (h : critical request = false) : action = [] := by
    refine hnone fun h2 => ?_
    rw [hverdict.critical_iff, h] at h2
    cases h2
  constructor
  · refine ⟨_, ?_, hverdict⟩
    have haction : telemetryHealth cfe m.tlmMid action = [] := by
      cases hcase : critical request with
      | true => exact (hharmless action (hfdir (hverdict.critical_iff.mpr hcase))).1
      | false =>
        rw [hquiet hcase]
        rfl
    rw [telemetryHealth, List.filterMap_append, ← telemetryHealth, ← telemetryHealth, haction,
      htlm, List.nil_append]
  · intro hrad
    rw [List.countP_append, hopen hrad]
    cases hcase : critical request with
    | true =>
      rw [(hharmless action (hfdir (hverdict.critical_iff.mpr hcase))).2 hrad]
      rfl
    | false =>
      rw [hquiet hcase]
      rfl
  · intro hcase
    rw [hquiet hcase]
    exact ⟨tlm, rfl, hmid⟩

/-- The requests behind a run of a monitor that receives all packets of a sensor. -/
theorem judged_main (h : Paired c m) {lo hi : ℚ} (hc : c.WellFormed lo hi)
    (hcfe : cfe.Documented) (hmid : m.tlmMid < 65536) (hm : Thresholds m limit warning)
    (hfdir : ∀ value count, IsFdir (m.criticalActions cfe value count))
    (hharmless : Harmless cfe m.tlmMid IsFdir) (hcrit : DecidedBy c limit critical)
    (hwarn : DecidedBy c warning warned) (turns : List SensorTurn) {script : Script}
    (hreceived : script.received.map SbBuffer.message = (BaseSensor.run c turns).transmitted) :
    ∃ blocks, List.Forall₂ (Judged cfe m.tlmMid critical warned)
        (requestsFrom c.default turns) blocks ∧
      (m.main cfe script).actions = blocks.flatten := by
  have hrequested := requested_run h hc turns
  rw [← hreceived] at hrequested
  have hmessage : ∀ packet ∈ script.received.map SbBuffer.message,
      packet.length = 12 ∧ SendData m.cmdMid packet :=
    forall_right_of_forall₂ (hrequested.imp fun _ _ hx => ⟨hx.length, hx.sendData⟩)
  have hsize : ∀ buffer ∈ script.received, 12 ≤ buffer.size := by
    intro buffer hbuffer
    rw [← buffer.message_length, (hmessage _ (List.mem_map_of_mem hbuffer)).1]
  have hprocessed : m.processed cfe script = script.received :=
    List.filter_eq_self.mpr fun buffer hbuffer =>
      addressed_of_sendData hcfe h.isCommand h.fcSendData
        (hmessage _ (List.mem_map_of_mem hbuffer)).2
  obtain ⟨_, ⟨blocks, hblocks, hactions⟩, _⟩ := monitorLaw hcfe hmid hm hfdir hsize
  rw [hprocessed] at hblocks
  refine ⟨blocks, ?_, hactions⟩
  clear hactions hreceived hmessage
  generalize script.received.map SbBuffer.message = packets at hrequested hblocks
  generalize requestsFrom c.default turns = requests at hrequested ⊢
  induction hrequested generalizing blocks with
  | nil =>
    cases hblocks
    exact .nil
  | cons hrequest _ ih =>
    cases hblocks with
    | cons hblock hblocks =>
      exact .cons (judged_of_answers hcrit hwarn hharmless hrequest hblock) (ih _ hblocks)

theorem verdicts_flatten {tlmMid : ℕ} {requests : List Binary64} {blocks : List (List Call)}
    (h : List.Forall₂ (Judged cfe tlmMid critical warned) requests blocks) :
    List.Forall₂ (Verdict critical warned) requests
      (telemetryHealth cfe tlmMid blocks.flatten) := by
  induction h with
  | nil => exact .nil
  | cons hblock _ ih =>
    obtain ⟨health, hhealth, hverdict⟩ := hblock.telemetry
    rw [List.flatten_cons, telemetryHealth, List.filterMap_append, ← telemetryHealth,
      ← telemetryHealth, hhealth]
    exact .cons hverdict ih

theorem closes_flatten {requests : List Binary64} {blocks : List (List Call)}
    (h : List.Forall₂ (Judged cfe 0x0882 critical warned) requests blocks) :
    blocks.flatten.countP (closes cfe) = requests.countP critical := by
  induction h with
  | nil => rfl
  | cons hblock _ ih =>
    rw [List.flatten_cons, List.countP_append, List.countP_cons, ih, hblock.closes rfl, add_comm]

end Monitor

/-! ### The two sensors -/

theorem cutsAt_radLimit : CutsAt 0x4062C00010000000#64 (150 + 1 / 2 ^ 17) 150 where
  value := by decide +kernel
  sign := by decide
  below := ⟨0x43160000#32, 150, by decide +kernel, by decide, le_refl _⟩
  above := ⟨_, 0x43160001#32, _, rfl, by decide +kernel, rfl, by decide +kernel⟩

theorem cutsAt_radWarning : CutsAt 0x4059000010000000#64 (100 + 1 / 2 ^ 18) 100 where
  value := by decide +kernel
  sign := by decide
  below := ⟨0x42C80000#32, 100, by decide +kernel, by decide, le_refl _⟩
  above := ⟨_, 0x42C80001#32, _, rfl, by decide +kernel, rfl, by decide +kernel⟩

theorem harmless_isSolarClose (cfe : Services) : Harmless cfe RadApp.tlmMid (IsSolarClose cfe) := by
  rintro action ⟨cmd, format, args, rfl, _, hmid, hcode⟩
  constructor
  · simp [telemetryHealth, hmid, RadApp.tlmMid]
  · intro _
    simp [closes, hmid, hcode]

/-- Every run of the radiation sensor whose packets all reach RAD_APP: each
request is graded by two doubles, and the array is closed once for each request
above the larger of them, or not a number. -/
theorem radiation_requests_judged (cfe : Services) (hcfe : cfe.Documented)
    (turns : List SensorTurn) (script : Script)
    (hreceived : script.received.map SbBuffer.message =
      (BaseSensor.run radiationSensor turns).transmitted) :
    let requests := requestsFrom radiationSensor.default turns
    let final := RadApp.main cfe script
    List.Forall₂ (Verdict (above (150 + 1 / 2 ^ 17)) (above (100 + 1 / 2 ^ 18))) requests
        (telemetryHealth cfe RadApp.tlmMid final.actions) ∧
      final.actions.countP (closes cfe) = requests.countP (above (150 + 1 / 2 ^ 17)) := by
  intro requests final
  obtain ⟨blocks, hblocks, hactions⟩ := judged_main (m := RadApp.monitor) paired_radiation
    radiationSensor_wellFormed hcfe (by decide) radThresholds (isSolarClose_criticalActions hcfe)
    (harmless_isSolarClose cfe)
    (decidedBy_above radiationSensor_wellFormed cutsAt_radLimit (by norm_num) (by norm_num))
    (decidedBy_above radiationSensor_wellFormed cutsAt_radWarning (by norm_num) (by norm_num))
    turns hreceived
  change final.actions = blocks.flatten at hactions
  rw [hactions]
  exact ⟨verdicts_flatten hblocks, closes_flatten hblocks⟩

/-- Requests for the double right above 150, for the cut, for the double above
the cut, and for a NaN. -/
def closeRequests : List SensorTurn :=
  [⟨.updateAndSend 0x4062C00000000001#64, .ok 12⟩, ⟨.updateAndSend 0x4062C00010000000#64, .ok 12⟩,
    ⟨.updateAndSend 0x4062C00010000001#64, .ok 12⟩, ⟨.updateAndSend 0x7FF8000000000000#64, .ok 12⟩]

/-- The bus hands over the packets as they are. -/
def handedOver (packets : List Bytes) : List SbBuffer :=
  packets.filterMap fun packet => if h : packet.length = 12 then some (exactly packet h) else none

/-- Only the last two close the array. -/
theorem radiation_requests_judged_close :
    (RadApp.main ccsdsV1 (nominal (handedOver (BaseSensor.run radiationSensor
      closeRequests).transmitted))).actions.countP (closes ccsdsV1) = 2 := by
  have hcount := (radiation_requests_judged ccsdsV1 ccsdsV1_documented closeRequests
    (nominal (handedOver (BaseSensor.run radiationSensor closeRequests).transmitted))
    (by decide +kernel)).2
  exact hcount.trans (by decide +kernel)

end CfsBridge.RequestThresholds
