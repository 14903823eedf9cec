import CfsBridge.CcsdsUtils
import CfsBridge.Monitor

/-!
# RAD_APP and THERM_APP

The two flight applications as instances of the monitor, the law of all their
runs, and what they make of a message that is too short for its reading.
-/
namespace CfsBridge.FlightApps
open Bytes Cfe
open CfsBridge.Monitor
open Ieee (Binary32 ExtRat)

/-! ### RAD_APP -/

namespace RadApp

def cmdMid : ℕ := 0x1882
def tlmMid : ℕ := 0x0882
def solarArrayCmdMid : ℕ := 0x1890
def fcSendData : ℕ := 2
def fcSolarClose : ℕ := 6

/-- `150.0f`. -/
def radLimit : Binary32 := 0x43160000#32

/-- `100.0f`. -/
def radWarning : Binary32 := 0x42C80000#32

/-- The FDIR branch: close the solar array and report it. -/
def critical (cfe : Services) (radLevel : Binary32) (_triggerCount : UInt32) : List Call :=
  let solarCmd := cfe.setFcnCode (cfe.msgInitCmd solarArrayCmdMid 8) fcSolarClose
  [.osPrintf "RAD_APP: FDIR TRIGGERED - Radiation %.2f > %.2f mSv/h\n"
      [.float radLevel, .float radLimit],
    .osPrintf "RAD_APP: Sending SOLAR ARRAY CLOSE CMD (MID=0x%04X FC=%u)\n"
      [.uint solarArrayCmdMid, .uint fcSolarClose],
    .transmitMsg solarCmd.val,
    .sendEvent fdirCritEid .critical
      ("RAD_APP FDIR: Radiation %.1f mSv/h exceeds %.1f - " ++
        "SOLAR ARRAY CLOSE CMD SENT (MID 0x%04X FC %u)")
      [.float radLevel, .float radLimit, .uint solarArrayCmdMid, .uint fcSolarClose]]

def monitor : Monitor where
  name := "RAD_APP"
  quantity := "Radiation"
  unit := "mSv/h"
  cmdMid := cmdMid
  tlmMid := tlmMid
  fcSendData := fcSendData
  limit := radLimit
  warning := radWarning
  pipeDepth := 10
  pipeName := "RAD_CMD_PIPE"
  initFormat := "RAD_APP Initialized: CMD=0x%04X TLM=0x%04X FDIR_LIMIT=%.1f mSv/h"
  warnFormat := "RAD_APP: Radiation %.1f mSv/h elevated (warn > %.1f)"
  dataFormat := "RAD_APP TLM: Radiation=%.2f Health=%u"
  critical := critical
  critical_isInit cfe value count := by simp [critical, Call.isInit]

/-- `RAD_APP_ProcessSensorData`. -/
def processSensorData (cfe : Services) (now : SysTime) (buffer : SbBuffer) (d : AppData) :
    AppData := monitor.processSensorData cfe now buffer d

/-- `RAD_APP_Main`. -/
def main (cfe : Services) (script : Script) : AppData := monitor.main cfe script

end RadApp

/-! ### THERM_APP -/

namespace ThermApp

def cmdMid : ℕ := 0x1883
def tlmMid : ℕ := 0x0883
def fcSendData : ℕ := 2

/-- `100.0f`. -/
def tempLimit : Binary32 := 0x42C80000#32

/-- `80.0f`. -/
def tempWarning : Binary32 := 0x42A00000#32

/-- The FDIR branch: report the temperature and the trigger count. -/
def critical (_cfe : Services) (temperature : Binary32) (triggerCount : UInt32) : List Call :=
  [.osPrintf "THERM_APP: FDIR TRIGGERED - Temperature %.2f C > %.2f C limit\n"
      [.float temperature, .float tempLimit],
    .sendEvent fdirCritEid .critical
      ("THERM_APP FDIR: Temperature %.1f C exceeds limit %.1f C " ++ "(trigger count: %lu)")
      [.float temperature, .float tempLimit, .uint triggerCount.toNat]]

def monitor : Monitor where
  name := "THERM_APP"
  quantity := "Temperature"
  unit := "C"
  cmdMid := cmdMid
  tlmMid := tlmMid
  fcSendData := fcSendData
  limit := tempLimit
  warning := tempWarning
  pipeDepth := 10
  pipeName := "THERM_CMD_PIPE"
  initFormat := "THERM_APP Initialized: CMD=0x%04X TLM=0x%04X FDIR_LIMIT=%.1f C"
  warnFormat := "THERM_APP: Temperature %.1f C elevated (warn > %.1f C)"
  dataFormat := "THERM_APP TLM: Temperature=%.2f C Health=%u"
  critical := critical
  critical_isInit cfe value count := by simp [critical, Call.isInit]

/-- `THERM_APP_ProcessSensorData`. -/
def processSensorData (cfe : Services) (now : SysTime) (buffer : SbBuffer) (d : AppData) :
    AppData := monitor.processSensorData cfe now buffer d

/-- `THERM_APP_Main`. -/
def main (cfe : Services) (script : Script) : AppData := monitor.main cfe script

end ThermApp

/-! ### Grades -/

/-- The decimal thresholds of a monitor. -/
structure Thresholds (m : Monitor) (limit warning : ℚ) : Prop where
  limit_value : m.limit.value = some (ExtRat.finite limit)
  warning_value : m.warning.value = some (ExtRat.finite warning)
  warning_le : warning ≤ limit

theorem radThresholds : Thresholds RadApp.monitor 150 100 where
  limit_value := by decide
  warning_value := by decide
  warning_le := by norm_num

theorem thermThresholds : Thresholds ThermApp.monitor 100 80 where
  limit_value := by decide
  warning_value := by decide
  warning_le := by norm_num

/-- A health code that grades a reading by the two thresholds. -/
structure Grades (limit warning : ℚ) (value : Binary32) (health : ℕ) : Prop where
  critical_iff : health = 2 ↔ value.Exceeds limit
  warning_iff : health = 1 ↔ ¬ value.Exceeds limit ∧ value.Exceeds warning
  nominal_iff : health = 0 ↔ ¬ value.Exceeds warning

/-- A NaN is nominal under any thresholds. -/
theorem Grades.of_nan {limit warning : ℚ} {value : Binary32} {health : ℕ}
    (h : Grades limit warning value health) (hnan : value.value = none) : health = 0 :=
  h.nominal_iff.mpr (Binary32.not_exceeds_of_nan hnan warning)

/-- The grade of a reading is also that of the double it widens to. -/
theorem Grades.quiet {limit warning : ℚ} {value : Binary32} {health : ℕ}
    (h : Grades limit warning value health) : Grades limit warning value.quiet health where
  critical_iff := by rw [Binary32.quiet_exceeds, h.critical_iff]
  warning_iff := by rw [Binary32.quiet_exceeds, Binary32.quiet_exceeds, h.warning_iff]
  nominal_iff := by rw [Binary32.quiet_exceeds, h.nominal_iff]

theorem grades_healthOf {m : Monitor} {limit warning : ℚ} (h : Thresholds m limit warning)
    (value : Binary32) : Grades limit warning value (m.healthOf value).toNat := by
  have hlimit := Binary32.gt_iff_exceeds (b := value) h.limit_value
  have hwarning := Binary32.gt_iff_exceeds (b := value) h.warning_value
  have hmono : value.Exceeds limit → value.Exceeds warning := Binary32.Exceeds.mono h.warning_le
  unfold healthOf
  by_cases hcrit : value.gt m.limit = true
  · have hboth := hmono (hlimit.mp hcrit)
    constructor <;> simp [hcrit, hlimit.mp hcrit, hboth, healthCritical]
  · have hnot : ¬ value.Exceeds limit := fun hx => hcrit (hlimit.mpr hx)
    by_cases hwarn : value.gt m.warning = true
    · constructor <;> simp [hcrit, hwarn, hnot, hwarning.mp hwarn, healthWarning]
    · have hlow : ¬ value.Exceeds warning := fun hx => hwarn (hwarning.mpr hx)
      constructor <;> simp [hcrit, hwarn, hnot, hlow, healthNominal]

/-! ### Whole runs -/

/-- A successful `ReceiveBuffer`. -/
def delivery (buffer : SbBuffer) (now : SysTime) : Turn where
  runLoop := .plain
  rc := cfeSuccess
  buffer := buffer
  now := now

/-- A run in which every call succeeds and the given buffers are received. -/
def nominal (buffers : List SbBuffer) : Script where
  evsRegister := cfeSuccess
  createPipe := cfeSuccess
  pipe := 1
  subscribe := cfeSuccess
  turns := buffers.map fun buffer => delivery buffer ⟨0, 0⟩

/-- One Solar Array Close command and one critical event. -/
def IsSolarClose (cfe : Services) (action : List Call) : Prop :=
  ∃ cmd format args,
    action = [.transmitMsg cmd, .sendEvent fdirCritEid .critical format args] ∧
      cmd.length = 8 ∧ cfe.getMsgId cmd = 0x1890 ∧ cfe.getFcnCode cmd = 6

/-- One critical event. -/
def IsCriticalEvent (action : List Call) : Prop :=
  ∃ format args, action = [.sendEvent fdirCritEid .critical format args]

/-- The actions that answer one message: at most the FDIR action, and right
after it one telemetry packet with the message's own reading and its grade.
The FDIR action is taken exactly when the packet says critical. -/
def Answers (cfe : Services) (tlmMid : ℕ) (limit warning : ℚ) (IsFdir : List Call → Prop)
    (message : Bytes) (block : List Call) : Prop :=
  ∃ action tlm, block = action ++ [.transmitMsg tlm] ∧ tlm.length = 24 ∧
    cfe.getMsgId tlm = tlmMid ∧
    ofLE (slice 16 20 tlm) = ofBE (slice 8 12 message) ∧
    Grades limit warning (readingOf message) (tlm.getD 20 0).toNat ∧
    ((tlm.getD 20 0).toNat = 2 → IsFdir action) ∧
    ((tlm.getD 20 0).toNat ≠ 2 → action = [])

/-- The law of a monitor's run that ended with the data `final`. -/
def MonitorLaw (m : Monitor) (cfe : Services) (limit warning : ℚ) (IsFdir : List Call → Prop)
    (script : Script) (final : AppData) : Prop :=
  let messages := (m.processed cfe script).map SbBuffer.message
  final.inits = m.initCalls script ∧
    (∃ blocks, List.Forall₂ (Answers cfe m.tlmMid limit warning IsFdir) messages blocks ∧
      final.actions = blocks.flatten) ∧
    final.packetCount = UInt32.ofNat messages.length ∧
    final.fdirTriggerCount =
      UInt32.ofNat (messages.countP fun message => (readingOf message).gt m.limit)

theorem readingOf_message {buffer : SbBuffer} (h : 12 ≤ buffer.size) :
    readingOf buffer.message = readingOf buffer.bytes := by
  rw [readingOf, readingOf, SbBuffer.message, slice, slice, List.take_take, min_eq_left h]

/-- The bits of a whole reading are the four bytes themselves. -/
theorem toNat_readingOf {message : Bytes} (h : 12 ≤ message.length) :
    (readingOf message).toNat = ofBE (slice 8 12 message) := by
  have hlen : (slice 8 12 message).length = 4 := slice_length_of_le (by omega) 8
  have hlt := ofBE_lt (slice 8 12 message)
  rw [hlen] at hlt
  rw [readingOf, BitVec.toNat_ofNat, Nat.mod_eq_of_lt (by simpa using hlt)]

/-- A reaction of the application is an answer to its message. -/
theorem answers_of_reaction {m : Monitor} {cfe : Services} (hcfe : cfe.Documented)
    (hmid : m.tlmMid < 65536) {limit warning : ℚ} (hm : Thresholds m limit warning)
    {IsFdir : List Call → Prop} (hfdir : ∀ value count, IsFdir (m.criticalActions cfe value count))
    {buffer : SbBuffer} (hsize : 12 ≤ buffer.size) {block : List Call}
    (h : m.Reaction cfe buffer block) :
    Answers cfe m.tlmMid limit warning IsFdir buffer.message block := by
  obtain ⟨count, tlm, rfl, hvalue, hhealth, hheader⟩ := h
  have hgrades := grades_healthOf hm (readingOf buffer.bytes)
  have hcritical := Binary32.gt_iff_exceeds (b := readingOf buffer.bytes) hm.limit_value
  have hlen : 12 ≤ buffer.message.length := by rwa [buffer.message_length]
  have hid : cfe.getMsgId tlm.bytes = m.tlmMid := by
    rw [hcfe.getMsgId_eq (by simp), tlm.bytes_mid, hheader, ofBE_beBytes_of_lt (by simpa using hmid)]
  have hbits : ofLE (slice 16 20 tlm.bytes) = ofBE (slice 8 12 buffer.message) := by
    have hlt := (readingOf buffer.bytes).isLt
    rw [tlm.bytes_value, hvalue, ofLE_leBytes, Nat.mod_eq_of_lt (by simpa using hlt),
      ← readingOf_message hsize, toNat_readingOf hlen]
  refine ⟨_, tlm.bytes, rfl, tlm.bytes_length, hid, hbits, ?_, ?_, ?_⟩
  · rw [readingOf_message hsize, tlm.bytes_health, hhealth]
    exact hgrades
  · rw [tlm.bytes_health, hhealth]
    intro h2
    rw [if_pos (hcritical.mpr (hgrades.critical_iff.mp h2))]
    exact hfdir _ _
  · rw [tlm.bytes_health, hhealth]
    intro h2
    exact if_neg fun hgt => h2 (hgrades.critical_iff.mpr (hcritical.mp hgt))

theorem monitorLaw {m : Monitor} {cfe : Services} (hcfe : cfe.Documented)
    (hmid : m.tlmMid < 65536) {limit warning : ℚ} (hm : Thresholds m limit warning)
    {IsFdir : List Call → Prop} (hfdir : ∀ value count, IsFdir (m.criticalActions cfe value count))
    {script : Script} (hsize : ∀ buffer ∈ script.received, 12 ≤ buffer.size) :
    MonitorLaw m cfe limit warning IsFdir script (m.main cfe script) := by
  obtain ⟨hreacted, hinits⟩ := reacted_main (m := m) hcfe hmid script
  have hlong : ∀ buffer ∈ m.processed cfe script, 12 ≤ buffer.size :=
    fun buffer hbuffer => hsize buffer (List.mem_of_mem_filter hbuffer)
  obtain ⟨blocks, hblocks, hactions⟩ := hreacted.actions
  refine ⟨hinits, ⟨blocks, ?_, hactions⟩, ?_, ?_⟩
  · have hall := (List.forall₂_and_left _ _).mpr ⟨hlong, hblocks⟩
    exact List.forall₂_map_left_iff.mpr
      (hall.imp fun _ _ hx => answers_of_reaction hcfe hmid hm hfdir hx.1 hx.2)
  · rw [hreacted.packetCount, List.length_map]
  · rw [hreacted.fdirTriggerCount, List.countP_map]
    refine congrArg _ (List.countP_congr fun buffer hbuffer => ?_)
    rw [Function.comp_apply, readingOf_message (hlong buffer hbuffer)]

theorem isSolarClose_criticalActions {cfe : Services} (hcfe : cfe.Documented)
    (value : Binary32) (count : UInt32) :
    IsSolarClose cfe (RadApp.monitor.criticalActions cfe value count) := by
  have hmid : (cfe.setFcnCode (cfe.msgInitCmd 0x1890 8) 6).val.take 2 = beBytes 2 0x1890 :=
    (hcfe.setFcnCode_mid _ 6).trans (hcfe.msgInitCmd_mid 8 (by decide))
  have hlen := (cfe.setFcnCode (cfe.msgInitCmd 0x1890 8) 6).property
  have hword : ofBE ((cfe.setFcnCode (cfe.msgInitCmd 0x1890 8) 6).val.take 2) = 0x1890 := by
    rw [hmid, ofBE_beBytes_of_lt (by decide)]
  refine ⟨(cfe.setFcnCode (cfe.msgInitCmd 0x1890 8) 6).val, _, _, rfl, hlen, ?_, ?_⟩
  · rw [hcfe.getMsgId_eq (by omega), hword]
  · rw [hcfe.getFcnCode_eq (by omega) (by rw [hword]; decide)]
    exact hcfe.setFcnCode_code _ (by decide)

/-- Whole runs of both applications, over every script of return codes and
every sequence of messages that carry a reading. -/
theorem main_law (cfe : Services) (hcfe : cfe.Documented) (script : Script)
    (hsize : ∀ buffer ∈ script.received, 12 ≤ buffer.size) :
    MonitorLaw RadApp.monitor cfe 150 100 (IsSolarClose cfe) script (RadApp.main cfe script) ∧
      MonitorLaw ThermApp.monitor cfe 100 80 IsCriticalEvent script (ThermApp.main cfe script) :=
  ⟨monitorLaw hcfe (by decide) radThresholds (isSolarClose_criticalActions hcfe) hsize,
    monitorLaw hcfe (by decide) thermThresholds (fun _ _ => ⟨_, _, rfl⟩) hsize⟩

/-- A reading of 200.0 for RAD_APP. -/
def hotCommand : SbBuffer where
  bytes := [0x18, 0x82, 0xC0, 0x00, 0x00, 0x05, 0x02, 0xA9, 0x43, 0x48, 0x00, 0x00]
  size := 12
  size_ge := by decide
  size_le := by decide
  length_ge := by decide

theorem main_law_hot :
    (RadApp.main ccsdsV1 (nominal [hotCommand])).packetCount = 1 ∧
      (RadApp.main ccsdsV1 (nominal [hotCommand])).fdirTriggerCount = 1 ∧
      (ThermApp.main ccsdsV1 (nominal [hotCommand])).packetCount = 0 := by
  obtain ⟨⟨_, _, hpackets, htriggers⟩, _, _, htherm, _⟩ :=
    main_law ccsdsV1 ccsdsV1_documented (nominal [hotCommand]) (by decide)
  exact ⟨hpackets.trans (by decide), htriggers.trans (by decide), htherm.trans (by decide)⟩

/-! ### Short messages -/

/-- A command with the given message ID and the function code for sensor data. -/
def SendData (mid : ℕ) (message : Bytes) : Prop :=
  ofBE (message.take 2) = mid ∧ (message.getD 6 0).toNat % 128 = 2

instance (mid : ℕ) (message : Bytes) : Decidable (SendData mid message) :=
  inferInstanceAs (Decidable (_ ∧ _))

/-- Whatever lies behind the message, the application takes the same FDIR
action and sends the same telemetry. -/
def ReactsToMessageOnly (m : Monitor) (cfe : Services) (message : Bytes) : Prop :=
  ∀ (buffer buffer' : SbBuffer) (now : SysTime) (d : AppData),
    buffer.message = message → buffer'.message = message →
      (m.receive cfe (delivery buffer now) d).actions =
        (m.receive cfe (delivery buffer' now) d).actions

theorem addressed_of_sendData {m : Monitor} {cfe : Services} (hcfe : cfe.Documented)
    (hcmd : IsCommand m.cmdMid) (hcode : m.fcSendData = 2) {buffer : SbBuffer}
    (h : SendData m.cmdMid buffer.message) : m.addressed cfe buffer = true := by
  have hge := buffer.size_ge
  have hle := buffer.size_le
  have htake : buffer.message.take 2 = buffer.bytes.take 2 := by
    rw [SbBuffer.message, List.take_take, min_eq_left (by omega)]
  have hbyte : buffer.message.getD 6 0 = buffer.bytes.getD 6 0 := by
    simp [SbBuffer.message, List.getD_eq_getElem?_getD, show 6 < buffer.size by omega]
  obtain ⟨hmid, hfc⟩ := h
  rw [htake] at hmid
  rw [hbyte] at hfc
  refine decide_eq_true ⟨?_, ?_⟩
  · rw [hcfe.getMsgId_eq (by omega), hmid]
  · rw [hcfe.getFcnCode_eq (by omega) (hmid ▸ hcmd), hfc, hcode]

/-- The dispatch hands an addressed message to the handler. -/
theorem receive_delivery {m : Monitor} {cfe : Services} {buffer : SbBuffer}
    (h : m.addressed cfe buffer = true) (now : SysTime) (d : AppData) :
    m.receive cfe (delivery buffer now) d =
      m.processSensorData cfe now buffer (d.call [.receiveBuffer d.commandPipe]) := by
  simp [receive, delivery, h]

/-- A message with `n` copies of a byte behind it. -/
def padded (message : Bytes) (h : 8 ≤ message.length) (fill : UInt8) : SbBuffer where
  bytes := message ++ List.replicate 12 fill
  size := message.length
  size_ge := h
  size_le := by simp
  length_ge := by simp

@[simp] theorem message_padded (message : Bytes) (h : 8 ≤ message.length) (fill : UInt8) :
    (padded message h fill).message = message := List.take_left

/-- Behind a short message the last byte of the reading is whatever was left there. -/
theorem readingOf_padded {message : Bytes} (h : 8 ≤ message.length) (hshort : message.length < 12)
    {fill fill' : UInt8}
    (heq : readingOf (padded message h fill).bytes = readingOf (padded message h fill').bytes) :
    fill = fill' := by
  have hlong (b : UInt8) : 12 ≤ (padded message h b).bytes.length := (padded message h b).length_ge
  have hbits := congrArg BitVec.toNat heq
  rw [toNat_readingOf (hlong fill), toNat_readingOf (hlong fill')] at hbits
  have hslice := ofBE_injective_of_length
    (by rw [slice_length, slice_length]; simp [padded]) hbits
  have hlast := congrArg (fun bs : Bytes => bs[3]?) hslice
  simpa [slice, padded, List.getElem?_append_right, show message.length ≤ 11 by omega,
    show 11 - message.length < 12 by omega, List.getElem?_replicate, -List.reduceReplicate]
    using hlast

/-- The last action of the handler is the telemetry packet with the reading. -/
theorem getLast_actions_processSensorData (m : Monitor) (cfe : Services) (now : SysTime)
    (buffer : SbBuffer) (d : AppData) : ∃ tlmPkt : TlmPkt,
      (m.processSensorData cfe now buffer d).actions.getLast? =
          some (.transmitMsg tlmPkt.bytes) ∧
        tlmPkt.processedValue = readingOf buffer.bytes := by
  have hstep : Handled m cfe now _ d _ := handled_processSensorData now buffer d
  refine ⟨(m.processSensorData cfe now buffer d).tlmPkt, ?_, ?_⟩
  · rw [hstep.actions, ← List.append_assoc, List.getLast?_concat]
  · rw [hstep.tlmPkt]

theorem TlmPkt.value_eq_of_bytes_eq {p q : TlmPkt} (h : p.bytes = q.bytes) :
    p.processedValue = q.processedValue := by
  have hslice : leBytes 4 p.processedValue.toNat = leBytes 4 q.processedValue.toNat := by
    rw [← p.bytes_value, ← q.bytes_value, h]
  have hnat := congrArg ofLE hslice
  have hp := p.processedValue.isLt
  have hq := q.processedValue.isLt
  rw [ofLE_leBytes, ofLE_leBytes, Nat.mod_eq_of_lt (by simpa using hp),
    Nat.mod_eq_of_lt (by simpa using hq)] at hnat
  exact BitVec.eq_of_toNat_eq hnat

/-- The application depends on the message alone exactly when the message
holds the whole reading. -/
theorem reactsToMessageOnly_iff {m : Monitor} {cfe : Services} (hcfe : cfe.Documented)
    (hcmd : IsCommand m.cmdMid) (hcode : m.fcSendData = 2) {message : Bytes}
    (hsize : 8 ≤ message.length) (hsend : SendData m.cmdMid message) :
    ReactsToMessageOnly m cfe message ↔ 12 ≤ message.length := by
  have haddr {buffer : SbBuffer} (hb : buffer.message = message) :
      m.addressed cfe buffer = true := addressed_of_sendData hcfe hcmd hcode (hb ▸ hsend)
  constructor
  · intro h
    by_contra hshort
    let d : AppData := .start
    let now : SysTime := ⟨0, 0⟩
    have hactions := h (padded message hsize 0) (padded message hsize 1) now d
      (message_padded ..) (message_padded ..)
    rw [receive_delivery (haddr (message_padded ..)),
      receive_delivery (haddr (message_padded ..))] at hactions
    obtain ⟨p, hp, hvalue⟩ := getLast_actions_processSensorData m cfe now
      (padded message hsize 0) (d.call [.receiveBuffer d.commandPipe])
    obtain ⟨q, hq, hvalue'⟩ := getLast_actions_processSensorData m cfe now
      (padded message hsize 1) (d.call [.receiveBuffer d.commandPipe])
    rw [hactions, hq] at hp
    have hbytes : q.bytes = p.bytes := by simpa using hp
    have hsame : readingOf (padded message hsize 0).bytes =
        readingOf (padded message hsize 1).bytes := by
      rw [← hvalue, ← hvalue', TlmPkt.value_eq_of_bytes_eq hbytes]
    exact absurd (readingOf_padded hsize (by omega) hsame) (by decide)
  · intro hlen buffer buffer' now d hb hb'
    have hread {b : SbBuffer} (hm : b.message = message) :
        networkToHostFloat (b.bytes.drop 8) = readingOf message := by
      have hb12 : 12 ≤ b.size := by rwa [← b.message_length, hm]
      rw [networkToHostFloat_buffer, ← readingOf_message hb12, hm]
    rw [receive_delivery (haddr hb), receive_delivery (haddr hb')]
    simp only [processSensorData, hread hb, hread hb']

/-- Both applications depend on a command alone exactly when it is long enough
for its reading. -/
theorem reaction_depends_on_message_iff (cfe : Services) (hcfe : cfe.Documented)
    (message : Bytes) (hsize : 8 ≤ message.length) :
    (SendData RadApp.cmdMid message →
      (ReactsToMessageOnly RadApp.monitor cfe message ↔ 12 ≤ message.length)) ∧
    (SendData ThermApp.cmdMid message →
      (ReactsToMessageOnly ThermApp.monitor cfe message ↔ 12 ≤ message.length)) :=
  ⟨reactsToMessageOnly_iff (m := RadApp.monitor) hcfe (by decide) rfl hsize,
    reactsToMessageOnly_iff (m := ThermApp.monitor) hcfe (by decide) rfl hsize⟩

/-- A header-only command to RAD_APP, as the dispatcher's default payload makes it. -/
def headerOnly : Bytes := [0x18, 0x82, 0xC0, 0x00, 0x00, 0x01, 0x02, 0xA6]

/-- The header-only command with four bytes left over behind it. -/
def leftover (tail : BitVec 32) : SbBuffer where
  bytes := headerOnly ++ beBytes 4 tail.toNat
  size := 8
  size_ge := le_refl 8
  size_le := by simp [headerOnly]
  length_ge := by simp [headerOnly]

/-- The message IDs on the bus. -/
def transmittedMids (cfe : Services) (d : AppData) : List ℕ :=
  d.actions.filterMap fun call => match call with
    | .transmitMsg msg => some (cfe.getMsgId msg)
    | _ => none

theorem headerOnly_closes_array :
    CcsdsUtils.packCmdPacket 0x1882 2 [] 0 = .ok headerOnly ∧
      (leftover 0x43480000#32).message = headerOnly ∧ (leftover 0#32).message = headerOnly ∧
      transmittedMids ccsdsV1 (RadApp.main ccsdsV1 (nominal [leftover 0x43480000#32])) =
        [0x1890, 0x0882] ∧
      transmittedMids ccsdsV1 (RadApp.main ccsdsV1 (nominal [leftover 0#32])) = [0x0882] := by
  decide

theorem reaction_depends_on_message_short :
    ¬ ReactsToMessageOnly RadApp.monitor ccsdsV1 headerOnly ∧
      ReactsToMessageOnly RadApp.monitor ccsdsV1 (headerOnly ++ [0x43, 0x48, 0x00, 0x00]) := by
  have hshort := (reaction_depends_on_message_iff ccsdsV1 ccsdsV1_documented headerOnly
    (by decide)).1 (by decide)
  have hlong := (reaction_depends_on_message_iff ccsdsV1 ccsdsV1_documented
    (headerOnly ++ [0x43, 0x48, 0x00, 0x00]) (by decide)).1 (by decide)
  exact ⟨fun h => absurd (hshort.mp h) (by decide), hlong.mpr (by decide)⟩

end CfsBridge.FlightApps
