import CfsBridge.Cfe

/-!
# The flight monitors

RAD_APP and THERM_APP are one program with different constants, texts and
critical action. This is that program: initialisation over arbitrary return
codes, the dispatch loop, and the handler that decodes a reading, grades it
twice (once for the health code, once for the action) and publishes it.
-/
namespace CfsBridge
open Bytes Cfe
open Ieee (Binary32)

/-- What distinguishes one monitor from the other. `critical` are the calls of
the FDIR branch, given the reading and the trigger count. -/
structure Monitor where
  name : String
  quantity : String
  unit : String
  cmdMid : ℕ
  tlmMid : ℕ
  fcSendData : ℕ
  limit : Binary32
  warning : Binary32
  pipeDepth : ℕ
  pipeName : String
  initFormat : String
  warnFormat : String
  dataFormat : String
  critical : Services → Binary32 → UInt32 → List Call
  critical_isInit : ∀ cfe value count, ∀ call ∈ critical cfe value count, call.isInit = false

namespace Monitor

def initInfEid : ℕ := 1
def dataInfEid : ℕ := 2
def fdirWarnEid : ℕ := 3
def fdirCritEid : ℕ := 4

def healthNominal : UInt8 := 0
def healthWarning : UInt8 := 1
def healthCritical : UInt8 := 2

/-- The telemetry packet structure. -/
structure TlmPkt where
  tlmHeader : TlmHeader
  processedValue : Binary32
  healthStatus : UInt8

/-- The packet in memory: header, little-endian float, health, three spare bytes. -/
def TlmPkt.bytes (p : TlmPkt) : Bytes :=
  p.tlmHeader.val ++ leBytes 4 p.processedValue.toNat ++ [p.healthStatus] ++ [0, 0, 0]

@[simp] theorem TlmPkt.bytes_length (p : TlmPkt) : p.bytes.length = 24 := by
  simp [TlmPkt.bytes, p.tlmHeader.property]

theorem TlmPkt.bytes_mid (p : TlmPkt) : p.bytes.take 2 = p.tlmHeader.val.take 2 := by
  have hlen : 2 ≤ p.tlmHeader.val.length := by rw [p.tlmHeader.property]; omega
  simp only [TlmPkt.bytes, List.append_assoc]
  exact List.take_append_of_le_length hlen

theorem TlmPkt.bytes_value (p : TlmPkt) :
    slice 16 20 p.bytes = leBytes 4 p.processedValue.toNat := by
  simp [TlmPkt.bytes, slice_append, p.tlmHeader.property, slice_of_length_le,
    slice_zero_of_length_le]

theorem TlmPkt.bytes_health (p : TlmPkt) : p.bytes.getD 20 0 = p.healthStatus := by
  simp [TlmPkt.bytes, List.getD_eq_getElem?_getD, p.tlmHeader.property]

/-- The application data. `trace` are the calls made so far. -/
structure AppData where
  runStatus : UInt32
  commandPipe : ℕ
  tlmPkt : TlmPkt
  packetCount : UInt32
  fdirTriggerCount : UInt32
  trace : List Call

namespace AppData

/-- The data after `memset`, with the run status set. -/
def start : AppData where
  runStatus := appRun
  commandPipe := 0
  tlmPkt := ⟨⟨List.replicate 16 0, rfl⟩, 0, 0⟩
  packetCount := 0
  fdirTriggerCount := 0
  trace := []

def call (d : AppData) (calls : List Call) : AppData := { d with trace := d.trace ++ calls }

/-- A failed call: the system log line, and the run status that ends the application. -/
def fail (d : AppData) (format : String) (args : List Arg) : AppData :=
  { d.call [.writeToSysLog format args] with runStatus := appError }

end AppData

/-- One turn of the main loop: the answer of `RunLoop`, the return code of
`ReceiveBuffer`, the buffer it returns and the time. -/
structure Turn where
  runLoop : RunLoop
  rc : ℤ
  buffer : SbBuffer
  now : SysTime

/-- Everything the application is told by the executive. -/
structure Script where
  evsRegister : ℤ
  createPipe : ℤ
  pipe : ℕ
  subscribe : ℤ
  turns : List Turn

variable (m : Monitor) (cfe : Services)

/-- The health code, by the first if-chain. -/
def healthOf (value : Binary32) : UInt8 :=
  if value.gt m.limit then healthCritical
  else if value.gt m.warning then healthWarning
  else healthNominal

/-- The FDIR action, by the second if-chain. -/
def fdir (value : Binary32) (d : AppData) : AppData :=
  if value.gt m.limit then
    let d := { d with fdirTriggerCount := d.fdirTriggerCount + 1 }
    d.call (m.critical cfe value d.fdirTriggerCount)
  else if value.gt m.warning then
    d.call [.sendEvent fdirWarnEid .error m.warnFormat [.float value, .float m.warning]]
  else d

/-- The console and system log lines of a reading. -/
def console (value : Binary32) (packetCount : UInt32) : List Call :=
  let name := m.name
  let quantity := m.quantity
  let unit := m.unit
  [.osPrintf s!"{name}: [Pkt %lu] {quantity} = %.2f {unit}\n"
      [.uint packetCount.toNat, .float value],
    .writeToSysLog s!"{name}: {quantity} = %.2f {unit} (pkt %lu)\n"
      [.float value, .uint packetCount.toNat]]

/-- Fill, stamp and send the telemetry packet. -/
def publish (now : SysTime) (value : Binary32) (health : UInt8) (d : AppData) : AppData :=
  let tlmPkt := { d.tlmPkt with processedValue := value, healthStatus := health }
  let tlmPkt := { tlmPkt with tlmHeader := cfe.timeStampMsg now tlmPkt.tlmHeader }
  { d with tlmPkt := tlmPkt }.call
    [.transmitMsg tlmPkt.bytes,
      .sendEvent dataInfEid .information m.dataFormat [.float value, .uint health.toNat]]

/-- `ProcessSensorData`. The reading is taken from bytes 8 to 11 of the buffer,
whatever the size of the message in it. -/
def processSensorData (now : SysTime) (buffer : SbBuffer) (d : AppData) : AppData :=
  let value := networkToHostFloat (buffer.bytes.drop 8)
  let d := { d with packetCount := d.packetCount + 1 }
  let d := d.call (m.console value d.packetCount)
  let health := m.healthOf value
  let d := m.fdir cfe value d
  m.publish cfe now value health d

/-! ### Main -/

def register (rc : ℤ) (d : AppData) : AppData :=
  let d := d.call [.evsRegister]
  if rc ≠ cfeSuccess then
    d.fail (m.name ++ ": Error registering events, RC=0x%08lX\n") [.status rc]
  else d

def createPipe (rc : ℤ) (pipe : ℕ) (d : AppData) : AppData :=
  if d.runStatus = appRun then
    let d := { d.call [.createPipe m.pipeDepth m.pipeName] with commandPipe := pipe }
    if rc ≠ cfeSuccess then
      d.fail (m.name ++ ": Error creating pipe, RC=0x%08lX\n") [.status rc]
    else d
  else d

def subscribe (rc : ℤ) (d : AppData) : AppData :=
  if d.runStatus = appRun then
    let d := d.call [.subscribe m.cmdMid d.commandPipe]
    if rc ≠ cfeSuccess then
      d.fail (m.name ++ ": Error subscribing to MID 0x%04X, RC=0x%08lX\n")
        [.uint m.cmdMid, .status rc]
    else d
  else d

/-- The lines that announce a successful initialisation. -/
def initLines : List Call :=
  [.osPrintf (m.name ++ ": Initialized. Listening on CMD MID 0x%04X, TLM MID 0x%04X\n")
      [.uint m.cmdMid, .uint m.tlmMid],
    .writeToSysLog (m.name ++ ": Initialized. CMD MID=0x%04X TLM MID=0x%04X\n")
      [.uint m.cmdMid, .uint m.tlmMid],
    .sendEvent initInfEid .information m.initFormat
      [.uint m.cmdMid, .uint m.tlmMid, .float m.limit]]

def initTlmPkt (d : AppData) : AppData :=
  if d.runStatus = appRun then
    { d with tlmPkt := ⟨cfe.msgInitTlm m.tlmMid 24, 0, 0⟩ }.call m.initLines
  else d

/-- The part of `Main` before the loop. -/
def startUp (script : Script) : AppData :=
  m.initTlmPkt cfe (m.subscribe script.subscribe
    (m.createPipe script.createPipe script.pipe (m.register script.evsRegister .start)))

/-- The message is addressed to this application and asks it to process data. -/
def addressed (buffer : SbBuffer) : Bool :=
  decide (cfe.getMsgId buffer.bytes = m.cmdMid ∧ cfe.getFcnCode buffer.bytes = m.fcSendData)

/-- The loop body once `RunLoop` has answered true. -/
def receive (turn : Turn) (d : AppData) : AppData :=
  let d := d.call [.receiveBuffer d.commandPipe]
  if turn.rc = cfeSuccess then
    if m.addressed cfe turn.buffer then m.processSensorData cfe turn.now turn.buffer d
    else d.call [.writeToSysLog (m.name ++ ": Unexpected MID=0x%04X FC=%u\n")
      [.uint (cfe.getMsgId turn.buffer.bytes), .uint (cfe.getFcnCode turn.buffer.bytes)]]
  else d.fail (m.name ++ ": Pipe read error, RC=0x%08lX\n") [.status turn.rc]

/-- The main loop. A script that ends first leaves the application in it. -/
def mainLoop : List Turn → AppData → AppData
  | [], d => d
  | turn :: turns, d =>
    let (go, runStatus) := turn.runLoop.answer d.runStatus
    let d := { d with runStatus := runStatus }
    if go then mainLoop turns (m.receive cfe turn d) else d.call [.exitApp d.runStatus]

def main (script : Script) : AppData := m.mainLoop cfe script.turns (m.startUp cfe script)

/-! ### What a run is observed by -/

def AppData.inits (d : AppData) : List Call := d.trace.filter Call.isInit

def AppData.actions (d : AppData) : List Call := d.trace.filter Call.isAction

@[simp] theorem inits_call (d : AppData) (calls : List Call) :
    (d.call calls).inits = d.inits ++ calls.filter Call.isInit := List.filter_append ..

@[simp] theorem actions_call (d : AppData) (calls : List Call) :
    (d.call calls).actions = d.actions ++ calls.filter Call.isAction := List.filter_append ..

/-- The reading at bytes 8 to 11 of a buffer, big-endian. -/
def readingOf (bytes : Bytes) : Binary32 := BitVec.ofNat 32 (ofBE (slice 8 12 bytes))

/-- The calls of the critical branch that have an effect outside the application. -/
def criticalActions (value : Binary32) (triggerCount : UInt32) : List Call :=
  (m.critical cfe value triggerCount).filter Call.isAction

/-- The turns whose message reaches the dispatch. -/
def Turn.delivers (turn : Turn) : Bool :=
  (turn.runLoop.answer appRun).1 && decide (turn.rc = cfeSuccess)

def Script.initialized (script : Script) : Bool :=
  decide (script.evsRegister = cfeSuccess ∧ script.createPipe = cfeSuccess ∧
    script.subscribe = cfeSuccess)

/-- The buffers received before the first failing call, none after a failed initialisation. -/
def Script.received (script : Script) : List SbBuffer :=
  if script.initialized then (script.turns.takeWhile Turn.delivers).map Turn.buffer else []

/-- The buffers that a run processes. -/
def processed (script : Script) : List SbBuffer := script.received.filter (m.addressed cfe)

/-- The initialisation calls of a run: up to the first that fails. -/
def initCalls (script : Script) : List Call :=
  if script.evsRegister ≠ cfeSuccess then [.evsRegister]
  else if script.createPipe ≠ cfeSuccess then [.evsRegister, .createPipe m.pipeDepth m.pipeName]
  else [.evsRegister, .createPipe m.pipeDepth m.pipeName, .subscribe m.cmdMid script.pipe]

/-- The actions that one reading causes: the critical ones exactly above the
limit, then one telemetry packet with the reading and its grade. -/
def Reaction (buffer : SbBuffer) (block : List Call) : Prop :=
  let value := readingOf buffer.bytes
  ∃ (triggerCount : UInt32) (tlmPkt : TlmPkt),
    block = (if value.gt m.limit then m.criticalActions cfe value triggerCount else []) ++
        [.transmitMsg tlmPkt.bytes] ∧
      tlmPkt.processedValue = value ∧ tlmPkt.healthStatus = m.healthOf value ∧
      tlmPkt.tlmHeader.val.take 2 = beBytes 2 m.tlmMid

/-- The data after the given buffers have been processed. -/
structure Reacted (done : List SbBuffer) (d : AppData) : Prop where
  actions : ∃ blocks, List.Forall₂ (m.Reaction cfe) done blocks ∧ d.actions = blocks.flatten
  packetCount : d.packetCount = UInt32.ofNat done.length
  fdirTriggerCount : d.fdirTriggerCount =
    UInt32.ofNat (done.countP fun buffer => (readingOf buffer.bytes).gt m.limit)

/-! ### One message -/

variable {m cfe}

theorem networkToHostFloat_buffer (buffer : SbBuffer) :
    networkToHostFloat (buffer.bytes.drop 8) = readingOf buffer.bytes := by
  have hlen := buffer.length_ge
  rw [networkToHostFloat_eq (by rw [List.length_drop]; omega), readingOf, slice, List.drop_take]

theorem filter_critical_isInit (value : Binary32) (triggerCount : UInt32) :
    (m.critical cfe value triggerCount).filter Call.isInit = [] := by
  rw [List.filter_eq_nil_iff]
  intro call hcall
  simp [m.critical_isInit cfe value triggerCount call hcall]

/-- The FDIR step, field by field: one more trigger and its actions above the
limit, nothing that can be observed below it. -/
structure FdirStep (m : Monitor) (cfe : Services) (value : Binary32) (d d' : AppData) : Prop where
  runStatus : d'.runStatus = d.runStatus
  inits : d'.inits = d.inits
  packetCount : d'.packetCount = d.packetCount
  fdirTriggerCount : d'.fdirTriggerCount = d.fdirTriggerCount + if value.gt m.limit then 1 else 0
  tlmPkt : d'.tlmPkt = d.tlmPkt
  actions : d'.actions = d.actions ++
    if value.gt m.limit then m.criticalActions cfe value d'.fdirTriggerCount else []

theorem fdirStep_fdir (value : Binary32) (d : AppData) :
    FdirStep m cfe value d (m.fdir cfe value d) := by
  unfold fdir
  by_cases hlimit : value.gt m.limit
  · rw [if_pos hlimit]
    constructor
    · rfl
    · rw [inits_call, filter_critical_isInit, List.append_nil]
      rfl
    · rfl
    · rw [if_pos hlimit]
      rfl
    · rfl
    · rw [actions_call, if_pos hlimit]
      rfl
  · rw [if_neg hlimit]
    -- the warning event is not critical, so both remaining branches look alike
    have hquiet : ∀ d', d' = d.call [.sendEvent fdirWarnEid .error m.warnFormat
        [.float value, .float m.warning]] ∨ d' = d → FdirStep m cfe value d d' := by
      rintro d' (rfl | rfl) <;> constructor <;> simp [hlimit, AppData.call, AppData.inits,
        AppData.actions, Call.isInit, Call.isAction]
    split_ifs
    · exact hquiet _ (.inl rfl)
    · exact hquiet _ (.inr rfl)

/-- The handler, field by field; of its calls, those that can be observed. -/
structure Handled (m : Monitor) (cfe : Services) (now : SysTime) (value : Binary32)
    (d d' : AppData) : Prop where
  runStatus : d'.runStatus = d.runStatus
  inits : d'.inits = d.inits
  packetCount : d'.packetCount = d.packetCount + 1
  fdirTriggerCount : d'.fdirTriggerCount = d.fdirTriggerCount + if value.gt m.limit then 1 else 0
  tlmPkt : d'.tlmPkt =
    ⟨cfe.timeStampMsg now d.tlmPkt.tlmHeader, value, m.healthOf value⟩
  actions : d'.actions = d.actions ++
    ((if value.gt m.limit then m.criticalActions cfe value d'.fdirTriggerCount else []) ++
      [.transmitMsg d'.tlmPkt.bytes])

theorem handled_processSensorData (now : SysTime) (buffer : SbBuffer) (d : AppData) :
    Handled m cfe now (readingOf buffer.bytes) d (m.processSensorData cfe now buffer d) := by
  unfold processSensorData
  rw [networkToHostFloat_buffer]
  generalize readingOf buffer.bytes = value
  let counted : AppData := { d with packetCount := d.packetCount + 1 }
  let logged := counted.call (m.console value counted.packetCount)
  have hinits : logged.inits = d.inits := by
    rw [inits_call]
    exact List.append_nil _
  have hactions : logged.actions = d.actions := by
    rw [actions_call]
    exact List.append_nil _
  have hstep : FdirStep m cfe value logged (m.fdir cfe value logged) := fdirStep_fdir value logged
  change Handled m cfe now value d
    (m.publish cfe now value (m.healthOf value) (m.fdir cfe value logged))
  generalize m.fdir cfe value logged = d' at hstep ⊢
  unfold publish
  constructor
  · exact hstep.runStatus
  · rw [inits_call]
    exact (List.append_nil _).trans (hstep.inits.trans hinits)
  · exact hstep.packetCount
  · exact hstep.fdirTriggerCount
  · simp only [AppData.call, hstep.tlmPkt]
    rfl
  · rw [actions_call]
    change d'.actions ++ [_] = _
    rw [hstep.actions, hactions, List.append_assoc]
    rfl

/-- One more reading adds its own reaction. -/
theorem Reacted.processSensorData {done : List SbBuffer} {d : AppData}
    (h : Reacted m cfe done d) (hcfe : cfe.Documented)
    (hmid : d.tlmPkt.tlmHeader.val.take 2 = beBytes 2 m.tlmMid) (now : SysTime)
    (buffer : SbBuffer) :
    Reacted m cfe (done ++ [buffer]) (m.processSensorData cfe now buffer d) := by
  have hstep : Handled m cfe now _ d _ := handled_processSensorData now buffer d
  generalize m.processSensorData cfe now buffer d = d' at hstep ⊢
  have hblock : m.Reaction cfe buffer ((if (readingOf buffer.bytes).gt m.limit then
      m.criticalActions cfe (readingOf buffer.bytes) d'.fdirTriggerCount else []) ++
        [.transmitMsg d'.tlmPkt.bytes]) := by
    refine ⟨d'.fdirTriggerCount, d'.tlmPkt, rfl, ?_⟩
    rw [hstep.tlmPkt]
    exact ⟨rfl, rfl, (hcfe.timeStampMsg_mid now _).trans hmid⟩
  obtain ⟨blocks, hblocks, hactions⟩ := h.actions
  constructor
  · refine ⟨_, List.rel_append hblocks (.cons hblock .nil), ?_⟩
    rw [hstep.actions, hactions, List.flatten_append, List.flatten_singleton]
  · rw [hstep.packetCount, h.packetCount, List.length_append, List.length_singleton,
      UInt32.ofNat_add]
    rfl
  · rw [hstep.fdirTriggerCount, h.fdirTriggerCount, List.countP_append, UInt32.ofNat_add,
      List.countP_singleton]
    split_ifs <;> rfl

/-- Two states that an observer cannot tell apart. -/
structure Quiet (d d' : AppData) : Prop where
  actions : d'.actions = d.actions
  inits : d'.inits = d.inits
  packetCount : d'.packetCount = d.packetCount
  fdirTriggerCount : d'.fdirTriggerCount = d.fdirTriggerCount

theorem Quiet.trans {d d' d'' : AppData} (h : Quiet d d') (h' : Quiet d' d'') : Quiet d d'' where
  actions := h'.actions.trans h.actions
  inits := h'.inits.trans h.inits
  packetCount := h'.packetCount.trans h.packetCount
  fdirTriggerCount := h'.fdirTriggerCount.trans h.fdirTriggerCount

theorem Reacted.quiet {done : List SbBuffer} {d d' : AppData} (h : Reacted m cfe done d)
    (hquiet : Quiet d d') : Reacted m cfe done d' where
  actions := hquiet.actions ▸ h.actions
  packetCount := hquiet.packetCount.trans h.packetCount
  fdirTriggerCount := hquiet.fdirTriggerCount.trans h.fdirTriggerCount

/-- Calls without an observable effect, and the run status, go unnoticed. -/
theorem quiet_call (d : AppData) (runStatus : UInt32) {calls : List Call}
    (ha : calls.filter Call.isAction = []) (hi : calls.filter Call.isInit = []) :
    Quiet d { d.call calls with runStatus := runStatus } where
  actions := by
    change (d.call calls).actions = d.actions
    rw [actions_call, ha, List.append_nil]
  inits := by
    change (d.call calls).inits = d.inits
    rw [inits_call, hi, List.append_nil]
  packetCount := rfl
  fdirTriggerCount := rfl

/-- Once the run status is not `appRun` the loop only exits. -/
theorem quiet_mainLoop {d : AppData} (h : d.runStatus ≠ appRun) (turns : List Turn) :
    Quiet d (m.mainLoop cfe turns d) := by
  cases turns with
  | nil => constructor <;> rfl
  | cons turn turns =>
    have hstop : (turn.runLoop.answer d.runStatus).1 = false := by
      rw [Bool.eq_false_iff]
      exact fun hgo => h (turn.runLoop.running _ hgo).1
    simp only [mainLoop, hstop, Bool.false_eq_true, if_false]
    exact quiet_call d _ rfl rfl

/-! ### The loop -/

/-- The application in its loop, with a telemetry packet that carries its ID. -/
structure Live (m : Monitor) (cfe : Services) (done : List SbBuffer) (d : AppData) : Prop
    extends Reacted m cfe done d where
  runStatus : d.runStatus = appRun
  mid : d.tlmPkt.tlmHeader.val.take 2 = beBytes 2 m.tlmMid

/-- A delivered message is processed when it is addressed to the application. -/
theorem Live.receive {done : List SbBuffer} {d : AppData} (h : Live m cfe done d)
    (hcfe : cfe.Documented) {turn : Turn} (hrc : turn.rc = cfeSuccess) :
    Live m cfe (done ++ [turn.buffer].filter (m.addressed cfe)) (m.receive cfe turn d) ∧
      (m.receive cfe turn d).inits = d.inits := by
  have hpolled : Reacted m cfe done (d.call [.receiveBuffer d.commandPipe]) :=
    h.toReacted.quiet (quiet_call d _ rfl rfl)
  unfold Monitor.receive
  rw [if_pos hrc]
  cases haddr : m.addressed cfe turn.buffer with
  | true =>
    have hstep : Handled m cfe turn.now _ (d.call [.receiveBuffer d.commandPipe]) _ :=
      handled_processSensorData turn.now turn.buffer _
    rw [List.filter_cons_of_pos haddr, List.filter_nil, if_pos rfl]
    refine ⟨⟨hpolled.processSensorData hcfe h.mid turn.now turn.buffer, ?_, ?_⟩, ?_⟩
    · exact hstep.runStatus.trans h.runStatus
    · rw [hstep.tlmPkt]
      exact (hcfe.timeStampMsg_mid _ _).trans h.mid
    · rw [hstep.inits]
      simp [Call.isInit]
  | false =>
    rw [List.filter_cons_of_neg (by simp [haddr]), List.filter_nil, List.append_nil,
      if_neg (by simp)]
    exact ⟨⟨hpolled.quiet (quiet_call _ _ rfl rfl), h.runStatus, h.mid⟩, by simp [Call.isInit]⟩

/-- The loop processes what it receives before the first failing call. -/
theorem Live.mainLoop {done : List SbBuffer} {d : AppData} (h : Live m cfe done d)
    (hcfe : cfe.Documented) (turns : List Turn) :
    Reacted m cfe (done ++
        ((turns.takeWhile Turn.delivers).map Turn.buffer).filter (m.addressed cfe))
      (m.mainLoop cfe turns d) ∧ (m.mainLoop cfe turns d).inits = d.inits := by
  induction turns generalizing done d with
  | nil => simpa [Monitor.mainLoop] using h.toReacted
  | cons turn turns ih =>
    unfold Monitor.mainLoop
    rw [h.runStatus]
    cases hgo : (turn.runLoop.answer appRun).1 with
    | false =>
      have hexit : Quiet d ({ d with runStatus := (turn.runLoop.answer appRun).2 }.call
          [.exitApp (turn.runLoop.answer appRun).2]) := quiet_call d _ rfl rfl
      have hnone : (turn :: turns).takeWhile Turn.delivers = [] := by simp [Turn.delivers, hgo]
      simp only [hgo, hnone, List.map_nil, List.filter_nil, List.append_nil, Bool.false_eq_true,
        if_false]
      exact ⟨h.toReacted.quiet hexit, hexit.inits⟩
    | true =>
      have hrun := (turn.runLoop.running _ hgo).2
      have hsame : { d with runStatus := (turn.runLoop.answer appRun).2 } = d := by
        rw [hrun, ← h.runStatus]
      simp only [hgo, hsame, if_true]
      by_cases hrc : turn.rc = cfeSuccess
      · obtain ⟨hlive, hinits⟩ := h.receive hcfe hrc
        obtain ⟨hreacted, hrest⟩ := ih hlive
        have htake : (turn :: turns).takeWhile Turn.delivers =
            turn :: turns.takeWhile Turn.delivers := by simp [Turn.delivers, hgo, hrc]
        rw [htake, List.map_cons, ← List.singleton_append, List.filter_append, ← List.append_assoc]
        exact ⟨hreacted, hrest.trans hinits⟩
      · have hnone : (turn :: turns).takeWhile Turn.delivers = [] := by
          simp [Turn.delivers, hrc]
        have hreceive : Quiet d (m.receive cfe turn d) := by
          have hfail : m.receive cfe turn d = (d.call [.receiveBuffer d.commandPipe]).fail
              (m.name ++ ": Pipe read error, RC=0x%08lX\n") [.status turn.rc] := if_neg hrc
          rw [hfail]
          exact (quiet_call d _ rfl rfl).trans (quiet_call _ _ rfl rfl)
        have hstopped : (m.receive cfe turn d).runStatus ≠ appRun := by
          rw [Monitor.receive, if_neg hrc]
          exact (by decide : appError ≠ appRun)
        have hquiet : Quiet d (m.mainLoop cfe turns (m.receive cfe turn d)) :=
          hreceive.trans (quiet_mainLoop hstopped turns)
        rw [hnone]
        simp only [List.map_nil, List.filter_nil, List.append_nil]
        exact ⟨h.toReacted.quiet hquiet, hquiet.inits⟩

/-! ### Whole runs -/

/-- A failed initialisation leaves the application stopped, with nothing done. -/
theorem startUp_failed (m : Monitor) (cfe : Services) {script : Script}
    (h : script.initialized = false) :
    (m.startUp cfe script).runStatus = appError ∧ (m.startUp cfe script).actions = [] ∧
      (m.startUp cfe script).inits = m.initCalls script ∧
      (m.startUp cfe script).packetCount = 0 ∧ (m.startUp cfe script).fdirTriggerCount = 0 := by
  have hstatus : ¬ appError = appRun := by decide
  by_cases hevs : script.evsRegister = cfeSuccess
  · by_cases hpipe : script.createPipe = cfeSuccess
    · have hsub : ¬ script.subscribe = cfeSuccess := by
        intro hsub
        simp [Script.initialized, hevs, hpipe, hsub] at h
      simp [startUp, register, createPipe, subscribe, initTlmPkt, initCalls, hevs, hpipe, hsub,
        hstatus, AppData.start, AppData.fail, AppData.call, AppData.actions, AppData.inits,
        List.filter_cons, Call.isAction, Call.isInit]
    · simp [startUp, register, createPipe, subscribe, initTlmPkt, initCalls, hevs, hpipe,
        hstatus, AppData.start, AppData.fail, AppData.call, AppData.actions, AppData.inits,
        List.filter_cons, Call.isAction, Call.isInit]
  · simp [startUp, register, createPipe, subscribe, initTlmPkt, initCalls, hevs,
      hstatus, AppData.start, AppData.fail, AppData.call, AppData.actions, AppData.inits,
      List.filter_cons, Call.isAction, Call.isInit]

/-- A successful one enters the loop with the telemetry header set. -/
theorem live_startUp (hcfe : cfe.Documented) (hmid : m.tlmMid < 65536) {script : Script}
    (h : script.initialized = true) :
    Live m cfe [] (m.startUp cfe script) ∧ (m.startUp cfe script).inits = m.initCalls script := by
  obtain ⟨hevs, hpipe, hsub⟩ := of_decide_eq_true h
  have hstart : m.startUp cfe script = {
      runStatus := appRun
      commandPipe := script.pipe
      tlmPkt := ⟨cfe.msgInitTlm m.tlmMid 24, 0, 0⟩
      packetCount := 0
      fdirTriggerCount := 0
      trace := m.initCalls script ++ m.initLines } := by
    simp [startUp, register, createPipe, subscribe, initTlmPkt, initCalls, hevs, hpipe, hsub,
      AppData.start, AppData.call]
  rw [hstart]
  refine ⟨⟨⟨⟨[], .nil, ?_⟩, rfl, rfl⟩, rfl, hcfe.msgInitTlm_mid 24 hmid⟩, ?_⟩
  · simp [AppData.actions, initCalls, initLines, hevs, hpipe, Call.isAction]
  · simp [AppData.inits, initCalls, initLines, hevs, hpipe, List.filter_cons, Call.isInit]

/-- Every run: the initialisation calls stop at the first failure, and exactly
the processed buffers have reacted. -/
theorem reacted_main (hcfe : cfe.Documented) (hmid : m.tlmMid < 65536) (script : Script) :
    Reacted m cfe (m.processed cfe script) (m.main cfe script) ∧
      (m.main cfe script).inits = m.initCalls script := by
  cases hinit : script.initialized with
  | true =>
    obtain ⟨hlive, hinits⟩ := live_startUp (m := m) hcfe hmid hinit
    obtain ⟨hreacted, hrest⟩ := hlive.mainLoop hcfe script.turns
    rw [processed, Script.received, if_pos hinit]
    exact ⟨hreacted, hrest.trans hinits⟩
  | false =>
    obtain ⟨hstatus, hactions, hinits, hpackets, htriggers⟩ := startUp_failed m cfe hinit
    have hquiet : Quiet _ (m.main cfe script) :=
      quiet_mainLoop (by rw [hstatus]; decide) script.turns
    rw [processed, Script.received, if_neg (by simp [hinit])]
    refine ⟨⟨⟨[], .nil, ?_⟩, ?_, ?_⟩, hquiet.inits.trans hinits⟩
    · exact hquiet.actions.trans hactions
    · exact hquiet.packetCount.trans hpackets
    · exact hquiet.fdirTriggerCount.trans htriggers

end Monitor
end CfsBridge
