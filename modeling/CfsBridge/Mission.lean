import CfsBridge.Operators
import CfsBridge.Sources

/-!
# The mission

The sensors, the two monitors and the ground station with the links between
them, one atomic action of one party at a time. The software bus and the lab
applications at its edges are links: each datagram from outside is put on the
bus, the bus puts a message into the pipe that is subscribed to its ID unless
the pipe is full, and what the table of TO_LAB names goes down. A link may have
any fault at any time. Other tasks send telemetry of their own.
-/
namespace CfsBridge.Mission
open Bytes Python Cfe FlightApps TelemetryReceiver Processor Sensors Channels
open CfsBridge.Monitor CfsBridge.Parser
open Dispatcher (CommandDispatcher)
open Ieee (Binary32)

/-! ### A monitor, one turn at a time -/

/-- A monitor between two turns of its loop. -/
structure Task where
  data : AppData
  exited : Bool

namespace Task
variable (m : Monitor) (cfe : Services)

def turn (turn : Turn) (task : Task) : Task :=
  if task.exited then task
  else
    let (go, runStatus) := turn.runLoop.answer task.data.runStatus
    let d := { task.data with runStatus := runStatus }
    if go then ⟨m.receive cfe turn d, false⟩ else ⟨d.call [.exitApp d.runStatus], true⟩

def running (task : Task) : Bool := !task.exited && decide (task.data.runStatus = appRun)

/-- The turn takes a message from the pipe. -/
def receives (turn : Turn) (task : Task) : Bool :=
  !task.exited && (turn.runLoop.answer task.data.runStatus).1 && decide (turn.rc = cfeSuccess)

/-- Turn by turn a monitor runs its main loop. -/
theorem data_foldl (turns : List Turn) (d : AppData) :
    (turns.foldl (fun task turn => Task.turn m cfe turn task) ⟨d, false⟩).data =
      m.mainLoop cfe turns d := by
  have hexited (turns : List Turn) (d : AppData) :
      turns.foldl (fun task turn => Task.turn m cfe turn task) ⟨d, true⟩ = ⟨d, true⟩ := by
    induction turns with
    | nil => rfl
    | cons turn turns ih => rw [List.foldl_cons, Task.turn, if_pos rfl, ih]
  induction turns generalizing d with
  | nil => rfl
  | cons turn turns ih =>
    rw [List.foldl_cons, Task.turn, if_neg Bool.false_ne_true, mainLoop]
    cases hgo : (turn.runLoop.answer d.runStatus).1 with
    | true =>
      simp only [hgo, if_true]
      exact ih _
    | false =>
      simp only [hgo, Bool.false_eq_true, if_false]
      rw [hexited]

end Task

/-! ### State -/

/-- The message IDs of TO_LAB's table that the monitors send on. -/
def labTable : List ℕ := [0x0882, 0x0883]

/-- The messages among the calls of a monitor that TO_LAB sends down. -/
def outgoing (cfe : Services) (calls : List Call) : List Bytes :=
  calls.filterMap fun call => match call with
    | .transmitMsg msg => if cfe.getMsgId msg ∈ labTable then some msg else none
    | _ => none

/-- `log` is the trace of what the processor was asked to do. -/
structure System where
  sensor : Source → BaseSensor
  dispatcher : CommandDispatcher
  uplink : List Bytes
  pipe : Source → List Bytes
  task : Source → Task
  downlink : List Bytes
  receiver : Receiver TelemetryProcessor
  log : List Op

/-- The commands that the ground station has a button for. -/
inductive GroundCommand
  | array (button : Operators.Button)
  | enableOutput (destIp : String)

def GroundCommand.op : GroundCommand → Dispatcher.Op
  | .array button => button.op
  | .enableOutput destIp => .enableTelemetryOutput destIp

inductive Link
  | uplink
  | pipe (k : Source)
  | downlink

inductive Event
  | sense (k : Source) (turn : SensorTurn)
  | command (command : GroundCommand) (sendto : Except PyException ℕ)
  | ingest
  | turn (k : Source) (turn : Turn)
  | other (data : Bytes)
  | arrive (now : Timestamp)
  | update (button : Operators.Button) (now : Timestamp)
  | clear
  | fault (link : Link) (fault : Fault)

/-- Nothing has been sent. The scripts hold the return codes of the monitors'
initialisation. -/
def start (cfe : Services) (boot : Source → Script) : System where
  sensor k := .init k.sensorClass
  dispatcher := .init
  uplink := []
  pipe _ := []
  task k := ⟨k.monitor.startUp cfe (boot k), false⟩
  downlink := []
  receiver := .init 500 (.init 200)
  log := []

/-! ### Steps -/

section Step
variable (cfe : Services) (hms : Timestamp → String)

def sense (k : Source) (turn : SensorTurn) (s : System) : System :=
  let sensor := (s.sensor k).call k.sensorClass turn
  { s with
    sensor := Function.update s.sensor k sensor
    uplink := s.uplink ++ sensor.transmitted.drop (s.sensor k).transmitted.length }

def command (c : GroundCommand) (sendto : Except PyException ℕ) (s : System) : System :=
  let dispatcher := (s.dispatcher.call ⟨c.op, sendto⟩).2
  { s with
    dispatcher := dispatcher
    uplink := s.uplink ++ dispatcher.transmitted.drop s.dispatcher.transmitted.length }

def ingest (s : System) : Option System :=
  match s.uplink with
  | [] => none
  | packet :: rest => some { s with
      uplink := rest
      pipe := fun k =>
        if cfe.getMsgId packet = k.monitor.cmdMid then
          push k.monitor.pipeDepth (s.pipe k) packet
        else s.pipe k }

/-- One turn of a monitor's loop, and what it sends down. -/
def advance (k : Source) (turn : Turn) (s : System) : System :=
  let task := (s.task k).turn k.monitor cfe turn
  { s with
    task := Function.update s.task k task
    downlink := s.downlink ++
      outgoing cfe (task.data.actions.drop (s.task k).data.actions.length) }

/-- A turn that receives takes the oldest message of its pipe. -/
def takeTurn (k : Source) (turn : Turn) (s : System) : Option System :=
  if (s.task k).receives turn then
    match s.pipe k with
    | [] => none
    | message :: rest =>
      if turn.buffer.message = message then
        some (advance cfe k turn { s with pipe := Function.update s.pipe k rest })
      else none
  else some (advance cfe k turn s)

def arrive (now : Timestamp) (s : System) : Option System :=
  match s.downlink with
  | [] => none
  | data :: rest => some { s with
      downlink := rest
      receiver := s.receiver.handle [TelemetryProcessor.process hms] now data
      log := s.log ++ if h : 6 ≤ data.length then [.packet now ⟨data, h⟩] else [] }

def operate (op : Op) (f : TelemetryProcessor → TelemetryProcessor) (s : System) : System :=
  { s with
    receiver := { s.receiver with world := f s.receiver.world }
    log := s.log ++ [op] }

/-- `Clear Logs`, which also empties the receiver's buffer. -/
def clear (s : System) : System :=
  let s := operate .clear TelemetryProcessor.clearLogs s
  { s with receiver := { s.receiver with buffer := s.receiver.buffer.clear } }

def disturb (f : Fault) (s : System) : Link → System
  | .uplink => { s with uplink := f.apply s.uplink }
  | .pipe k => { s with pipe := Function.update s.pipe k (f.apply (s.pipe k)) }
  | .downlink => { s with downlink := f.apply s.downlink }

def step (s : System) : Event → Option System
  | .sense k turn => some (sense k turn s)
  | .command c sendto => some (command c sendto s)
  | .ingest => ingest cfe s
  | .turn k turn => takeTurn cfe k turn s
  | .other data =>
    if streamWord data ≠ tlmMidRad ∧ streamWord data ≠ tlmMidTherm then
      some { s with downlink := s.downlink ++ [data] }
    else none
  | .arrive now => arrive hms now s
  | .update button now =>
    some (operate (.update button.status now)
      (fun p => p.updateSolarArrayStatus hms button.status now) s)
  | .clear => some (clear s)
  | .fault link f => some (disturb f s link)

end Step

/-! ### One turn of a monitor -/

/-- A monitor that has reacted to the given buffers. While it runs, its
telemetry packet carries its ID. -/
structure Sound (k : Source) (cfe : Services) (done : List SbBuffer) (task : Task) : Prop where
  reacted : Reacted k.monitor cfe done task.data
  mid : task.exited = false → task.data.runStatus = appRun →
    task.data.tlmPkt.tlmHeader.val.take 2 = beBytes 2 k.monitor.tlmMid

section Turn
variable {k : Source} {cfe : Services} {done : List SbBuffer} {task : Task} {turn : Turn}

theorem sound_startUp (hcfe : cfe.Documented) (k : Source) (script : Script) :
    Sound k cfe [] ⟨k.monitor.startUp cfe script, false⟩ := by
  cases hinit : script.initialized with
  | true =>
    have hlive := (live_startUp (m := k.monitor) hcfe k.tlmMid_lt hinit).1
    exact ⟨hlive.toReacted, fun _ _ => hlive.mid⟩
  | false =>
    obtain ⟨hstatus, hactions, _, hpackets, htriggers⟩ := startUp_failed k.monitor cfe hinit
    refine ⟨⟨⟨[], .nil, hactions⟩, hpackets, htriggers⟩, fun _ hrun => ?_⟩
    rw [hstatus] at hrun
    exact absurd hrun (by decide)

theorem quiet_fail (d : AppData) (format : String) (args : List Arg) :
    Quiet d (d.fail format args) := quiet_call d appError rfl rfl

/-- A turn that takes a message for the monitor adds the reaction to it. -/
theorem Sound.receives (h : Sound k cfe done task) (hcfe : cfe.Documented)
    (hreceives : task.receives turn = true) (haddr : k.monitor.addressed cfe turn.buffer = true) :
    ∃ block, k.monitor.Reaction cfe turn.buffer block ∧
      (task.turn k.monitor cfe turn).data.actions = task.data.actions ++ block ∧
      Sound k cfe (done ++ [turn.buffer]) (task.turn k.monitor cfe turn) ∧
      (task.turn k.monitor cfe turn).running = true := by
  obtain ⟨⟨hexited, hgo⟩, hrc⟩ : (task.exited = false ∧
      (turn.runLoop.answer task.data.runStatus).1 = true) ∧ turn.rc = cfeSuccess := by
    simpa [Task.receives] using hreceives
  obtain ⟨hrun, hkept⟩ := turn.runLoop.running _ hgo
  have hdata : { task.data with runStatus := (turn.runLoop.answer task.data.runStatus).2 } =
      task.data := by rw [hkept, ← hrun]
  let polled := task.data.call [.receiveBuffer task.data.commandPipe]
  have hturn : task.turn k.monitor cfe turn =
      ⟨k.monitor.processSensorData cfe turn.now turn.buffer polled, false⟩ := by
    rw [Task.turn, if_neg (by simp [hexited])]
    simp only [hdata, hgo, if_true]
    rw [Monitor.receive, if_pos hrc, if_pos haddr]
  have hstep : Handled k.monitor cfe turn.now _ polled _ :=
    handled_processSensorData turn.now turn.buffer polled
  have hmid := h.mid hexited hrun
  have hactions : polled.actions = task.data.actions := by
    rw [actions_call]
    exact List.append_nil _
  have hreacted : Reacted k.monitor cfe done polled :=
    h.reacted.quiet (quiet_call task.data task.data.runStatus rfl rfl)
  rw [hturn]
  refine ⟨_, ⟨_, _, rfl, ?_⟩, by rw [← hactions]; exact hstep.actions,
    ⟨hreacted.processSensorData hcfe hmid turn.now turn.buffer, fun _ _ => ?_⟩, ?_⟩
  · rw [hstep.tlmPkt]
    exact ⟨rfl, rfl, (hcfe.timeStampMsg_mid _ _).trans hmid⟩
  · rw [hstep.tlmPkt]
    exact (hcfe.timeStampMsg_mid _ _).trans hmid
  · have hstatus := hstep.runStatus.trans hrun
    simp [Task.running, hstatus]

/-- Any other turn does nothing that can be observed. -/
theorem Sound.idle (h : Sound k cfe done task) (hidle : task.receives turn = false) :
    (task.turn k.monitor cfe turn).data.actions = task.data.actions ∧
      Sound k cfe done (task.turn k.monitor cfe turn) := by
  unfold Task.turn
  cases hexited : task.exited with
  | true => exact ⟨rfl, h.reacted, h.mid⟩
  | false =>
    rw [if_neg Bool.false_ne_true]
    cases hgo : (turn.runLoop.answer task.data.runStatus).1 with
    | false =>
      simp only [hgo, Bool.false_eq_true, if_false]
      have hquiet : Quiet task.data { task.data.call
          [.exitApp (turn.runLoop.answer task.data.runStatus).2] with
          runStatus := (turn.runLoop.answer task.data.runStatus).2 } := quiet_call _ _ rfl rfl
      refine ⟨hquiet.actions, h.reacted.quiet hquiet, fun h => by cases h⟩
    | true =>
      have hrc : turn.rc ≠ cfeSuccess := by simpa [Task.receives, hexited, hgo] using hidle
      simp only [hgo, if_true]
      rw [Monitor.receive, if_neg hrc]
      have hpolled : Quiet task.data { task.data.call [.receiveBuffer task.data.commandPipe] with
          runStatus := (turn.runLoop.answer task.data.runStatus).2 } := quiet_call _ _ rfl rfl
      have hquiet := hpolled.trans (quiet_fail _
        (k.monitor.name ++ ": Pipe read error, RC=0x%08lX\n") [.status turn.rc])
      exact ⟨hquiet.actions, h.reacted.quiet hquiet,
        fun _ hrun => absurd hrun (by decide : appError ≠ appRun)⟩

/-- The FDIR action of a monitor does not go down. -/
theorem outgoing_criticalActions (hcfe : cfe.Documented) (k : Source) (value : Binary32)
    (count : UInt32) : outgoing cfe (k.monitor.criticalActions cfe value count) = [] := by
  cases k with
  | radiation =>
    obtain ⟨cmd, format, args, haction, _, hmid, _⟩ := isSolarClose_criticalActions hcfe value count
    change outgoing cfe (RadApp.monitor.criticalActions cfe value count) = []
    rw [haction]
    simp [outgoing, hmid, labTable]
  | thermal => rfl

/-- A telemetry packet that answers a message of a source: it holds the reading,
bit for bit, and shows it with its grade. -/
structure Reports (k : Source) (buffer : SbBuffer) (data : Bytes) : Prop where
  pattern : patternAt data = readingOf buffer.bytes
  read : ∀ j : Source, j.read data = if j = k then some ((readingOf buffer.bytes).quiet,
    (k.monitor.healthOf (readingOf buffer.bytes)).toNat) else none

/-- Of a reaction, one telemetry packet goes down. -/
theorem outgoing_reaction (hcfe : cfe.Documented) {buffer : SbBuffer} {block : List Call}
    (h : k.monitor.Reaction cfe buffer block) :
    ∃ data, outgoing cfe block = [data] ∧ Reports k buffer data := by
  obtain ⟨count, tlm, rfl, hvalue, hhealth, hmid⟩ := h
  have hid : cfe.getMsgId tlm.bytes = k.monitor.tlmMid := by
    rw [hcfe.getMsgId_eq (by simp), tlm.bytes_mid, hmid,
      ofBE_beBytes_of_lt (by have := k.tlmMid_lt; simpa using this)]
  have hlab : k.monitor.tlmMid ∈ labTable := by cases k <;> decide
  refine ⟨tlm.bytes, ?_, (Source.patternAt_tlmPkt tlm).trans hvalue, fun j => ?_⟩
  · rw [outgoing, List.filterMap_append, ← outgoing, ← outgoing]
    have hfdir : outgoing cfe (if (readingOf buffer.bytes).gt k.monitor.limit then
        k.monitor.criticalActions cfe (readingOf buffer.bytes) count else []) = [] := by
      split_ifs
      · exact outgoing_criticalActions hcfe k _ _
      · rfl
    rw [hfdir]
    simp [outgoing, hid, hlab]
  · rw [Source.read_tlmPkt j k hmid, hvalue, hhealth]

/-- What a sound monitor has sent down, message by message. -/
theorem outgoing_reacted (hcfe : cfe.Documented) (h : Reacted k.monitor cfe done task.data) :
    List.Forall₂ (Reports k) done (outgoing cfe task.data.actions) := by
  obtain ⟨blocks, hblocks, hactions⟩ := h.actions
  rw [hactions]
  clear hactions h
  induction hblocks with
  | nil => exact .nil
  | cons hblock _ ih =>
    obtain ⟨data, hdata, hreports⟩ := outgoing_reaction hcfe hblock
    rw [List.flatten_cons, outgoing, List.filterMap_append, ← outgoing, ← outgoing, hdata]
    exact .cons hreports ih

theorem map_patternAt {packets : List Bytes} (h : List.Forall₂ (Reports k) done packets) :
    packets.map patternAt = done.map fun buffer => readingOf buffer.bytes := by
  induction h with
  | nil => rfl
  | cons hreports _ ih => rw [List.map_cons, ih, hreports.pattern, List.map_cons]

/-- What telemetry shows of its own source and of the other one. -/
theorem flatMap_reported {packets : List Bytes} (h : List.Forall₂ (Reports k) done packets)
    (j : Source) : packets.flatMap j.reported =
      if j = k then done.map fun buffer => (readingOf buffer.bytes).quiet else [] := by
  induction h with
  | nil => simp
  | cons hreports _ ih =>
    rw [List.flatMap_cons, ih]
    by_cases hj : j = k <;> simp [Source.reported, hreports.read, hj]

end Turn

end CfsBridge.Mission
