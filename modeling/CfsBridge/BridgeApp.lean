import CfsBridge.CcsdsCodec
import CfsBridge.FlightApps

/-!
# BRIDGE_APP

The packet logger listens on the message ID of the radiation commands and
writes one line to the system log for each message, whatever its function code.
It has no other effect: nothing it does reaches the bus or the event services.
-/
namespace CfsBridge.BridgeApp
open Bytes Cfe CcsdsUtils
open CfsBridge.Monitor (Turn Script)

def listenerMid : ℕ := 0x1882
def pipeDepth : ℕ := 10
def pipeName : String := "BRIDGE_CMD_PIPE"

/-- The message services with `CFE_MSG_GetSize`, which only the logger uses. -/
structure SizedServices extends Services where
  getSize (msg : Bytes) : ℕ

/-- The size of a message is its length field plus seven. -/
structure SizedServices.Documented (cfe : SizedServices) : Prop
    extends Services.Documented cfe.toServices where
  getSize_eq : ∀ {msg : Bytes}, 6 ≤ msg.length → cfe.getSize msg = ofBE (slice 4 6 msg) + 7

def ccsdsV1Sized : SizedServices where
  toServices := ccsdsV1
  getSize msg := ofBE (slice 4 6 msg) + 7

theorem ccsdsV1Sized_documented : ccsdsV1Sized.Documented where
  toDocumented := ccsdsV1_documented
  getSize_eq _ := rfl

/-- `BRIDGE_APP_Data_t`, with the trace of calls made so far. -/
structure AppData where
  runStatus : UInt32
  commandPipe : ℕ
  trace : List Call

namespace AppData

/-- The data after `memset`, with the run status set. -/
def start : AppData where
  runStatus := appRun
  commandPipe := 0
  trace := []

def call (d : AppData) (calls : List Call) : AppData := { d with trace := d.trace ++ calls }

/-- A failed call: the system log line, and the run status that ends the application. -/
def fail (d : AppData) (format : String) (args : List Arg) : AppData :=
  { d.call [.writeToSysLog format args] with runStatus := appError }

@[simp] theorem call_commandPipe (d : AppData) (calls : List Call) :
    (d.call calls).commandPipe = d.commandPipe := rfl

@[simp] theorem call_trace (d : AppData) (calls : List Call) :
    (d.call calls).trace = d.trace ++ calls := rfl

@[simp] theorem fail_trace (d : AppData) (format : String) (args : List Arg) :
    (d.fail format args).trace = d.trace ++ [.writeToSysLog format args] := rfl

end AppData

/-! ### Main -/

def registerError : String := "BRIDGE_APP: Error registering events, RC=0x%08lX\n"
def createPipeError : String := "BRIDGE_APP: Error creating pipe, RC=0x%08lX\n"
def subscribeError : String := "BRIDGE_APP: Error subscribing to MID 0x%04X, RC=0x%08lX\n"
def initialized : String := "BRIDGE_APP: Initialized. Listening on MID 0x%04X\n"
def receivedLine : String := "BRIDGE_APP: Received MID=0x%04X FC=%u Size=%lu\n"
def readError : String := "BRIDGE_APP: Pipe read error, RC=0x%08lX\n"

def register (rc : ℤ) (d : AppData) : AppData :=
  let d := d.call [.evsRegister]
  if rc ≠ cfeSuccess then d.fail registerError [.status rc] else d

def createPipe (rc : ℤ) (pipe : ℕ) (d : AppData) : AppData :=
  if d.runStatus = appRun then
    let d := { d.call [.createPipe pipeDepth pipeName] with commandPipe := pipe }
    if rc ≠ cfeSuccess then d.fail createPipeError [.status rc] else d
  else d

def subscribe (rc : ℤ) (d : AppData) : AppData :=
  if d.runStatus = appRun then
    let d := d.call [.subscribe listenerMid d.commandPipe]
    if rc ≠ cfeSuccess then d.fail subscribeError [.uint listenerMid, .status rc] else d
  else d

def announce (d : AppData) : AppData :=
  if d.runStatus = appRun then d.call [.writeToSysLog initialized [.uint listenerMid]] else d

/-- The part of `BRIDGE_APP_Main` before the loop. -/
def startUp (script : Script) : AppData :=
  announce (subscribe script.subscribe
    (createPipe script.createPipe script.pipe (register script.evsRegister .start)))

variable (cfe : SizedServices)

/-- The line for one message. -/
def received (msg : Bytes) : Call :=
  .writeToSysLog receivedLine
    [.uint (cfe.getMsgId msg), .uint (cfe.getFcnCode msg), .uint (cfe.getSize msg)]

/-- The loop body once `RunLoop` has answered true. -/
def receive (turn : Turn) (d : AppData) : AppData :=
  let d := d.call [.receiveBuffer d.commandPipe]
  if turn.rc = cfeSuccess then d.call [received cfe turn.buffer.bytes]
  else d.fail readError [.status turn.rc]

/-- The main loop. A script that ends first leaves the application in it. -/
def mainLoop : List Turn → AppData → AppData
  | [], d => d
  | turn :: turns, d =>
    let (go, runStatus) := turn.runLoop.answer d.runStatus
    let d := { d with runStatus := runStatus }
    if go then mainLoop turns (receive cfe turn d) else d.call [.exitApp d.runStatus]

/-- `BRIDGE_APP_Main`. -/
def main (script : Script) : AppData := mainLoop cfe script.turns (startUp script)

/-! ### What a run is observed by -/

/-- The message ID, function code and size that a line reports. -/
def Call.reported : Call → Option (ℕ × ℕ × ℕ)
  | .writeToSysLog format [.uint mid, .uint fcnCode, .uint size] =>
    if format = receivedLine then some (mid, fcnCode, size) else none
  | _ => none

/-- The return code that an error line reports. -/
def Call.failure : Call → Option (String × ℤ)
  | .writeToSysLog format [.status rc] => some (format, rc)
  | .writeToSysLog format [.uint _, .status rc] => some (format, rc)
  | _ => none

/-- A call that is not addressed to the executive or the system log. -/
def Call.outward : Call → Option Call
  | .transmitMsg msg => some (.transmitMsg msg)
  | .sendEvent eid type format args => some (.sendEvent eid type format args)
  | .osPrintf format args => some (.osPrintf format args)
  | _ => none

/-- The initialisation calls of a run: up to the first that fails. -/
def initCalls (script : Script) : List Call :=
  if script.evsRegister ≠ cfeSuccess then [.evsRegister]
  else if script.createPipe ≠ cfeSuccess then [.evsRegister, .createPipe pipeDepth pipeName]
  else [.evsRegister, .createPipe pipeDepth pipeName, .subscribe listenerMid script.pipe]

/-- The code of the read that ends the loop, unless `RunLoop` or the script ends it. -/
def failedRead (turns : List Turn) : Option ℤ :=
  (turns.dropWhile Turn.delivers).head?.bind fun turn =>
    if (turn.runLoop.answer appRun).1 then some turn.rc else none

/-- The first call of a run that fails, by its error line, with its return code. -/
def firstFailure (script : Script) : Option (String × ℤ) :=
  if script.evsRegister ≠ cfeSuccess then some (registerError, script.evsRegister)
  else if script.createPipe ≠ cfeSuccess then some (createPipeError, script.createPipe)
  else if script.subscribe ≠ cfeSuccess then some (subscribeError, script.subscribe)
  else (failedRead script.turns).map fun rc => (readError, rc)

/-- What the logger reports of a buffer. -/
def report (msg : Bytes) : ℕ × ℕ × ℕ := (cfe.getMsgId msg, cfe.getFcnCode msg, cfe.getSize msg)

variable {cfe} {γ : Type} {view : Call → Option γ} {d : AppData}

theorem startUp_initialized {script : Script} (h : script.initialized = true) :
    startUp script = {
      runStatus := appRun
      commandPipe := script.pipe
      trace := initCalls script ++ [.writeToSysLog initialized [.uint listenerMid]] } := by
  obtain ⟨hevs, hpipe, hsub⟩ := of_decide_eq_true h
  simp [startUp, register, createPipe, subscribe, announce, initCalls, hevs, hpipe, hsub,
    AppData.start, AppData.call]

/-- A failed initialisation stops after the line for the call that failed. -/
theorem startUp_failed {script : Script} (h : script.initialized = false) :
    (startUp script).runStatus ≠ appRun ∧ ∃ format args rc,
      (startUp script).trace = initCalls script ++ [.writeToSysLog format args] ∧
        Call.failure (.writeToSysLog format args) = some (format, rc) ∧
        Call.reported (.writeToSysLog format args) = none ∧
        firstFailure script = some (format, rc) := by
  have hstatus : ¬ appError = appRun := by decide
  by_cases hevs : script.evsRegister = cfeSuccess
  · by_cases hpipe : script.createPipe = cfeSuccess
    · have hsub : ¬ script.subscribe = cfeSuccess := by
        intro hsub
        simp [Script.initialized, hevs, hpipe, hsub] at h
      refine ⟨?_, subscribeError, [.uint listenerMid, .status script.subscribe],
        script.subscribe, ?_, rfl, rfl, ?_⟩
      · simp [startUp, register, createPipe, subscribe, announce, hevs, hpipe, hsub, hstatus,
          AppData.start, AppData.fail, AppData.call]
      · simp [startUp, register, createPipe, subscribe, announce, initCalls, hevs, hpipe, hsub,
          hstatus, AppData.start, AppData.fail, AppData.call]
      · simp [firstFailure, hevs, hpipe, hsub]
    · refine ⟨?_, createPipeError, [.status script.createPipe], script.createPipe, ?_, rfl, rfl, ?_⟩
      · simp [startUp, register, createPipe, subscribe, announce, hevs, hpipe, hstatus,
          AppData.start, AppData.fail, AppData.call]
      · simp [startUp, register, createPipe, subscribe, announce, initCalls, hevs, hpipe, hstatus,
          AppData.start, AppData.fail, AppData.call]
      · simp [firstFailure, hevs, hpipe]
  · refine ⟨?_, registerError, [.status script.evsRegister], script.evsRegister, ?_, rfl, rfl, ?_⟩
    · simp [startUp, register, createPipe, subscribe, announce, hevs, hstatus, AppData.start,
        AppData.fail, AppData.call]
    · simp [startUp, register, createPipe, subscribe, announce, initCalls, hevs, hstatus,
        AppData.start, AppData.fail, AppData.call]
    · simp [firstFailure, hevs]

/-- The initialisation calls are seen as such and in no other way. -/
theorem initCalls_views (script : Script) :
    (initCalls script).filter Call.isInit = initCalls script ∧
      (initCalls script).filterMap Call.reported = [] ∧
      (initCalls script).filterMap Call.failure = [] ∧
      (initCalls script).filterMap Call.outward = [] := by
  unfold initCalls
  split_ifs <;> exact ⟨rfl, rfl, rfl, rfl⟩

/-- A command as a sender asks for it. -/
structure Command where
  mid : ℤ
  funcCode : ℤ
  payload : Bytes
  seqCount : ℤ

/-- The message ID, the seven bits of the function code and the size of a command. -/
def Command.shown (command : Command) : ℕ × ℕ × ℕ :=
  (command.mid.toNat, (command.funcCode % 128).toNat, 8 + command.payload.length)

end CfsBridge.BridgeApp
