import CfsBridge.Operators
import CfsBridge.TypeFilter

/-!
# The dashboard script

Every session reruns `main` in a thread of its own, while the receiver thread
takes one datagram after the other. The script reads each panel at a different
moment and clears the logs in two steps; the receiver buffers an entry in one
step and hands it to the processor in the next. All orders of these steps are
runs of the station.
-/
namespace CfsBridge.Dashboard
open TelemetryReceiver Processor Transitions TypeFilter

/-- What a run of the script finds pressed. `opened` and `closed` stand for an
array button whose command went out, so that its status is written. -/
structure Pressed where
  opened : Bool
  closed : Bool
  clearLogs : Bool
  deriving DecidableEq

/-- The accesses of `main` to the receiver and the processor. -/
inductive Action
  | packetsReceived
  | lastRadiation
  | lastThermal
  | solarArrayStatus
  | radiationSeries
  | thermalSeries
  | update (button : Operators.Button)
  | events
  | rawLog
  | clearLogs
  | clearBuffer
  | recent
  deriving DecidableEq

/-- The accesses of one run of `main`, in the order of the script. -/
def script (pressed : Pressed) : List Action :=
  let statusBar : List Action :=
    [.packetsReceived, .lastRadiation, .lastThermal, .solarArrayStatus]
  let charts : List Action := [.radiationSeries, .thermalSeries]
  let opened : List Action := if pressed.opened then [.update .open] else []
  let closed : List Action := if pressed.closed then [.update .close] else []
  let logs : List Action := [.events, .rawLog]
  let cleared : List Action := if pressed.clearLogs then [.clearLogs, .clearBuffer] else []
  statusBar ++ charts ++ opened ++ closed ++ logs ++ cleared ++ [.recent]

/-- A panel with the data it is drawn from. -/
inductive Panel
  | packetsReceived (count : ℕ)
  | radiation (point : Option TelemetryPoint)
  | temperature (point : Option TelemetryPoint)
  | solarArray (status : String)
  | radiationChart (points : List TelemetryPoint)
  | temperatureChart (points : List TelemetryPoint)
  | eventLog (lines : List String)
  | rawTelemetry (lines : List String)
  | viewer (items : List RawTelemetryEntry)

/-- The receiver with the processor that its callback writes to. -/
abbrev Services := Receiver TelemetryProcessor

/-- What an access puts on the screen. -/
def Action.read (s : Services) : Action → Option Panel
  | .packetsReceived => some (.packetsReceived s.packetsReceived)
  | .lastRadiation => some (.radiation s.world.lastRadiation)
  | .lastThermal => some (.temperature s.world.lastThermal)
  | .solarArrayStatus => some (.solarArray s.world.solarArrayStatus)
  | .radiationSeries => some (.radiationChart s.world.getRadiationSeries)
  | .thermalSeries => some (.temperatureChart s.world.getThermalSeries)
  | .events => some (.eventLog (s.world.getEvents 100).reverse)
  | .rawLog => some (.rawTelemetry (s.world.getRawLog 100).reverse)
  | .recent => some (.viewer (itemsAll s))
  | .update _ => none
  | .clearLogs => none
  | .clearBuffer => none

/-- What an access changes. -/
def Action.write (hms : Timestamp → String) (now : Timestamp) (s : Services) : Action → Services
  | .update button =>
    { s with world := s.world.updateSolarArrayStatus hms button.status now }
  | .clearLogs => { s with world := s.world.clearLogs }
  | .clearBuffer => { s with buffer := s.buffer.clear }
  | _ => s

/-- A session: what is left of its script, and the panels drawn so far. -/
structure Session where
  todo : List Action
  screen : List Panel

/-- Between the two steps of a clear the script makes no Streamlit call. -/
def Session.clearing (c : Session) : Bool := c.todo.head? = some .clearBuffer

/-- The services, the entry that is buffered and not yet processed, and the sessions. -/
structure Station (σ : Type) where
  services : Services
  handling : Option (Timestamp × Datagram)
  session : σ → Session

inductive Event (σ : Type)
  | receive (now : Timestamp) (datagram : Datagram)
  | callback (now : Timestamp) (datagram : Datagram)
  | rerun (session : σ) (pressed : Pressed)
  | act (session : σ) (action : Action) (now : Timestamp)

/-- `processor.process` as the receiver's callback. -/
def processCallback (hms : Timestamp → String) : Callback TelemetryProcessor :=
  fun entry p => p.process hms entry

/-- The locked block of the receive loop. -/
def enqueue (entry : RawTelemetryEntry) (s : Services) : Services := { s with
  buffer := s.buffer.append entry
  packetsReceived := s.packetsReceived + 1 }

/-- The two steps of the receiver thread make up the loop body. -/
theorem handle_eq_enqueue (hms : Timestamp → String) (now : Timestamp) (datagram : Datagram)
    (s : Services) : s.handle [processCallback hms] now datagram =
      (enqueue (entryOf now datagram) s).invokeAll [processCallback hms] (entryOf now datagram) := by
  rw [Receiver.handle_eq _ _ datagram.property, Receiver.invokeAll_eq]
  rfl

namespace Station
variable {σ : Type}

def init : Station σ where
  services := .init 500 (.init 200)
  handling := none
  session := fun _ => ⟨[], []⟩

variable [DecidableEq σ] (hms : Timestamp → String)

/-- A rerun takes the place of whatever is left of the session's script, but
not in the middle of a clear. -/
def step (s : Station σ) : Event σ → Option (Station σ)
  | .receive now datagram =>
    if s.handling = none then some { s with
      services := enqueue (entryOf now datagram) s.services
      handling := some (now, datagram) }
    else none
  -- `process` is one step also for the three fields that `main` reads without the
  -- lock, one at a time: it stores the last point of one sensor and then at most the
  -- status. Between the two stores there is neither a call nor a jump, and
  -- CPython 3.10 switches threads only at those. All other reads wait for the lock.
  | .callback now datagram =>
    if s.handling = some (now, datagram) then some { s with
      services := s.services.invokeAll [processCallback hms] (entryOf now datagram)
      handling := none }
    else none
  | .rerun c pressed =>
    if (s.session c).clearing then none
    else some { s with session := Function.update s.session c ⟨script pressed, []⟩ }
  | .act c action now =>
    match (s.session c).todo with
    | [] => none
    | next :: rest =>
      if next = action then some { s with
        services := action.write hms now s.services
        session := Function.update s.session c
          ⟨rest, (s.session c).screen ++ (action.read s.services).toList⟩ }
      else none

/-- What one step can do. -/
inductive Step (s : Station σ) : Event σ → Station σ → Prop
  | receive {now : Timestamp} {datagram : Datagram} : s.handling = none →
      Step s (.receive now datagram) { s with
        services := enqueue (entryOf now datagram) s.services
        handling := some (now, datagram) }
  | callback {now : Timestamp} {datagram : Datagram} : s.handling = some (now, datagram) →
      Step s (.callback now datagram) { s with
        services := s.services.invokeAll [processCallback hms] (entryOf now datagram)
        handling := none }
  | rerun {c : σ} {pressed : Pressed} : (s.session c).clearing = false →
      Step s (.rerun c pressed) { s with
        session := Function.update s.session c ⟨script pressed, []⟩ }
  | act {c : σ} {action : Action} {now : Timestamp} {rest : List Action} :
      (s.session c).todo = action :: rest →
      Step s (.act c action now) { s with
        services := action.write hms now s.services
        session := Function.update s.session c
          ⟨rest, (s.session c).screen ++ (action.read s.services).toList⟩ }

variable {hms} {s s' : Station σ} {e : Event σ}

theorem step_cases (h : s.step hms e = some s') : Step hms s e s' := by
  cases e with
  | receive now datagram =>
    simp only [step] at h
    split_ifs at h with hidle
    cases h
    exact .receive hidle
  | callback now datagram =>
    simp only [step] at h
    split_ifs at h with hhandling
    cases h
    exact .callback hhandling
  | rerun c pressed =>
    simp only [step] at h
    split_ifs at h with hclearing
    cases h
    exact .rerun (Bool.eq_false_iff.mpr hclearing)
  | act c action now =>
    simp only [step] at h
    split at h
    · cases h
    · next next rest htodo =>
      split_ifs at h with hnext
      cases h
      exact .act (hnext ▸ htodo)

end Station

/-! ### What the events do -/

namespace Event
variable {σ : Type}

/-- The operation on the processor. -/
def op : Event σ → Option Processor.Op
  | .receive _ _ => none
  | .callback now datagram => some (.packet now datagram)
  | .rerun _ _ => none
  | .act _ action now =>
    match action with
    | .update button => some (.update button.status now)
    | .clearLogs => some .clear
    | _ => none

/-- The entry put into the receiver's buffer. -/
def entry : Event σ → Option RawTelemetryEntry
  | .receive now datagram => some (entryOf now datagram)
  | _ => none

/-- The events that empty the receiver's buffer. -/
def clearsBuffer : Event σ → Bool
  | .act _ .clearBuffer _ => true
  | _ => false

/-- The runs of the script that an event begins. -/
def reruns [DecidableEq σ] (c : σ) : Event σ → Bool
  | .rerun c' _ => c' = c
  | _ => false

end Event

section Histories
variable {σ : Type}

/-- The operations on the processor. -/
def ops (es : List (Event σ)) : List Processor.Op := es.filterMap Event.op

/-- The entries of all datagrams received. -/
def received (es : List (Event σ)) : List RawTelemetryEntry := es.filterMap Event.entry

/-- The entries received since the receiver's buffer was last cleared. -/
def buffered (es : List (Event σ)) : List RawTelemetryEntry :=
  received (Runs.sinceLast Event.clearsBuffer es)

/-- The operations since the processor's logs were last cleared. -/
def recentOps (es : List (Event σ)) : List Processor.Op := Runs.sinceLast Op.clears (ops es)

/-- The raw lines written since then. -/
def rawLines (hms : Timestamp → String) (es : List (Event σ)) : List String :=
  (recentOps es).filterMap (Op.rawLine hms)

theorem ops_concat (es : List (Event σ)) (e : Event σ) : ops (es ++ [e]) = ops es ++ e.op.toList := by
  simp only [ops, List.filterMap_append]
  cases h : e.op <;> simp [h]

theorem received_concat (es : List (Event σ)) (e : Event σ) :
    received (es ++ [e]) = received es ++ e.entry.toList := by
  simp only [received, List.filterMap_append]
  cases h : e.entry <;> simp [h]

theorem buffered_concat (es : List (Event σ)) (e : Event σ) :
    buffered (es ++ [e]) = if e.clearsBuffer then [] else buffered es ++ e.entry.toList := by
  rw [buffered, Runs.sinceLast_concat]
  split_ifs
  · rfl
  · exact received_concat _ e

theorem recentOps_concat_of_none {es : List (Event σ)} {e : Event σ} (h : e.op = none) :
    recentOps (es ++ [e]) = recentOps es := by
  rw [recentOps, ops_concat, h, Option.toList_none, List.append_nil]
  rfl

theorem recentOps_concat {es : List (Event σ)} {e : Event σ} {op : Processor.Op}
    (h : e.op = some op) :
    recentOps (es ++ [e]) = if op.clears then [] else recentOps es ++ [op] := by
  rw [recentOps, ops_concat, h, Option.toList_some, Runs.sinceLast_concat]
  rfl

section Concat
variable {hms : Timestamp → String} {es : List (Event σ)} {e : Event σ}

theorem rawLines_concat_of_none (h : e.op = none) : rawLines hms (es ++ [e]) = rawLines hms es := by
  rw [rawLines, recentOps_concat_of_none h, rawLines]

theorem rawLines_concat {op : Processor.Op} (h : e.op = some op) :
    rawLines hms (es ++ [e]) =
      if op.clears then [] else rawLines hms es ++ (op.rawLine hms).toList := by
  rw [rawLines, recentOps_concat h]
  split_ifs
  · rfl
  · rw [List.filterMap_append]
    cases hline : op.rawLine hms <;> simp [rawLines, hline]

theorem rawLines_concat_act (c : σ) {action : Action} (h : action ≠ .clearLogs) (now : Timestamp) :
    rawLines hms (es ++ [.act c action now]) = rawLines hms es := by
  cases action with
  | clearLogs => exact absurd rfl h
  | update button =>
    have hop : (Event.act c (.update button) now).op = some (.update button.status now) := rfl
    rw [rawLines_concat hop]
    exact List.append_nil _
  | _ => exact rawLines_concat_of_none rfl

theorem buffered_concat_act (c : σ) {action : Action} (h : action ≠ .clearBuffer)
    (now : Timestamp) : buffered (es ++ [.act c action now]) = buffered es := by
  cases action with
  | clearBuffer => exact absurd rfl h
  | _ => simp [buffered_concat, Event.clearsBuffer, Event.entry]

theorem buffered_concat_receive (now : Timestamp) (datagram : Datagram) :
    buffered (es ++ [.receive now datagram]) = buffered es ++ [entryOf now datagram] := by
  simp [buffered_concat, Event.clearsBuffer, Event.entry]

theorem buffered_concat_callback (now : Timestamp) (datagram : Datagram) :
    buffered (es ++ [.callback now datagram]) = buffered es := by
  simp [buffered_concat, Event.clearsBuffer, Event.entry]

theorem buffered_concat_rerun (c : σ) (pressed : Pressed) :
    buffered (es ++ [.rerun c pressed]) = buffered es := by
  simp [buffered_concat, Event.clearsBuffer, Event.entry]

theorem rawLines_concat_callback (now : Timestamp) (datagram : Datagram) :
    rawLines hms (es ++ [.callback now datagram]) =
      rawLines hms es ++ [TelemetryProcessor.rawLine hms (entryOf now datagram)] := by
  rw [rawLines_concat rfl]
  rfl

end Concat

/-- What an access shows after a list of events. -/
def displays (hms : Timestamp → String) (es : List (Event σ)) : Action → Option Panel
  | .packetsReceived => some (.packetsReceived (received es).length)
  | .lastRadiation => some (.radiation ((ops es).filterMap Op.radiationPoint).getLast?)
  | .lastThermal => some (.temperature ((ops es).filterMap Op.thermalPoint).getLast?)
  | .solarArrayStatus => some (.solarArray ((ops es).foldl Op.status "Unknown"))
  | .radiationSeries =>
    some (.radiationChart (((recentOps es).filterMap Op.radiationPoint).rtake 200))
  | .thermalSeries =>
    some (.temperatureChart (((recentOps es).filterMap Op.thermalPoint).rtake 200))
  | .events => some (.eventLog (((recentOps es).filterMap (Op.eventLine hms)).rtake 100).reverse)
  | .rawLog => some (.rawTelemetry ((rawLines hms es).rtake 100).reverse)
  | .recent => some (.viewer ((buffered es).rtake 200).reverse)
  | .update _ => none
  | .clearLogs => none
  | .clearBuffer => none

end Histories
end CfsBridge.Dashboard
