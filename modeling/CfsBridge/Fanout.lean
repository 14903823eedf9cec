import CfsBridge.BridgeApp
import CfsBridge.Mission

/-!
# Fan-out on the software bus

BRIDGE_APP subscribes to the message ID of RAD_APP, and the bus puts every
message with that ID into both pipes. Each application takes its messages at its
own pace. How the bus delivers is not in the repository, so a pipe may have any
fault at any time. What either application has taken, followed by what is in its
pipe, stands to all that was put on the bus in the relation that the faults of
this one pipe allow. Without any, the lines of the logger tell what RAD_APP was
sent, and each reading that RAD_APP reports has its line.
-/
namespace CfsBridge.Fanout
open Bytes Cfe FlightApps BridgeApp Channels Transitions
open CfsBridge.Monitor (Turn Script Quiet readingOf quiet_call)
open CfsBridge.Mission (Task Sound outgoing)
open CfsBridge.Parser (patternAt)
open Ieee (Binary32)

/-! ### State -/

inductive App
  | rad
  | bridge
  deriving DecidableEq

def App.pipeDepth : App → ℕ
  | .rad => RadApp.monitor.pipeDepth
  | .bridge => BridgeApp.pipeDepth

/-- BRIDGE_APP between two turns of its loop. -/
structure Logger where
  data : AppData
  exited : Bool

namespace Logger
variable (cfe : SizedServices)

def turn (turn : Turn) (l : Logger) : Logger :=
  if l.exited then l
  else
    let (go, runStatus) := turn.runLoop.answer l.data.runStatus
    let d := { l.data with runStatus := runStatus }
    if go then ⟨receive cfe turn d, false⟩ else ⟨d.call [.exitApp d.runStatus], true⟩

/-- The turn takes a message from the pipe. -/
def receives (turn : Turn) (l : Logger) : Bool :=
  !l.exited && (turn.runLoop.answer l.data.runStatus).1 && decide (turn.rc = cfeSuccess)

/-- Turn by turn the logger runs its main loop. -/
theorem data_foldl (turns : List Turn) (d : AppData) :
    (turns.foldl (fun l turn => Logger.turn cfe turn l) ⟨d, false⟩).data = mainLoop cfe turns d := by
  have hexited (turns : List Turn) (d : AppData) :
      turns.foldl (fun l turn => Logger.turn cfe turn l) ⟨d, true⟩ = ⟨d, true⟩ := by
    induction turns with
    | nil => rfl
    | cons turn turns ih => rw [List.foldl_cons, Logger.turn, if_pos rfl, ih]
  induction turns generalizing d with
  | nil => rfl
  | cons turn turns ih =>
    rw [List.foldl_cons, Logger.turn, if_neg Bool.false_ne_true, mainLoop]
    cases hgo : (turn.runLoop.answer d.runStatus).1 with
    | true =>
      simp only [hgo, if_true]
      exact ih _
    | false =>
      simp only [hgo, Bool.false_eq_true, if_false]
      rw [hexited]

end Logger

/-- The bus between whoever sends commands and the two applications. `sent` is
the trace of the messages with their ID, and `taken` that of each application. -/
structure Bus where
  subscribed : App → Bool
  sent : List Bytes
  pipe : App → List Bytes
  taken : App → List SbBuffer
  rad : Task
  logger : Logger

inductive Event
  | publish (msg : Bytes)
  | turn (app : App) (turn : Turn)
  | fault (app : App) (fault : Fault)

/-- The scripts hold the return codes of the initialisation, whose last call is
the subscription. -/
def start (cfe : SizedServices) (boot : App → Script) : Bus where
  subscribed app := (boot app).initialized
  sent := []
  pipe _ := []
  taken _ := []
  rad := ⟨RadApp.monitor.startUp cfe.toServices (boot .rad), false⟩
  logger := ⟨BridgeApp.startUp (boot .bridge), false⟩

def exited (app : App) (s : Bus) : Bool :=
  match app with
  | .rad => s.rad.exited
  | .bridge => s.logger.exited

/-- The messages that the pipe of an application may hold: `limit` is that of the
bus on the messages of one ID in a pipe. -/
def capacity (limit : ℕ) (app : App) (s : Bus) : ℕ :=
  if s.subscribed app && !exited app s then min app.pipeDepth limit else 0

section Step
variable (cfe : SizedServices) (limit : ℕ)

def receives (app : App) (turn : Turn) (s : Bus) : Bool :=
  match app with
  | .rad => s.rad.receives turn
  | .bridge => s.logger.receives turn

def advance (app : App) (turn : Turn) (s : Bus) : Bus :=
  match app with
  | .rad => { s with rad := s.rad.turn RadApp.monitor cfe.toServices turn }
  | .bridge => { s with logger := s.logger.turn cfe turn }

/-- What is put on the bus has both headers. A turn that receives takes the
oldest message of its pipe. -/
def step (s : Bus) : Event → Option Bus
  | .publish msg =>
    if msg.length < 8 then none
    else if cfe.getMsgId msg = listenerMid then some { s with
      sent := s.sent ++ [msg]
      pipe := fun app => push (capacity limit app s) (s.pipe app) msg }
    else some s
  | .turn app turn =>
    if receives app turn s then
      match s.pipe app with
      | [] => none
      | msg :: rest =>
        if turn.buffer.message = msg then some (advance cfe app turn { s with
          pipe := Function.update s.pipe app rest
          taken := Function.update s.taken app (s.taken app ++ [turn.buffer]) })
        else none
    else some (advance cfe app turn s)
  | .fault app f => some { s with pipe := Function.update s.pipe app (f.apply (s.pipe app)) }

end Step

/-! ### What one step can do -/

variable {cfe : SizedServices} {limit : ℕ} {s s' : Bus} {e : Event}

inductive Step (cfe : SizedServices) (limit : ℕ) (s : Bus) : Event → Bus → Prop
  | publish {msg : Bytes} : 8 ≤ msg.length → cfe.getMsgId msg = listenerMid →
      Step cfe limit s (.publish msg) { s with
        sent := s.sent ++ [msg]
        pipe := fun app => push (capacity limit app s) (s.pipe app) msg }
  | elsewhere {msg : Bytes} : cfe.getMsgId msg ≠ listenerMid → Step cfe limit s (.publish msg) s
  | take {app : App} {turn : Turn} {rest : List Bytes} : receives app turn s = true →
      s.pipe app = turn.buffer.message :: rest →
      Step cfe limit s (.turn app turn) (advance cfe app turn { s with
        pipe := Function.update s.pipe app rest
        taken := Function.update s.taken app (s.taken app ++ [turn.buffer]) })
  | idle {app : App} {turn : Turn} : receives app turn s = false →
      Step cfe limit s (.turn app turn) (advance cfe app turn s)
  | fault {app : App} {f : Fault} : Step cfe limit s (.fault app f) { s with
      pipe := Function.update s.pipe app (f.apply (s.pipe app)) }

theorem step_cases (h : step cfe limit s e = some s') : Step cfe limit s e s' := by
  cases e with
  | publish msg =>
    simp only [step] at h
    split_ifs at h with hshort hmid
    · cases h
      exact .publish (not_lt.mp hshort) hmid
    · cases h
      exact .elsewhere hmid
  | turn app turn =>
    simp only [step] at h
    split_ifs at h with hreceives
    · split at h
      · cases h
      · next msg rest hpipe =>
        split_ifs at h with hmessage
        cases h
        exact .take hreceives (hmessage ▸ hpipe)
    · cases h
      exact .idle (Bool.eq_false_iff.mpr hreceives)
  | fault app f =>
    cases h
    exact .fault

/-! ### Deliveries -/

/-- What an application has taken, then what waits in its pipe. -/
def delivered (app : App) (s : Bus) : List Bytes :=
  (s.taken app).map SbBuffer.message ++ s.pipe app

/-- What a discipline has to tolerate for the pipe of one application: its faults,
and the loss of a message that it cannot take. -/
def Allowed (D : Discipline) (cfe : SizedServices) (limit : ℕ) (app : App) (s : Bus) :
    Event → Prop
  | .publish msg => cfe.getMsgId msg = listenerMid →
      capacity limit app s ≤ (s.pipe app).length → D.Tolerates (.drop (s.pipe app).length)
  | .turn _ _ => True
  | .fault app' f => app' = app → D.Tolerates f

/-- A fault of the application's pipe that does more than lose messages. -/
def Event.mixes (app : App) : Event → Bool
  | .fault app' (.duplicate _) => app' = app
  | .fault app' (.swap _) => app' = app
  | _ => false

theorem allowed_lossy {app : App} (h : e.mixes app = false) (cfe : SizedServices) (limit : ℕ)
    (s : Bus) : Allowed .lossy cfe limit app s e := by
  cases e with
  | publish msg => exact fun _ _ => Discipline.lossy_tolerates_drop _
  | turn app' turn => trivial
  | fault app' f =>
    rintro rfl
    cases f with
    | drop i => exact Discipline.lossy_tolerates_drop i
    | duplicate i => simp [Event.mixes] at h
    | swap i => simp [Event.mixes] at h

theorem allowed_arbitrary (cfe : SizedServices) (limit : ℕ) (app : App) (s : Bus) (e : Event) :
    Allowed .arbitrary cfe limit app s e := by
  cases e with
  | publish msg => exact fun _ _ => Discipline.arbitrary_tolerates _
  | turn app' turn => trivial
  | fault app' f => exact fun _ => Discipline.arbitrary_tolerates f

theorem advance_bus (cfe : SizedServices) (app : App) (turn : Turn) (s : Bus) :
    (advance cfe app turn s).sent = s.sent ∧ (advance cfe app turn s).pipe = s.pipe ∧
      (advance cfe app turn s).taken = s.taken := by
  cases app <;> exact ⟨rfl, rfl, rfl⟩

/-- A step hands one more message to both applications, disturbs a pipe or leaves
all as it is. -/
theorem conserves_delivered {D : Discipline} (app : App)
    (hallowed : Allowed D cfe limit app s e) (hstep : step cfe limit s e = some s') :
    Conserves D (delivered app) Bus.sent s s' := by
  cases step_cases hstep with
  | @publish msg hlen hmid =>
    refine ⟨[msg], rfl, ?_⟩
    rw [delivered, delivered, List.append_assoc]
    apply D.append_left
    exact push_rel (hallowed hmid) msg
  | elsewhere hmid => exact .of_eq rfl rfl
  | @take app' turn rest hreceives hpipe =>
    obtain ⟨hsent, hpipes, htaken⟩ := advance_bus cfe app' turn { s with
      pipe := Function.update s.pipe app' rest
      taken := Function.update s.taken app' (s.taken app' ++ [turn.buffer]) }
    refine .of_eq hsent ?_
    rw [delivered, delivered, hpipes, htaken]
    by_cases hsame : app = app'
    · subst hsame
      simp [hpipe]
    · simp [Function.update_of_ne hsame]
  | @idle app' turn hreceives =>
    obtain ⟨hsent, hpipes, htaken⟩ := advance_bus cfe app' turn s
    refine .of_eq hsent ?_
    rw [delivered, delivered, hpipes, htaken]
  | @fault app' f =>
    refine .of_rel rfl ?_
    rw [delivered, delivered]
    apply D.append_left
    by_cases hsame : app' = app
    · subst hsame
      simpa only [Function.update_self] using hallowed rfl (s.pipe app')
    · simpa only [Function.update_of_ne (Ne.symm hsame)] using D.refl (s.pipe app)

/-! ### What the applications make of it -/

/-- The lines that the logger has written for messages. -/
def Logger.lines (l : Logger) : List (ℕ × ℕ × ℕ) := l.data.trace.filterMap Call.reported

/-- The readings that RAD_APP has reported, as its telemetry packets hold them. -/
def readings (cfe : SizedServices) (s : Bus) : List Binary32 :=
  (outgoing cfe.toServices s.rad.data.actions).map patternAt

section Turn
variable {turn : Turn} {l : Logger}

theorem Logger.lines_receives (h : l.receives turn = true) :
    (l.turn cfe turn).lines = l.lines ++ [report cfe turn.buffer.bytes] := by
  obtain ⟨⟨hexited, hgo⟩, hrc⟩ : (l.exited = false ∧
      (turn.runLoop.answer l.data.runStatus).1 = true) ∧ turn.rc = cfeSuccess := by
    simpa [Logger.receives] using h
  rw [Logger.turn, if_neg (by simp [hexited])]
  simp [hgo, Logger.lines, receive, hrc, received, List.filterMap_cons, Call.reported, report]

theorem Logger.lines_idle (h : l.receives turn = false) : (l.turn cfe turn).lines = l.lines := by
  unfold Logger.turn
  cases hexited : l.exited with
  | true => rfl
  | false =>
    rw [if_neg Bool.false_ne_true]
    cases hgo : (turn.runLoop.answer l.data.runStatus).1 with
    | false => simp [hgo, Logger.lines, List.filterMap_cons, Call.reported]
    | true =>
      have hrc : turn.rc ≠ cfeSuccess := by simpa [Logger.receives, hexited, hgo] using h
      simp [hgo, Logger.lines, receive, hrc, List.filterMap_cons, Call.reported]

/-- RAD_APP takes a message of another kind and does nothing that can be observed. -/
theorem Sound.ignores {k : Source} {services : Services} {done : List SbBuffer} {task : Task}
    (h : Sound k services done task) (hreceives : task.receives turn = true)
    (haddr : k.monitor.addressed services turn.buffer = false) :
    Sound k services done (task.turn k.monitor services turn) := by
  obtain ⟨⟨hexited, hgo⟩, hrc⟩ : (task.exited = false ∧
      (turn.runLoop.answer task.data.runStatus).1 = true) ∧ turn.rc = cfeSuccess := by
    simpa [Task.receives] using hreceives
  obtain ⟨hrun, hkept⟩ := turn.runLoop.running _ hgo
  have hdata : { task.data with runStatus := (turn.runLoop.answer task.data.runStatus).2 } =
      task.data := by rw [hkept, ← hrun]
  rw [Task.turn, if_neg (by simp [hexited])]
  simp only [hdata, hgo, if_true]
  rw [Monitor.receive, if_pos hrc, if_neg (by simp [haddr])]
  have hpolled : Quiet task.data (task.data.call [.receiveBuffer task.data.commandPipe]) :=
    quiet_call task.data task.data.runStatus rfl rfl
  have hlogged : Quiet task.data ((task.data.call [.receiveBuffer task.data.commandPipe]).call
      [.writeToSysLog (k.monitor.name ++ ": Unexpected MID=0x%04X FC=%u\n")
        [.uint (services.getMsgId turn.buffer.bytes),
          .uint (services.getFcnCode turn.buffer.bytes)]]) :=
    hpolled.trans (quiet_call _ task.data.runStatus rfl rfl)
  exact ⟨h.reacted.quiet hlogged, fun _ _ => h.mid hexited hrun⟩

end Turn

/-- Each application has dealt with what it has taken. -/
structure Inv (cfe : SizedServices) (s : Bus) : Prop where
  rad : Sound .radiation cfe.toServices
    ((s.taken .rad).filter (RadApp.monitor.addressed cfe.toServices)) s.rad
  lines : s.logger.lines = (s.taken .bridge).map fun buffer => report cfe buffer.bytes

theorem lines_startUp (script : Script) :
    (BridgeApp.startUp script).trace.filterMap Call.reported = [] := by
  obtain ⟨_, hinits, _, _⟩ := initCalls_views script
  cases hinit : script.initialized with
  | true =>
    rw [startUp_initialized hinit]
    simp [hinits, List.filterMap_cons, Call.reported]
  | false =>
    obtain ⟨_, format, args, rc, htrace, _, hnone, _⟩ := startUp_failed hinit
    rw [htrace, List.filterMap_append, hinits]
    simp [hnone]

theorem inv_start (hcfe : cfe.Documented) (boot : App → Script) : Inv cfe (start cfe boot) where
  rad := Mission.sound_startUp hcfe.toDocumented .radiation (boot .rad)
  lines := lines_startUp (boot .bridge)

theorem Inv.step (hcfe : cfe.Documented) (h : Inv cfe s) (hstep : step cfe limit s e = some s') :
    Inv cfe s' := by
  cases step_cases hstep with
  | publish hlen hmid => exact ⟨h.rad, h.lines⟩
  | elsewhere hmid => exact h
  | @take app turn rest hreceives hpipe =>
    cases app with
    | rad =>
      refine ⟨?_, h.lines⟩
      simp only [advance, Function.update_self, List.filter_append]
      cases haddr : RadApp.monitor.addressed cfe.toServices turn.buffer with
      | true =>
        obtain ⟨block, _, _, hsound, _⟩ := h.rad.receives hcfe.toDocumented hreceives haddr
        rwa [List.filter_cons_of_pos haddr]
      | false =>
        rw [List.filter_cons_of_neg (by simp [haddr]), List.filter_nil, List.append_nil]
        exact Sound.ignores h.rad hreceives haddr
    | bridge =>
      refine ⟨h.rad, ?_⟩
      simp only [advance, Function.update_self, List.map_append]
      rw [Logger.lines_receives hreceives, h.lines]
      rfl
  | @idle app turn hreceives =>
    cases app with
    | rad => exact ⟨(h.rad.idle hreceives).2, h.lines⟩
    | bridge => exact ⟨h.rad, (Logger.lines_idle hreceives).trans h.lines⟩
  | fault => exact ⟨h.rad, h.lines⟩

theorem inv_run (hcfe : cfe.Documented) (boot : App → Script) {es : List Event}
    (hrun : run (step cfe limit) (start cfe boot) es = some s) : Inv cfe s :=
  run_invariant (fun _ s => Inv cfe s) (inv_start hcfe boot)
    (fun _ _ _ _ h hstep => h.step hcfe hstep) hrun

/-- What has been sent is for both applications. -/
theorem mid_sent (boot : App → Script) {es : List Event}
    (hrun : run (step cfe limit) (start cfe boot) es = some s) :
    ∀ msg ∈ s.sent, cfe.getMsgId msg = listenerMid := by
  apply run_invariant (fun _ (s : Bus) => ∀ msg ∈ s.sent, cfe.getMsgId msg = listenerMid) _ _ hrun
  · intro msg hmsg
    cases hmsg
  · intro pre s e s' h hstep
    cases step_cases hstep with
    | publish hlen hmid =>
      intro msg hmsg
      rcases List.mem_append.mp hmsg with hold | hnew
      · exact h msg hold
      · rwa [List.mem_singleton.mp hnew]
    | elsewhere hmid => exact h
    | @take app turn rest hreceives hpipe =>
      rw [(advance_bus cfe app turn _).1]
      exact h
    | @idle app turn hreceives =>
      rw [(advance_bus cfe app turn s).1]
      exact h
    | fault => exact h

/-! ### Headers -/

/-- The header of a command in a buffer is that of its message. -/
theorem report_message (hcfe : cfe.Documented) {buffer : SbBuffer}
    (hmid : cfe.getMsgId buffer.message = listenerMid) :
    report cfe buffer.bytes = report cfe buffer.message := by
  have hge := buffer.size_ge
  have hle := buffer.size_le
  have hlen := buffer.message_length
  have hfront {i j : ℕ} (hj : j ≤ 8) : slice i j buffer.bytes = slice i j buffer.message := by
    rw [slice, slice, SbBuffer.message, List.take_take, min_eq_left (by omega)]
  have hword : buffer.bytes.take 2 = buffer.message.take 2 := by
    rw [← slice_zero_left, ← slice_zero_left, hfront (by omega)]
  have hcode : buffer.bytes.getD 6 0 = buffer.message.getD 6 0 := by
    rw [SbBuffer.message, List.getD_eq_getElem?_getD, List.getD_eq_getElem?_getD,
      List.getElem?_take_of_lt (by omega)]
  rw [hcfe.getMsgId_eq (by omega)] at hmid
  have hcmd : IsCommand (ofBE (buffer.message.take 2)) := by rw [hmid]; decide
  rw [report, report, hcfe.getMsgId_eq (by omega), hcfe.getMsgId_eq (by omega), hword,
    hcfe.getFcnCode_eq (by omega) (hword ▸ hcmd), hcfe.getFcnCode_eq (by omega) hcmd, hcode,
    hcfe.getSize_eq (by omega), hcfe.getSize_eq (by omega), hfront (by omega)]

/-- RAD_APP acts on the messages that the logger shows with code 2. -/
theorem addressed_iff (hcfe : cfe.Documented) {buffer : SbBuffer}
    (hmid : cfe.getMsgId buffer.message = listenerMid) :
    RadApp.monitor.addressed cfe.toServices buffer = true ↔
      (report cfe buffer.message).2.1 = 2 := by
  have hreport := report_message hcfe hmid
  have hword : cfe.getMsgId buffer.bytes = listenerMid := (congrArg Prod.fst hreport).trans hmid
  rw [← hreport, Monitor.addressed, decide_eq_true_iff]
  exact ⟨fun h => h.2, fun h => ⟨hword, h⟩⟩

/-! ### Runs -/

/-- A reading and a line that come from one message, which both applications have taken. -/
def SameMessage (cfe : SizedServices) (s : Bus) (reading : Binary32) (line : ℕ × ℕ × ℕ) : Prop :=
  ∃ radBuffer ∈ s.taken .rad, ∃ bridgeBuffer ∈ s.taken .bridge,
    radBuffer.message = bridgeBuffer.message ∧ reading = readingOf radBuffer.bytes ∧
      line = report cfe bridgeBuffer.message

/-- When both have taken the same messages, those with code 2 pair up. -/
theorem forall₂_sameMessage (cfe : SizedServices)
    (hsame : (s.taken .rad).map SbBuffer.message = (s.taken .bridge).map SbBuffer.message) :
    List.Forall₂ (SameMessage cfe s)
      (((s.taken .rad).filter fun buffer => (report cfe buffer.message).2.1 = 2).map
        fun buffer => readingOf buffer.bytes)
      (((s.taken .bridge).map fun buffer => report cfe buffer.message).filter
        fun line => line.2.1 = 2) := by
  have hpaired : List.Forall₂ (fun a b : SbBuffer => a.message = b.message) (s.taken .rad)
      (s.taken .bridge) := by
    have heq := List.forall₂_eq_eq_eq.symm ▸ hsame
    rwa [List.forall₂_map_left_iff, List.forall₂_map_right_iff] at heq
  have hcode : List.Forall₂ (fun a b : SbBuffer => a.message = b.message)
      ((s.taken .rad).filter fun buffer => (report cfe buffer.message).2.1 = 2)
      ((s.taken .bridge).filter fun buffer => (report cfe buffer.message).2.1 = 2) := by
    apply List.rel_filter _ hpaired
    intro a b hab
    simp [hab]
  -- every pair is one of buffers that have been taken
  have hleft := (List.forall₂_and_left _ _).mpr
    ⟨fun a ha => (List.mem_filter.mp ha).1, hcode⟩
  have hboth := (List.forall₂_and_left _ _).mpr
    ⟨fun b hb => (List.mem_filter.mp hb).1, hleft.flip⟩
  rw [List.filter_map, List.forall₂_map_left_iff, List.forall₂_map_right_iff]
  refine hboth.flip.imp ?_
  rintro a b ⟨hb, ha, hab⟩
  exact ⟨a, ha, b, hb, hab, rfl, rfl⟩

section Run
variable {boot : App → Script} {es : List Event}

theorem delivered_rel {D : Discipline} (app : App)
    (hmeets : Meets (step cfe limit) (start cfe boot)
      (fun _ s e => Allowed D cfe limit app s e) es)
    (hrun : run (step cfe limit) (start cfe boot) es = some s) : D.Rel (delivered app s) s.sent :=
  conserved_run (delivered app) Bus.sent (fun _ => True) trivial (D.refl _)
    (fun _ _ _ _ _ => trivial)
    (fun _ _ _ _ hallowed hstep => conserves_delivered app hallowed hstep) hmeets hrun

theorem mid_taken (app : App) (hrun : run (step cfe limit) (start cfe boot) es = some s) :
    ∀ buffer ∈ s.taken app, cfe.getMsgId buffer.message = listenerMid := by
  have hsub : delivered app s ⊆ s.sent := delivered_rel (D := .arbitrary) app
    (meets_of_forall fun e _ s => allowed_arbitrary cfe limit app s e) hrun
  intro buffer hbuffer
  apply mid_sent boot hrun
  apply hsub
  exact List.mem_append_left _ (List.mem_map_of_mem hbuffer)

/-- In every run each application is handed what its own pipe makes of all that is
sent: a part of it in order while that pipe only loses messages, all of it while
it has room and no fault, however the other one fares. The logger has a line for
each message it has taken, and RAD_APP has reported the reading of each that has
code 2; when both have been handed everything and are through with it, reading by
reading these are the lines with that code. -/
theorem fan_out (hcfe : cfe.Documented) (boot : App → Script)
    (hrun : run (step cfe limit) (start cfe boot) es = some s) :
    let Kept := fun D app => Meets (step cfe limit) (start cfe boot)
      (fun _ s e => Allowed D cfe limit app s e) es
    (∀ D app, Kept D app → D.Rel (delivered app s) s.sent) ∧
      (∀ app, (∀ e ∈ es, e.mixes app = false) → (delivered app s).Sublist s.sent) ∧
      (∀ app, Kept .fifo app → delivered app s = s.sent) ∧
      s.logger.lines = ((s.taken .bridge).map fun buffer => report cfe buffer.message) ∧
      readings cfe s = (((s.taken .rad).filter fun buffer =>
        (report cfe buffer.message).2.1 = 2).map fun buffer => readingOf buffer.bytes) ∧
      ((∀ app, Kept .fifo app) → (∀ app, s.pipe app = []) →
        List.Forall₂ (SameMessage cfe s) (readings cfe s)
          (s.logger.lines.filter fun line => line.2.1 = 2)) := by
  intro Kept
  have hinv := inv_run hcfe boot hrun
  have hmid (app : App) := mid_taken app hrun
  have hall (app : App) (hkept : Kept .fifo app) : delivered app s = s.sent :=
    delivered_rel app hkept hrun
  have hlines : s.logger.lines = (s.taken .bridge).map fun buffer => report cfe buffer.message := by
    rw [hinv.lines]
    exact List.map_congr_left fun buffer hbuffer => report_message hcfe (hmid .bridge buffer hbuffer)
  have hreadings : readings cfe s = ((s.taken .rad).filter fun buffer =>
      (report cfe buffer.message).2.1 = 2).map fun buffer => readingOf buffer.bytes := by
    rw [readings, Mission.map_patternAt (Mission.outgoing_reacted hcfe.toDocumented hinv.rad.reacted)]
    congr 1
    apply List.filter_congr
    intro buffer hbuffer
    rw [Bool.eq_iff_iff, decide_eq_true_iff]
    exact addressed_iff hcfe (hmid .rad buffer hbuffer)
  refine ⟨fun D app hkept => delivered_rel app hkept hrun, fun app hlossy => ?_, hall, hlines,
    hreadings, ?_⟩
  · exact delivered_rel (D := .lossy) app
      (meets_of_forall fun e he s => allowed_lossy (hlossy e he) cfe limit s) hrun
  intro hkept hempty
  rw [hreadings, hlines]
  apply forall₂_sameMessage
  have hrad := hall .rad (hkept .rad)
  have hbridge := hall .bridge (hkept .bridge)
  rw [delivered, hempty, List.append_nil] at hrad hbridge
  exact hrad.trans hbridge.symm

end Run

def noop : SbBuffer := padded [0x18, 0x82, 0xC0, 0x01, 0x00, 0x01, 0x00, 0xA5] (by decide) 0

/-- A hot reading is put on the bus, then a no-op; RAD_APP takes both before the
logger takes any. -/
def fanRun : List Event :=
  [.publish hotCommand.message, .publish noop.message,
    .turn .rad (delivery hotCommand ⟨0, 0⟩), .turn .rad (delivery noop ⟨0, 0⟩),
    .turn .bridge (delivery hotCommand ⟨0, 0⟩), .turn .bridge (delivery noop ⟨0, 0⟩)]

/-- The logger has a line for both, and RAD_APP a reading for the first. -/
theorem fan_out_noop :
    ∃ s, run (step ccsdsV1Sized 4) (start ccsdsV1Sized fun _ => nominal []) fanRun = some s ∧
      (∀ app, delivered app s = [hotCommand.message, noop.message]) ∧
      s.logger.lines = [(0x1882, 2, 12), (0x1882, 0, 8)] ∧
      readings ccsdsV1Sized s = [0x43480000#32] ∧
      SameMessage ccsdsV1Sized s 0x43480000#32 (0x1882, 2, 12) := by
  let final := run (step ccsdsV1Sized 4) (start ccsdsV1Sized fun _ => nominal []) fanRun
  have hpipes : (final.map fun s => (s.sent, s.pipe .rad, s.pipe .bridge)) =
      some ([hotCommand.message, noop.message], [], []) := by decide +kernel
  have hviews : (final.map fun s => ((s.taken .bridge).map fun buffer =>
      report ccsdsV1Sized buffer.message, ((s.taken .rad).filter fun buffer =>
        (report ccsdsV1Sized buffer.message).2.1 = 2).map fun buffer => readingOf buffer.bytes)) =
      some ([(0x1882, 2, 12), (0x1882, 0, 8)], [0x43480000#32]) := by decide +kernel
  obtain ⟨s, hrun, hqueues⟩ := Option.map_eq_some_iff.mp hpipes
  rw [hrun, Option.map_some, Option.some.injEq, Prod.mk.injEq] at hviews
  obtain ⟨hsent, hrad, hbridge⟩ : s.sent = _ ∧ s.pipe .rad = [] ∧ s.pipe .bridge = [] := by
    simpa only [Prod.mk.injEq] using hqueues
  -- only the first two events put anything into a pipe
  have hkept (app : App) : Meets (step ccsdsV1Sized 4) (start ccsdsV1Sized fun _ => nominal [])
      (fun _ s e => Allowed .fifo ccsdsV1Sized 4 app s e) fanRun := by
    refine meets_cons.mpr ⟨fun _ hfull => ?_, ?_⟩
    · cases app <;> exact absurd hfull (by decide)
    rintro s ⟨⟩
    refine meets_cons.mpr ⟨fun _ hfull => ?_, fun s _ => meets_of_forall fun e he s => ?_⟩
    · cases app <;> exact absurd hfull (by decide)
    simp only [List.mem_cons, List.not_mem_nil, or_false] at he
    rcases he with rfl | rfl | rfl | rfl <;> trivial
  obtain ⟨_, _, hall, hlines, hreadings, hsame⟩ := fan_out ccsdsV1Sized_documented _ hrun
  rw [hviews.1] at hlines
  rw [hviews.2] at hreadings
  have hempty (app : App) : s.pipe app = [] := by
    cases app with
    | rad => exact hrad
    | bridge => exact hbridge
  have hpairs := hsame hkept hempty
  rw [hlines, hreadings] at hpairs
  refine ⟨s, hrun, fun app => (hall app (hkept app)).trans hsent, hlines, hreadings, ?_⟩
  exact (List.forall₂_cons.mp hpairs).1

end CfsBridge.Fanout
