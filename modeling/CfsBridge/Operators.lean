import CfsBridge.Dispatcher
import CfsBridge.Processor
import CfsBridge.Transitions

/-!
# Operator buttons

The Open and Close buttons of any number of sessions beside the receiver
thread. A press transmits its command and then writes the displayed status;
between the two another press or a packet may come in. The displayed status is
compared with the latest fact: a transmitted command or a packet that says what
the array does.
-/
namespace CfsBridge.Operators
open Python Dispatcher Processor Transitions
open TelemetryReceiver (Timestamp entryOf)

inductive Button
  | open
  | close
  deriving DecidableEq, Repr

namespace Button

/-- The command that a button transmits. -/
def op : Button → Dispatcher.Op
  | .open => .openArray
  | .close => .closeArray

/-- The function code of the Solar Array that it stands for. -/
def funcCode : Button → ℤ
  | .open => 5
  | .close => 6

/-- The status that it displays once the command is transmitted. -/
def status : Button → String
  | .open => "Open (Operator Override)"
  | .close => "Closed (Operator)"

end Button

/-- The shared services, and the press of each session that is between its two steps. -/
structure Console (σ : Type) where
  dispatcher : CommandDispatcher
  processor : TelemetryProcessor
  pending : σ → Option Button

inductive Event (σ : Type)
  | transmit (session : σ) (button : Button) (sendto : Except PyException ℕ)
  | update (session : σ) (now : Timestamp)
  | packet (now : Timestamp) (datagram : Datagram)

/-- The latest fact after an event. A press that transmits is one; so is a packet
that sets the status. -/
def Event.fact {σ : Type} (before : String) : Event σ → String
  | .transmit _ button sendto => if sendto.toBool then button.status else before
  | .update _ _ => before
  | .packet now datagram => (Processor.Op.packet now datagram).status before

/-- The latest fact of a run. -/
def latestFact {σ : Type} (es : List (Event σ)) : String := es.foldl Event.fact "Unknown"

namespace Console
variable {σ : Type}

def init (dispatcher : CommandDispatcher) (maxPoints : ℕ) : Console σ where
  dispatcher := dispatcher
  processor := .init maxPoints
  pending := fun _ => none

variable [DecidableEq σ] (hms : Timestamp → String)

/-- A press whose send raises goes no further. -/
def step (s : Console σ) : Event σ → Option (Console σ)
  | .transmit c button sendto =>
    match s.pending c with
    | none =>
      match s.dispatcher.call ⟨button.op, sendto⟩ with
      | (.ok _, dispatcher) => some { s with
          dispatcher := dispatcher
          pending := Function.update s.pending c (some button) }
      | (.error _, dispatcher) => some { s with dispatcher := dispatcher }
    | some _ => none
  | .update c now =>
    match s.pending c with
    | some button => some { s with
        processor := s.processor.updateSolarArrayStatus hms button.status now
        pending := Function.update s.pending c none }
    | none => none
  | .packet now datagram => some { s with
      processor := (s.processor.process hms (entryOf now datagram)).2 }

/-- No press is between its two steps. -/
def Quiet (s : Console σ) : Prop := ∀ c, s.pending c = none

/-- An update that leaves no press between its steps writes the latest fact. -/
def UpdatesLatest (pre : List (Event σ)) (s : Console σ) : Event σ → Prop
  | .update c _ => (∀ c', c' ≠ c → s.pending c' = none) →
      ∀ button, s.pending c = some button → button.status = latestFact pre
  | _ => True

end Console

/-- A button's command always fits, so its call ends as its `sendto` does. -/
theorem call_button (button : Button) (sendto : Except PyException ℕ) (s : CommandDispatcher) :
    (s.call ⟨button.op, sendto⟩).1 = sendto := by
  have hfits : CcsdsUtils.CmdFits MissionRegistry.Mid.solarArrayApp [] := by decide
  rw [CommandDispatcher.call_eq]
  cases button <;> cases sendto <;>
    simp [Button.op, Dispatcher.Op.payload, Dispatcher.Op.mid, CommandDispatcher.send_eq, hfits]

namespace Console
variable {σ : Type} [DecidableEq σ] {hms : Timestamp → String} {s s' : Console σ}

/-- What one step can do. -/
inductive Step (hms : Timestamp → String) (s : Console σ) : Event σ → Console σ → Prop
  | transmit {c : σ} {button : Button} {n : ℕ} {dispatcher : CommandDispatcher} :
      s.pending c = none → Step hms s (.transmit c button (.ok n)) { s with
        dispatcher := dispatcher
        pending := Function.update s.pending c (some button) }
  | transmit_raises {c : σ} {button : Button} {e : PyException} {dispatcher : CommandDispatcher} :
      Step hms s (.transmit c button (.error e)) { s with dispatcher := dispatcher }
  | update {c : σ} {button : Button} {now : Timestamp} :
      s.pending c = some button → Step hms s (.update c now) { s with
        processor := s.processor.updateSolarArrayStatus hms button.status now
        pending := Function.update s.pending c none }
  | packet {now : Timestamp} {datagram : Datagram} : Step hms s (.packet now datagram) { s with
      processor := (s.processor.process hms (entryOf now datagram)).2 }

theorem step_cases {e : Event σ} (h : s.step hms e = some s') : Step hms s e s' := by
  cases e with
  | transmit c button sendto =>
    have hcall := call_button button sendto s.dispatcher
    cases hc : s.pending c with
    | none =>
      simp only [step, hc] at h
      cases hresult : s.dispatcher.call ⟨button.op, sendto⟩ with
      | mk result dispatcher =>
        rw [hresult] at h hcall
        obtain rfl : result = sendto := hcall
        cases result with
        | ok n =>
          cases h
          exact .transmit hc
        | error e =>
          cases h
          exact .transmit_raises
    | some b => simp [step, hc] at h
  | update c now =>
    cases hc : s.pending c with
    | none => simp [step, hc] at h
    | some button =>
      simp only [step, hc] at h
      cases h
      exact .update hc
  | packet now datagram =>
    cases h
    exact .packet

omit [DecidableEq σ] in
theorem latestFact_concat (pre : List (Event σ)) (e : Event σ) :
    latestFact (pre ++ [e]) = Event.fact (latestFact pre) e := by
  rw [latestFact, List.foldl_append]
  rfl

/-- The displayed status is the latest fact whenever no press is between its steps. -/
def Displays (pre : List (Event σ)) (s : Console σ) : Prop :=
  s.Quiet → s.processor.solarArrayStatus = latestFact pre

theorem displays_step {pre : List (Event σ)} {e : Event σ} (hlaw : Displays pre s)
    (hstep : s.step hms e = some s') :
    Displays (pre ++ [e]) s' ↔ UpdatesLatest pre s e := by
  unfold Displays
  rw [latestFact_concat]
  cases step_cases hstep with
  | @transmit c button n dispatcher hc =>
    refine iff_of_true (fun hquiet => ?_) trivial
    have hpending : Function.update s.pending c (some button) c = none := hquiet c
    rw [Function.update_self] at hpending
    cases hpending
  | transmit_raises => exact iff_of_true hlaw trivial
  | @update c button now hc =>
    have hquiet : Quiet { s with
          processor := s.processor.updateSolarArrayStatus hms button.status now
          pending := Function.update s.pending c none } ↔ ∀ c', c' ≠ c → s.pending c' = none :=
      (Function.forall_update_iff s.pending fun _ button => button = none).trans (by simp)
    rw [hquiet]
    simp [UpdatesLatest, hc, Event.fact, TelemetryProcessor.updateSolarArrayStatus]
  | @packet now datagram =>
    refine iff_of_true (fun hquiet => ?_) trivial
    rw [TelemetryProcessor.process_entryOf]
    change (Processor.Op.packet now datagram).status s.processor.solarArrayStatus = _
    rw [hlaw hquiet]
    rfl

/-- In every run, the displayed status is the latest fact in each state without
a press between its steps exactly if every update that leaves no such press
writes the latest fact. -/
theorem displays_latest_iff (dispatcher : CommandDispatcher) (maxPoints : ℕ) {es : List (Event σ)}
    (hrun : run (step hms) (init dispatcher maxPoints) es = some s) :
    Always (step hms) (init dispatcher maxPoints)
        (fun pre s => s.Quiet → s.processor.solarArrayStatus = latestFact pre) es ↔
      Meets (step hms) (init dispatcher maxPoints) UpdatesLatest es :=
  always_iff_meets (fun _ _ => True) trivial (fun _ => rfl) (fun _ _ _ _ _ _ _ _ => trivial)
    (fun _ _ _ _ _ hlaw hstep => displays_step hlaw hstep) hrun

/-- A telemetry packet that says the radiation is critical. -/
def criticalRadiation : Datagram :=
  ⟨[0x08, 0x82, 0xC0, 0x00, 0x00, 0x0E, 0, 0, 0, 0, 0, 0, 0, 0, 0, 0, 0x00, 0x00, 0x48, 0x43, 2],
    by decide⟩

/-- A critical reading arrives between the two steps of a press. -/
def lateUpdate : List (Event Unit) :=
  [.transmit () .open (.ok 8), .packet 1 criticalRadiation, .update () 2]

theorem fact_criticalRadiation (before : String) :
    Event.fact before (.packet 1 criticalRadiation : Event Unit) = "Closed (FDIR Auto)" := by
  have hdata : Parser.Telemetry.ofDatagram criticalRadiation.val =
      .radiation 0x43480000#32 2 := by decide +kernel
  simp [Event.fact, Processor.Op.status, hdata]

theorem lateUpdate_overrides : ∃ s : Console Unit,
    run (step fun _ => "00:00:00") (init .init 200) lateUpdate = some s ∧ s.Quiet ∧
      s.processor.solarArrayStatus = "Open (Operator Override)" ∧
      latestFact lateUpdate = "Closed (FDIR Auto)" := by
  obtain ⟨d, hd⟩ : ∃ d, CommandDispatcher.init.call ⟨.openArray, .ok 8⟩ = (.ok 8, d) :=
    ⟨_, Prod.ext (call_button .open (.ok 8) .init) rfl⟩
  refine ⟨{
    dispatcher := d
    processor := (((TelemetryProcessor.init 200).process (fun _ => "00:00:00")
      (entryOf 1 criticalRadiation)).2).updateSolarArrayStatus (fun _ => "00:00:00")
        "Open (Operator Override)" 2
    pending := fun _ => none }, ?_, fun _ => rfl, rfl, ?_⟩
  · simp [lateUpdate, run, step, init, Button.op, Button.status, hd]
  · exact fact_criticalRadiation "Open (Operator Override)"

/-- A press after a critical reading. -/
def pressAfterPacket : List (Event Unit) :=
  [.packet 1 criticalRadiation, .transmit () .open (.ok 8), .update () 2]

theorem displays_latest_iff_press : ∃ s : Console Unit,
    run (step fun _ => "00:00:00") (init .init 200) pressAfterPacket = some s ∧ s.Quiet ∧
      s.processor.solarArrayStatus = "Open (Operator Override)" := by
  obtain ⟨d, hd⟩ : ∃ d, CommandDispatcher.init.call ⟨.openArray, .ok 8⟩ = (.ok 8, d) :=
    ⟨_, Prod.ext (call_button .open (.ok 8) .init) rfl⟩
  obtain ⟨s, hrun, hquiet⟩ : ∃ s : Console Unit,
      run (step fun _ => "00:00:00") (init .init 200) pressAfterPacket = some s ∧ s.Quiet := by
    simp [pressAfterPacket, run, step, init, Button.op, Button.status, hd, Quiet]
  have hmeets : Meets (step fun _ => "00:00:00") (init .init 200) UpdatesLatest
      pressAfterPacket := by
    refine meets_cons.mpr ⟨trivial, fun s _ => meets_cons.mpr ⟨trivial, fun s' hs' => ?_⟩⟩
    refine meets_cons.mpr ⟨fun _ button hbutton => ?_, fun _ _ => meets_nil⟩
    cases step_cases hs' with
    | transmit hidle =>
      obtain rfl : .open = button := by simpa using hbutton
      rfl
  exact ⟨s, hrun, hquiet, ((displays_latest_iff .init 200 hrun).mpr hmeets).last hrun hquiet⟩

end Console
end CfsBridge.Operators
