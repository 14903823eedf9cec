import CfsBridge.Transitions

/-!
# The receiver's lifecycle

`start`, `stop` and `_listen_loop` of `TelemetryReceiver` as interleaved steps
on the fields they share. A call is a sequence of steps, so any number of
callers may overlap; every thread that `start` creates keeps its own position
in the loop. A `recvfrom` may end in any way at any time, also after `stop` has
closed the socket.
-/
namespace CfsBridge.Lifecycle
open Transitions

/-- Where a thread stands in `_listen_loop`. -/
inductive Phase
  | unstarted
  | creating
  | binding
  | atHead
  | receiving
  | failed
  | handling
  | closing
  | ended
  deriving DecidableEq, Repr

/-- `Thread.is_alive`. -/
def Phase.alive : Phase → Bool
  | .unstarted | .ended => false
  | _ => true

/-- The thread has assigned `_sock` and not yet left the function. -/
def Phase.holdsSocket : Phase → Bool
  | .unstarted | .creating | .ended => false
  | _ => true

/-- Where a caller stands in `start` or `stop`. -/
inductive Call
  | idle
  -- `start`
  | starting
  | cleared
  | created
  | launched
  -- `stop`
  | stopping
  | socketClosed
  | joining
  | waiting (thread : ℕ)
  | joined
  deriving DecidableEq, Repr

/-- The receiver's fields and the threads created so far. `abandoned` is a
ghost: the threads that some `join` gave up on. -/
structure Shared where
  running : Bool
  stopEvent : Bool
  thread : Option ℕ
  sock : Option ℕ
  phase : ℕ → Phase
  created : ℕ
  abandoned : List ℕ

def Shared.init : Shared where
  running := false
  stopEvent := false
  thread := none
  sock := none
  phase := fun _ => .unstarted
  created := 0
  abandoned := []

inductive ListenerEvent
  | createSocket
  | createSocketFails
  | bind
  | bindFails
  | checkStop
  | datagram
  | timeout
  | osError
  | handled
  | close
  deriving DecidableEq, Repr

/-- One step of `_listen_loop`. `checkStop` reads the stop event, at the loop
head or in the `OSError` handler; there a cleared event raises. -/
def advance (stopEvent : Bool) : ListenerEvent → Phase → Option Phase
  | .createSocket, .creating => some .binding
  | .createSocketFails, .creating => some .ended
  | .bind, .binding => some .atHead
  | .bindFails, .binding => some .ended
  | .checkStop, .atHead => some (if stopEvent then .closing else .receiving)
  | .datagram, .receiving => some .handling
  | .timeout, .receiving => some .atHead
  | .osError, .receiving => some .failed
  | .checkStop, .failed => some (if stopEvent then .closing else .ended)
  | .handled, .handling => some .atHead
  | .close, .closing => some .ended
  | _, _ => none

namespace Shared

def listener (i : ℕ) (event : ListenerEvent) (s : Shared) : Option Shared :=
  (advance s.stopEvent event (s.phase i)).map fun phase => { s with
    phase := Function.update s.phase i phase
    sock := if event = .createSocket then some i else s.sock }

/-- A thread handle that `is_alive`. -/
def handleAlive (s : Shared) : Bool := s.thread.any fun t => (s.phase t).alive

end Shared

inductive CallEvent
  | start
  | clearEvent
  | createThread
  | startThread
  | setRunning
  | stop
  | closeSocket
  | checkAlive
  | join
  | joinReturns
  | joinTimesOut
  | clearRunning
  deriving DecidableEq, Repr

/-- One step of `start` or `stop`. The handle is read anew at each use, so
`startThread` and `join` raise `RuntimeError` when an overlapping `start` has
replaced it by a thread in the wrong state. -/
def Shared.call : CallEvent → Call → Shared → Option (Call × Shared)
  | .start, .idle, s => some (if s.running then (.idle, s) else (.starting, s))
  | .clearEvent, .starting, s => some (.cleared, { s with stopEvent := false })
  | .createThread, .cleared, s =>
    some (.created, { s with thread := some s.created, created := s.created + 1 })
  | .startThread, .created, s => s.thread.map fun t =>
    if s.phase t = .unstarted then
      (.launched, { s with phase := Function.update s.phase t .creating })
    else (.idle, s)
  | .setRunning, .launched, s => some (.idle, { s with running := true })
  | .stop, .idle, s => some (.stopping, { s with stopEvent := true })
  | .closeSocket, .stopping, s => some (.socketClosed, s)
  | .checkAlive, .socketClosed, s => some (if s.handleAlive then .joining else .joined, s)
  | .join, .joining, s => s.thread.map fun t =>
    if s.phase t = .unstarted then (.idle, s) else (.waiting t, s)
  | .joinReturns, .waiting t, s => if (s.phase t).alive then none else some (.joined, s)
  | .joinTimesOut, .waiting t, s =>
    if (s.phase t).alive then some (.joined, { s with abandoned := t :: s.abandoned }) else none
  | .clearRunning, .joined, s => some (.idle, { s with running := false })
  | _, _, _ => none

/-- What one step of a call can do, its guards included. -/
inductive CallStep (s : Shared) : CallEvent → Call → Call → Shared → Prop
  | start_running : s.running = true → CallStep s .start .idle .idle s
  | start : s.running = false → CallStep s .start .idle .starting s
  | clearEvent : CallStep s .clearEvent .starting .cleared { s with stopEvent := false }
  | createThread : CallStep s .createThread .cleared .created
      { s with thread := some s.created, created := s.created + 1 }
  | startThread {t : ℕ} : s.thread = some t → s.phase t = .unstarted →
      CallStep s .startThread .created .launched
        { s with phase := Function.update s.phase t .creating }
  | startThread_raises {t : ℕ} : s.thread = some t → s.phase t ≠ .unstarted →
      CallStep s .startThread .created .idle s
  | setRunning : CallStep s .setRunning .launched .idle { s with running := true }
  | stop : CallStep s .stop .idle .stopping { s with stopEvent := true }
  | closeSocket : CallStep s .closeSocket .stopping .socketClosed s
  | checkAlive : s.handleAlive = true → CallStep s .checkAlive .socketClosed .joining s
  | checkAlive_dead : s.handleAlive = false → CallStep s .checkAlive .socketClosed .joined s
  | join {t : ℕ} : s.thread = some t → s.phase t ≠ .unstarted →
      CallStep s .join .joining (.waiting t) s
  | join_raises {t : ℕ} : s.thread = some t → s.phase t = .unstarted →
      CallStep s .join .joining .idle s
  | joinReturns {t : ℕ} : (s.phase t).alive = false →
      CallStep s .joinReturns (.waiting t) .joined s
  | joinTimesOut {t : ℕ} : (s.phase t).alive = true →
      CallStep s .joinTimesOut (.waiting t) .joined { s with abandoned := t :: s.abandoned }
  | clearRunning : CallStep s .clearRunning .joined .idle { s with running := false }

theorem Shared.callStep {s s' : Shared} {event : CallEvent} {call call' : Call}
    (h : s.call event call = some (call', s')) : CallStep s event call call' s' := by
  unfold Shared.call at h
  split at h
  case h_1 =>
    cases hrunning : s.running with
    | true =>
      rw [hrunning] at h
      cases h
      exact .start_running hrunning
    | false =>
      rw [hrunning] at h
      cases h
      exact .start hrunning
  case h_4 =>
    obtain ⟨t, ht, hcall⟩ := Option.map_eq_some_iff.mp h
    split_ifs at hcall with hphase
    · cases hcall
      exact .startThread ht hphase
    · cases hcall
      exact .startThread_raises ht hphase
  case h_8 =>
    cases halive : s.handleAlive with
    | true =>
      rw [halive] at h
      cases h
      exact .checkAlive halive
    | false =>
      rw [halive] at h
      cases h
      exact .checkAlive_dead halive
  case h_9 =>
    obtain ⟨t, ht, hcall⟩ := Option.map_eq_some_iff.mp h
    split_ifs at hcall with hphase
    · cases hcall
      exact .join_raises ht hphase
    · cases hcall
      exact .join ht hphase
  case h_10 t =>
    split_ifs at h with halive
    cases h
    exact .joinReturns (by simpa using halive)
  case h_11 t =>
    split_ifs at h with halive
    cases h
    exact .joinTimesOut halive
  case h_13 => cases h
  all_goals
    cases h
    constructor

/-- What one step of a thread can do. -/
theorem advance_spec {stopEvent : Bool} {event : ListenerEvent} {phase phase' : Phase}
    (h : advance stopEvent event phase = some phase') :
    phase.alive = true ∧ (phase'.alive = true ↔ phase' ≠ .ended) ∧
      (phase'.holdsSocket = true → phase.holdsSocket = true ∨ event = .createSocket) := by
  cases stopEvent <;> cases event <;> cases phase <;> cases h <;> decide

/-- The receiver with the position of each caller. -/
structure System (κ : Type) where
  shared : Shared
  calls : κ → Call

inductive Event (κ : Type)
  | listener (thread : ℕ) (event : ListenerEvent)
  | call (caller : κ) (event : CallEvent)

namespace System
variable {κ : Type}

def init : System κ where
  shared := .init
  calls := fun _ => .idle

def step [DecidableEq κ] (s : System κ) : Event κ → Option (System κ)
  | .listener i event => (s.shared.listener i event).map fun shared => { s with shared := shared }
  | .call c event => (s.shared.call event (s.calls c)).map fun (call, shared) =>
    { shared := shared, calls := Function.update s.calls c call }

/-- No `start` or `stop` is in progress. -/
def Quiet (s : System κ) : Prop := ∀ c, s.calls c = .idle

/-- No call is in progress but possibly that of `c`. -/
def QuietBut (c : κ) (s : System κ) : Prop := ∀ c', c' ≠ c → s.calls c' = .idle

variable [DecidableEq κ] {s s' : System κ}

theorem quiet_update {shared : Shared} {c : κ} {call : Call} :
    Quiet { shared := shared, calls := Function.update s.calls c call } ↔
      call = .idle ∧ s.QuietBut c :=
  Function.forall_update_iff s.calls fun _ call => call = .idle

theorem step_listener {i : ℕ} {event : ListenerEvent} (h : s.step (.listener i event) = some s') :
    ∃ phase, advance s.shared.stopEvent event (s.shared.phase i) = some phase ∧
      s' = { s with shared := { s.shared with
        phase := Function.update s.shared.phase i phase
        sock := if event = .createSocket then some i else s.shared.sock } } := by
  obtain ⟨shared, hshared, rfl⟩ := Option.map_eq_some_iff.mp h
  obtain ⟨phase, hphase, rfl⟩ := Option.map_eq_some_iff.mp hshared
  exact ⟨phase, hphase, rfl⟩

theorem step_call {c : κ} {event : CallEvent} (h : s.step (.call c event) = some s') :
    ∃ call shared, CallStep s.shared event (s.calls c) call shared ∧
      s' = { shared := shared, calls := Function.update s.calls c call } := by
  obtain ⟨⟨call, shared⟩, hcall, rfl⟩ := Option.map_eq_some_iff.mp h
  exact ⟨call, shared, Shared.callStep hcall, rfl⟩

end System

/-! ### The flag -/

namespace Shared

/-- A listener thread is alive. -/
def Listening (s : Shared) : Prop := ∃ i, (s.phase i).alive = true

/-- `running` says whether a listener thread is alive. -/
def Agrees (s : Shared) : Prop := s.running = true ↔ s.Listening

end Shared

namespace System
variable {κ : Type} [DecidableEq κ] {s s' : System κ}

/-- What a step must meet, so that `running` is right when no call is in
progress. A thread does not end while it is the last one alive and no call is
in progress; `start` sets the flag while a listener is alive, and `stop` clears
it when none is. A call that raises, which takes an overlapping `start`, does
so while the flag is right. -/
def FlagKept (s : System κ) : Event κ → Prop
  | .listener i event => s.Quiet → advance s.shared.stopEvent event (s.shared.phase i) = some .ended →
      ∃ j, j ≠ i ∧ (s.shared.phase j).alive = true
  | .call c .setRunning => s.QuietBut c → s.shared.Listening
  | .call c .clearRunning => s.QuietBut c → ¬ s.shared.Listening
  | .call c .startThread => s.QuietBut c →
      (∀ t, s.shared.thread = some t → s.shared.phase t ≠ .unstarted) → s.shared.Agrees
  | .call c .join => s.QuietBut c →
      (∀ t, s.shared.thread = some t → s.shared.phase t = .unstarted) → s.shared.Agrees
  | _ => True

theorem flagKept_listener {i : ℕ} {event : ListenerEvent} (hlaw : s.Quiet → s.shared.Agrees)
    (hstep : s.step (.listener i event) = some s') :
    (s'.Quiet → s'.shared.Agrees) ↔ s.FlagKept (.listener i event) := by
  obtain ⟨phase, hphase, rfl⟩ := step_listener hstep
  obtain ⟨halive, hended, _⟩ := advance_spec hphase
  have hrunning (hquiet : s.Quiet) : s.shared.running = true := (hlaw hquiet).mpr ⟨i, halive⟩
  have hother (j : ℕ) (hne : j ≠ i) :
      Function.update s.shared.phase i phase j = s.shared.phase j := Function.update_of_ne hne ..
  change (s.Quiet → _) ↔ (s.Quiet → _)
  refine forall_congr' fun hquiet => ?_
  simp only [Shared.Agrees, Shared.Listening, hrunning hquiet, true_iff, hphase, Option.some.injEq]
  by_cases hlast : phase = .ended
  · constructor
    · rintro ⟨j, hj⟩ _
      by_cases hne : j = i
      · subst hne
        rw [Function.update_self, hlast] at hj
        cases hj
      · exact ⟨j, hne, by rwa [hother j hne] at hj⟩
    · intro h
      obtain ⟨j, hne, hj⟩ := h hlast
      exact ⟨j, by rwa [hother j hne]⟩
  · refine iff_of_true ⟨i, ?_⟩ fun h => absurd h hlast
    rw [Function.update_self]
    exact hended.mpr hlast

theorem flagKept_call {c : κ} {event : CallEvent} (hlaw : s.Quiet → s.shared.Agrees)
    (hstep : s.step (.call c event) = some s') :
    (s'.Quiet → s'.shared.Agrees) ↔ s.FlagKept (.call c event) := by
  obtain ⟨call, shared, hcall, rfl⟩ := step_call hstep
  rw [quiet_update]
  generalize hbefore : s.calls c = before at hcall
  cases hcall with
  | start_running hrunning =>
    refine iff_of_true (fun hquiet => hlaw fun c' => ?_) trivial
    by_cases hne : c' = c
    · rw [hne, hbefore]
    · exact hquiet.2 c' hne
  | setRunning => simp [FlagKept, Shared.Agrees, Shared.Listening]
  | clearRunning => simp [FlagKept, Shared.Agrees, Shared.Listening]
  | startThread ht hphase => simp [FlagKept, ht, hphase]
  | startThread_raises ht hphase => simp [FlagKept, ht, hphase]
  | join ht hphase => simp [FlagKept, ht, hphase]
  | join_raises ht hphase => simp [FlagKept, ht, hphase]
  | _ => simp [FlagKept]

/-- Threads not yet created have not started. -/
def Fresh (s : Shared) : Prop :=
  (∀ i, s.created ≤ i → s.phase i = .unstarted) ∧ ∀ t, s.thread = some t → t < s.created

theorem fresh_step {e : Event κ} (h : Fresh s.shared) (hstep : s.step e = some s') :
    Fresh s'.shared := by
  obtain ⟨hunstarted, hhandle⟩ := h
  cases e with
  | listener i event =>
    obtain ⟨phase, hphase, rfl⟩ := step_listener hstep
    refine ⟨fun j hj => ?_, hhandle⟩
    have hne : j ≠ i := by
      rintro rfl
      have halive := (advance_spec hphase).1
      rw [hunstarted j hj] at halive
      cases halive
    exact (Function.update_of_ne hne ..).trans (hunstarted j hj)
  | call c event =>
    obtain ⟨call, shared, hcall, rfl⟩ := step_call hstep
    generalize s.calls c = before at hcall
    cases hcall with
    | createThread =>
      refine ⟨fun j hj => hunstarted j (Nat.le_of_succ_le hj), ?_⟩
      rintro t ⟨⟩
      exact Nat.lt_succ_self _
    | startThread ht hphase =>
      refine ⟨fun j hj => ?_, hhandle⟩
      have hlt := hhandle _ ht
      have hne : j ≠ _ := (lt_of_lt_of_le hlt hj).ne'
      exact (Function.update_of_ne hne ..).trans (hunstarted j hj)
    | _ => exact ⟨hunstarted, hhandle⟩

theorem fresh_run {es : List (Event κ)} (hrun : run step init es = some s) : Fresh s.shared := by
  refine run_invariant (fun _ s => Fresh s.shared) ⟨fun _ _ => rfl, ?_⟩ ?_ hrun
  · rintro t ⟨⟩
  · intro pre s e s' h hstep
    exact fresh_step h hstep

/-- The steps of a `start` up to its thread. -/
def launch (c : κ) : List (Event κ) :=
  [.call c .start, .call c .clearEvent, .call c .createThread, .call c .startThread]

/-- A `start` that finds the flag cleared brings a listener up. -/
theorem listening_of_launch {c : κ} (hcall : s.calls c = .idle)
    (hrunning : s.shared.running = false) (hfresh : Fresh s.shared) :
    ∃ s', run step s (launch c) = some s' ∧ s'.shared.Listening := by
  have hphase := hfresh.1 _ le_rfl
  simp [launch, run, step, Shared.call, hcall, hrunning, hphase, Shared.Listening]
  exact ⟨s.shared.created, by simp [Phase.alive]⟩

/-- In a run, `running` is right whenever no call is in progress exactly if every
step meets `FlagKept`; and then a `start` issued while no listener is alive
brings one up. -/
theorem running_agrees_iff {es : List (Event κ)} (hrun : run step init es = some s) :
    (Always step init (fun _ s => s.Quiet → s.shared.Agrees) es ↔
      Meets step init (fun _ s e => s.FlagKept e) es) ∧
    (Meets step init (fun _ s e => s.FlagKept e) es →
      ∀ pre s c, pre <+: es → run step init pre = some s → s.Quiet → ¬ s.shared.Listening →
        ∃ s', run step s (launch c) = some s' ∧ s'.shared.Listening) := by
  have hiff : Always step init (fun _ s => s.Quiet → s.shared.Agrees) es ↔
      Meets step init (fun _ s e => s.FlagKept e) es := by
    refine always_iff_meets (fun _ _ => True) trivial ?_ (fun _ _ _ _ _ _ _ _ => trivial) ?_
      hrun
    · intro _
      simp [Shared.Agrees, Shared.Listening, init, Shared.init, Phase.alive]
    · intro pre s e s' _ hlaw hstep
      cases e with
      | listener i event => exact flagKept_listener hlaw hstep
      | call c event => exact flagKept_call hlaw hstep
  refine ⟨hiff, fun hmeets pre s c hpre hpreRun hquiet hdead => ?_⟩
  have hagrees := hiff.mpr hmeets pre s hpre hpreRun hquiet
  have hrunning : s.shared.running = false := by
    rw [← Bool.not_eq_true]
    exact fun h => hdead (hagrees.mp h)
  exact listening_of_launch (hquiet c) hrunning (fresh_run hpreRun)

/-- One caller's `start`, and a `bind` that raises `OSError` in the new thread. -/
def bindFailure : List (Event Unit) :=
  launch () ++ [.call () .setRunning, .listener 0 .createSocket, .listener 0 .bindFails]

theorem not_listening_bindFailure : ∃ s : System Unit, run step init bindFailure = some s ∧
    s.Quiet ∧ s.shared.running = true ∧ ¬ s.shared.Listening := by
  refine ⟨_, rfl, fun _ => rfl, rfl, ?_⟩
  rintro ⟨i, hi⟩
  by_cases h0 : i = 0
  · subst h0
    cases hi
  · simp [h0, Shared.init, init, Phase.alive] at hi

/-- The flag stays set without a listener, and another `start` changes nothing. -/
theorem bindFailure_stays_running : ∃ s : System Unit, run step init bindFailure = some s ∧
    s.Quiet ∧ s.shared.running = true ∧ ¬ s.shared.Listening ∧
    s.step (.call () .start) = some s := by
  obtain ⟨s, hrun, hquiet, hrunning, hdead⟩ := not_listening_bindFailure
  refine ⟨s, hrun, hquiet, hrunning, hdead, ?_⟩
  have hcalls : Function.update s.calls () .idle = s.calls := by
    rw [← hquiet (), Function.update_eq_self]
  simp [step, Shared.call, hquiet (), hrunning, hcalls]

theorem running_agrees_iff_bindFailure :
    ¬ Meets step init (fun _ s e => s.FlagKept e) bindFailure ∧
      ∃ s' : System Unit, run step init (launch ()) = some s' ∧ s'.shared.Listening := by
  constructor
  · obtain ⟨s, hrun, hquiet, hrunning, hdead⟩ := not_listening_bindFailure
    intro hmeets
    have halways := (running_agrees_iff hrun).1.mpr hmeets
    exact hdead ((halways.last hrun hquiet).mp hrunning)
  · have hnone : ¬ (init (κ := Unit)).shared.Listening := by
      rintro ⟨i, hi⟩
      cases hi
    exact (running_agrees_iff rfl).2 meets_nil [] init () (List.prefix_refl []) rfl (fun _ => rfl)
      hnone

end System

/-! ### One listener -/

theorem Phase.alive_of_holdsSocket {p : Phase} (h : p.holdsSocket = true) : p.alive = true := by
  cases p <;> first | rfl | cases h

namespace Shared

/-- At most one thread executes `_listen_loop`, and `_sock` is its own socket. -/
def Exclusive (s : Shared) : Prop :=
  (∀ i j, (s.phase i).alive = true → (s.phase j).alive = true → i = j) ∧
    ∀ i, (s.phase i).holdsSocket = true → s.sock = some i

/-- No thread that a `join` gave up on is still alive. -/
def AbandonedEnded (s : Shared) : Prop := ∀ i ∈ s.abandoned, (s.phase i).alive = false

end Shared

/-- The caller is between a finished `stop` and the next launch. -/
def Call.settled (running : Bool) : Call → Bool
  | .idle => !running
  | .starting | .cleared | .created | .joined => true
  | _ => false

/-- What a single caller knows: a live thread is the handle's or was abandoned,
and once a `stop` is through only abandoned ones are left. -/
structure Owned (call : Call) (s : Shared) : Prop where
  handle : ∀ i, (s.phase i).alive = true → i ∈ s.abandoned ∨ s.thread = some i
  settled : call.settled s.running = true → ∀ i, (s.phase i).alive = true → i ∈ s.abandoned
  waiting : ∀ t, call = .waiting t → s.thread = some t
  created : call = .created → ∀ t, s.thread = some t → s.phase t = .unstarted

theorem owned_init : Owned .idle .init where
  handle i hi := by cases hi
  settled _ i hi := by cases hi
  waiting t ht := by cases ht
  created h := by cases h

/-- Steps of threads create no live thread. -/
theorem Owned.listener {call : Call} {s : Shared} (h : Owned call s) {i : ℕ}
    {event : ListenerEvent} {phase : Phase} {sock : Option ℕ}
    (hphase : advance s.stopEvent event (s.phase i) = some phase) :
    Owned call { s with phase := Function.update s.phase i phase, sock := sock } := by
  have hshrink (j : ℕ) (hj : (Function.update s.phase i phase j).alive = true) :
      (s.phase j).alive = true := by
    by_cases hne : j = i
    · subst hne
      exact (advance_spec hphase).1
    · rwa [Function.update_of_ne hne] at hj
  refine ⟨fun j hj => h.handle j (hshrink j hj), fun hc j hj => h.settled hc j (hshrink j hj),
    h.waiting, fun hc t ht => ?_⟩
  have hunstarted := h.created hc t ht
  have hne : t ≠ i := by
    rintro rfl
    have halive := (advance_spec hphase).1
    rw [hunstarted] at halive
    cases halive
  exact (Function.update_of_ne hne ..).trans hunstarted

theorem Owned.call {call call' : Call} {s s' : Shared} {event : CallEvent} (h : Owned call s)
    (hfresh : System.Fresh s) (hcall : CallStep s event call call' s') : Owned call' s' := by
  obtain ⟨hhandle, hsettled, hwaiting, hcreated⟩ := h
  -- a handle that is not alive owns no live thread
  have hdead (t : ℕ) (ht : s.thread = some t) (hend : (s.phase t).alive = false) (i : ℕ)
      (hi : (s.phase i).alive = true) : i ∈ s.abandoned := by
    rcases hhandle i hi with hmem | hthread
    · exact hmem
    · obtain rfl : t = i := Option.some.inj (ht.symm.trans hthread)
      rw [hend] at hi
      cases hi
  cases hcall with
  | start_running hrunning => exact ⟨hhandle, hsettled, hwaiting, hcreated⟩
  | start hrunning =>
    exact ⟨hhandle, fun _ => hsettled (by simp [Call.settled, hrunning]), by simp, by simp⟩
  | clearEvent => exact ⟨hhandle, fun _ => hsettled rfl, by simp, by simp⟩
  | createThread =>
    refine ⟨fun i hi => .inl (hsettled rfl i hi), fun _ => hsettled rfl, by simp, ?_⟩
    rintro _ t ⟨⟩
    exact hfresh.1 _ le_rfl
  | @startThread t ht hphase =>
    refine ⟨fun i hi => ?_, by simp [Call.settled], by simp, by simp⟩
    by_cases hne : i = t
    · exact .inr (hne ▸ ht)
    · exact .inl (hsettled rfl i (by simpa [hne] using hi))
  | startThread_raises ht hphase => exact absurd (hcreated rfl _ ht) hphase
  | setRunning => exact ⟨hhandle, by simp [Call.settled], by simp, by simp⟩
  | stop => exact ⟨hhandle, by simp [Call.settled], by simp, by simp⟩
  | closeSocket => exact ⟨hhandle, by simp [Call.settled], by simp, by simp⟩
  | checkAlive halive => exact ⟨hhandle, by simp [Call.settled], by simp, by simp⟩
  | checkAlive_dead halive =>
    refine ⟨hhandle, fun _ i hi => ?_, by simp, by simp⟩
    rcases hhandle i hi with hmem | hthread
    · exact hmem
    · simp [Shared.handleAlive, hthread, hi] at halive
  | join ht hphase =>
    refine ⟨hhandle, by simp [Call.settled], ?_, by simp⟩
    rintro _ ⟨⟩
    exact ht
  | join_raises ht hphase =>
    exact ⟨hhandle, fun _ => hdead _ ht (by rw [hphase]; rfl), by simp, by simp⟩
  | joinReturns hend =>
    exact ⟨hhandle, fun _ => hdead _ (hwaiting _ rfl) hend, by simp, by simp⟩
  | @joinTimesOut t halive =>
    have hleft (i : ℕ) (hi : (s.phase i).alive = true) : i ∈ t :: s.abandoned := by
      rcases hhandle i hi with hmem | hthread
      · exact List.mem_cons_of_mem _ hmem
      · obtain rfl : t = i := Option.some.inj ((hwaiting t rfl).symm.trans hthread)
        exact List.mem_cons_self
    exact ⟨fun i hi => .inl (hleft i hi), fun _ => hleft, by simp, by simp⟩
  | clearRunning => exact ⟨hhandle, fun _ => hsettled rfl, by simp, by simp⟩

namespace System
variable {s s' : System Unit}

/-- `start` launches a thread while no thread that a `join` gave up on is alive. -/
def LaunchesAlone (s : System Unit) : Event Unit → Prop
  | .call _ .startThread => s.shared.AbandonedEnded
  | _ => True

theorem exclusive_listener {i : ℕ} {event : ListenerEvent} (hlaw : s.shared.Exclusive)
    (hstep : s.step (.listener i event) = some s') : s'.shared.Exclusive := by
  obtain ⟨phase, hphase, rfl⟩ := step_listener hstep
  obtain ⟨halive, _, hsocket⟩ := advance_spec hphase
  obtain ⟨hone, hsock⟩ := hlaw
  have hother (j : ℕ) (hne : j ≠ i) :
      Function.update s.shared.phase i phase j = s.shared.phase j := Function.update_of_ne hne ..
  -- `i` is alive, so it is the one thread that is
  have honly (j : ℕ) (hj : (Function.update s.shared.phase i phase j).alive = true) : j = i := by
    by_contra hne
    rw [hother j hne] at hj
    exact hne (hone j i hj halive)
  refine ⟨fun j k hj hk => (honly j hj).trans (honly k hk).symm, fun j hj => ?_⟩
  obtain rfl := honly j (Phase.alive_of_holdsSocket hj)
  by_cases hcreate : event = .createSocket
  · simp [hcreate]
  · have hj' : phase.holdsSocket = true := by simpa using hj
    rcases hsocket hj' with hold | hevent
    · simpa [hcreate] using hsock _ hold
    · exact absurd hevent hcreate

theorem exclusive_call {event : CallEvent} (howned : Owned (s.calls ()) s.shared)
    (hlaw : s.shared.Exclusive) (hstep : s.step (.call () event) = some s') :
    s'.shared.Exclusive ↔ s.LaunchesAlone (.call () event) := by
  obtain ⟨call, shared, hcall, rfl⟩ := step_call hstep
  generalize hbefore : s.calls () = before at hcall howned
  cases hcall with
  | @startThread t ht hphase =>
    constructor
    · rintro ⟨hone, _⟩ i hi
      by_contra halive
      rw [Bool.not_eq_false] at halive
      have hne : i ≠ t := by
        rintro rfl
        rw [hphase] at halive
        cases halive
      exact hne (hone i t (by simpa [hne] using halive) (by simp [Phase.alive]))
    · intro hended
      have honly (j : ℕ)
          (hj : (Function.update s.shared.phase t .creating j).alive = true) : j = t := by
        by_contra hne
        have halive : (s.shared.phase j).alive = true := by simpa [hne] using hj
        rw [hended j (howned.settled rfl j halive)] at halive
        cases halive
      refine ⟨fun j k hj hk => (honly j hj).trans (honly k hk).symm, fun j hj => ?_⟩
      obtain rfl := honly j (Phase.alive_of_holdsSocket hj)
      simp [Phase.holdsSocket] at hj
  | startThread_raises ht hphase => exact absurd (howned.created rfl _ ht) hphase
  | _ => exact iff_of_true hlaw trivial

/-- With calls one after the other, at most one thread executes `_listen_loop`
throughout a run exactly if no `start` launches a thread while one that an
earlier `stop` gave up on is still alive. -/
theorem one_listener_iff {es : List (Event Unit)} (hrun : run step init es = some s) :
    Always step init (fun _ s => s.shared.Exclusive) es ↔
      Meets step init (fun _ s e => s.LaunchesAlone e) es := by
  refine always_iff_meets (fun _ s => Owned (s.calls ()) s.shared ∧ Fresh s.shared)
    ⟨owned_init, fun _ _ => rfl, by rintro t ⟨⟩⟩ ⟨by rintro i j ⟨⟩, by rintro i ⟨⟩⟩ ?_ ?_ hrun
  · rintro pre s e s' ⟨howned, hfresh⟩ _ _ hstep
    refine ⟨?_, fresh_step hfresh hstep⟩
    cases e with
    | listener i event =>
      obtain ⟨phase, hphase, rfl⟩ := step_listener hstep
      exact howned.listener hphase
    | call c event =>
      obtain ⟨call, shared, hcall, rfl⟩ := step_call hstep
      have hnext := howned.call hfresh hcall
      simpa using hnext
  · rintro pre s e s' ⟨howned, _⟩ hlaw hstep
    cases e with
    | listener i event => exact iff_of_true (exclusive_listener hlaw hstep) trivial
    | call c event => exact exclusive_call howned hlaw hstep

/-- A whole `stop` whose `join` gives up on thread `0`. -/
def stopTimesOut : List (Event Unit) :=
  [.call () .stop, .call () .closeSocket, .call () .checkAlive, .call () .join,
    .call () .joinTimesOut, .call () .clearRunning]

/-- A callback of thread `0` outlives the `join` of `stop`; the next `start`
clears the event, and the thread goes on beside the new one. -/
def slowCallback : List (Event Unit) :=
  launch () ++ [.call () .setRunning, .listener 0 .createSocket, .listener 0 .bind,
    .listener 0 .checkStop, .listener 0 .datagram] ++ stopTimesOut ++ launch () ++
    [.listener 0 .handled, .listener 0 .checkStop, .listener 1 .createSocket, .listener 1 .bind,
      .listener 1 .checkStop]

theorem slowCallback_two_listeners : ∃ s : System Unit, run step init slowCallback = some s ∧
    s.shared.phase 0 = .receiving ∧ s.shared.phase 1 = .receiving ∧ s.shared.sock = some 1 ∧
    ¬ s.shared.Exclusive := by
  refine ⟨_, rfl, rfl, rfl, rfl, ?_⟩
  rintro ⟨hone, _⟩
  cases hone 0 1 rfl rfl

/-- A `join` that gives up. -/
def timesOut : Event Unit → Bool
  | .call _ .joinTimesOut => true
  | _ => false

theorem abandoned_run {es : List (Event Unit)} (hrun : run step init es = some s)
    (hjoins : ∀ e ∈ es, timesOut e = false) : s.shared.abandoned = [] := by
  revert hjoins
  apply run_invariant (fun es (s : System Unit) =>
    (∀ e ∈ es, timesOut e = false) → s.shared.abandoned = []) _ _ hrun
  · exact fun _ => rfl
  · intro pre s e s' hlaw hstep hjoins
    have hbefore := hlaw fun e he => hjoins e (List.mem_append_left _ he)
    cases e with
    | listener i event =>
      obtain ⟨phase, _, rfl⟩ := step_listener hstep
      exact hbefore
    | call c event =>
      obtain ⟨call, shared, hcall, rfl⟩ := step_call hstep
      generalize s.calls c = before at hcall
      cases hcall with
      | joinTimesOut halive => cases hjoins (.call c .joinTimesOut) (by simp)
      | _ => exact hbefore

/-- Nothing is left behind while every `join` of a `stop` succeeds. -/
theorem launchesAlone_of_joins {es : List (Event Unit)} (hjoins : ∀ e ∈ es, timesOut e = false) :
    Meets step init (fun _ (s : System Unit) e => s.LaunchesAlone e) es := by
  intro pre s e hpre hrun
  have habandoned := abandoned_run hrun fun e he =>
    hjoins e (hpre.subset (List.mem_append_left _ he))
  have hended : s.shared.AbandonedEnded := by
    intro i hi
    rw [habandoned] at hi
    cases hi
  cases e with
  | listener i event => trivial
  | call c event => cases event <;> first | exact hended | trivial

/-- A `stop` whose `join` waits for thread `0` to come out of its callback and
see the event. -/
def stopJoins : List (Event Unit) :=
  [.call () .stop, .call () .closeSocket, .call () .checkAlive, .call () .join,
    .listener 0 .handled, .listener 0 .checkStop, .listener 0 .close, .call () .joinReturns,
    .call () .clearRunning]

/-- Thread `i` is launched and gets to its first `recvfrom`. -/
def listens (i : ℕ) : List (Event Unit) :=
  launch () ++ ([.call () .setRunning, .listener i .createSocket, .listener i .bind,
    .listener i .checkStop] : List (Event Unit))

/-- Thread `0` has taken a datagram when it is stopped, and thread `1` follows it. -/
def restart : List (Event Unit) :=
  listens 0 ++ .listener 0 .datagram :: stopJoins ++ listens 1

theorem one_listener_iff_restart : ∃ s : System Unit, run step init restart = some s ∧
    s.shared.phase 0 = .ended ∧ s.shared.phase 1 = .receiving ∧ s.shared.sock = some 1 ∧
    Always step init (fun _ s => s.shared.Exclusive) restart := by
  have hends : (run step init restart).map
      (fun s : System Unit => (s.shared.phase 0, s.shared.phase 1, s.shared.sock)) =
        some (.ended, .receiving, some 1) := by decide
  obtain ⟨s, hs, hviews⟩ := Option.map_eq_some_iff.mp hends
  obtain ⟨hfirst, hrest⟩ := Prod.mk.inj hviews
  obtain ⟨hsecond, hsock⟩ := Prod.mk.inj hrest
  exact ⟨s, hs, hfirst, hsecond, hsock,
    (one_listener_iff hs).mpr (launchesAlone_of_joins (by decide))⟩

end System
end CfsBridge.Lifecycle
