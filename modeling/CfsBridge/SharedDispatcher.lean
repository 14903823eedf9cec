import CfsBridge.Dispatcher
import CfsBridge.Tickets

/-!
# One dispatcher, several sessions

`send` of a dispatcher that several sessions share: numbering, transmitting and
recording are separate steps, and each session has its own position between
them. Run back to back they are the dispatcher's `send`; interleaved, they move
the numbers of one message ID as tickets through the socket and the history.
-/
namespace CfsBridge.SharedDispatcher
open Bytes Python CcsdsUtils Dispatcher Transitions

structure Command where
  mid : ℤ
  funcCode : ℤ
  payload : Bytes
  deriving DecidableEq

/-- Where a session stands in `send`, with what its frame holds. -/
inductive Stage
  | idle
  | numbered (command : Command) (seq : ℤ)
  | transmitted (command : Command) (seq : ℤ) (bytesSent : ℕ)
  deriving DecidableEq

structure System (σ : Type) where
  dispatcher : CommandDispatcher
  stage : σ → Stage

inductive Event (σ : Type)
  | number (session : σ) (command : Command)
  | transmit (session : σ) (bytesSent : ℕ)
  | record (session : σ)

namespace System
variable {σ : Type}

def init (dispatcher : CommandDispatcher) : System σ where
  dispatcher := dispatcher
  stage := fun _ => .idle

/-- One step of a session's `send`. Packing only reads the session's own frame,
so it is part of the step that transmits. -/
def step [DecidableEq σ] (s : System σ) : Event σ → Option (System σ)
  | .number c command =>
    match s.stage c with
    | .idle =>
      let (seq, dispatcher) := s.dispatcher.nextSeq command.mid
      some {
        dispatcher := dispatcher
        stage := Function.update s.stage c (.numbered command seq) }
    | _ => none
  | .transmit c bytesSent =>
    match s.stage c with
    | .numbered command seq =>
      match packCmdPacket command.mid command.funcCode command.payload seq with
      | .ok packet => some {
          dispatcher := { s.dispatcher with transmitted := s.dispatcher.transmitted ++ [packet] }
          stage := Function.update s.stage c (.transmitted command seq bytesSent) }
      | .error _ => none
    | _ => none
  | .record c =>
    match s.stage c with
    | .transmitted command seq bytesSent => some {
        dispatcher := { s.dispatcher with history := s.dispatcher.history ++
          [recordOf command.mid command.funcCode command.payload seq bytesSent] }
        stage := Function.update s.stage c .idle }
    | _ => none

/-- What one step can do. -/
inductive Step [DecidableEq σ] (s : System σ) : Event σ → System σ → Prop
  | number {c : σ} {command : Command} : s.stage c = .idle → Step s (.number c command) {
      dispatcher := { s.dispatcher with
        seqCounts := Function.update s.dispatcher.seqCounts command.mid
          (some (((s.dispatcher.seqCounts command.mid).getD 0 + 1) % 16384)) }
      stage := Function.update s.stage c
        (.numbered command ((s.dispatcher.seqCounts command.mid).getD 0)) }
  | transmit {c : σ} {command : Command} {seq : ℤ} {n : ℕ} : s.stage c = .numbered command seq →
      CmdFits command.mid command.payload → Step s (.transmit c n) {
        dispatcher := { s.dispatcher with transmitted := s.dispatcher.transmitted ++
          [cmdBytes command.mid (command.funcCode % 128).toNat command.payload seq] }
        stage := Function.update s.stage c (.transmitted command seq n) }
  | record {c : σ} {command : Command} {seq : ℤ} {n : ℕ} :
      s.stage c = .transmitted command seq n → Step s (.record c) {
        dispatcher := { s.dispatcher with history := s.dispatcher.history ++
          [recordOf command.mid command.funcCode command.payload seq n] }
        stage := Function.update s.stage c .idle }

theorem step_cases [DecidableEq σ] {s s' : System σ} {e : Event σ} (h : s.step e = some s') :
    Step s e s' := by
  cases e with
  | number c command =>
    cases hc : s.stage c with
    | idle =>
      simp only [step, hc, CommandDispatcher.nextSeq, land_0x3FFF] at h
      cases h
      exact .number hc
    | _ => simp [step, hc] at h
  | transmit c n =>
    cases hc : s.stage c with
    | numbered command seq =>
      simp only [step, hc] at h
      by_cases hfits : CmdFits command.mid command.payload
      · rw [packCmdPacket_ok hfits] at h
        cases h
        exact .transmit hc hfits
      · rw [packCmdPacket_error hfits] at h
        cases h
    | _ => simp [step, hc] at h
  | record c =>
    cases hc : s.stage c with
    | transmitted command seq n =>
      simp only [step, hc] at h
      cases h
      exact .record hc
    | _ => simp [step, hc] at h

/-- The three steps of one session back to back are one `send`. -/
theorem run_send [DecidableEq σ] (s : System σ) {c : σ} (hc : s.stage c = .idle) {command : Command}
    (hfits : CmdFits command.mid command.payload) (n : ℕ) :
    run step s [.number c command, .transmit c n, .record c] = some { s with
      dispatcher := (s.dispatcher.send command.mid command.funcCode command.payload (.ok n)).2 } := by
  simp [run, step, hc, CommandDispatcher.nextSeq, packCmdPacket_ok hfits,
    CommandDispatcher.send_ok hfits, land_0x3FFF]

/-! ### One message ID -/

/-- The sequence count that a packet decodes to. -/
def packetSeq (packet : Bytes) : Option ℤ :=
  (unpackCmdPacket packet).toOption.map fun info => info.seqCount

/-- The sequence counts on the wire, in the order the packets left. -/
def wire (s : System σ) : List ℤ := s.dispatcher.transmitted.filterMap packetSeq

/-- The sequence counts in the history. -/
def logged (s : System σ) : List ℤ := s.dispatcher.history.map CommandRecord.seq

/-- Packets left in increasing order, and records appear in the order they left. -/
def InOrder (s : System σ) : Prop := s.wire.Pairwise (· < ·) ∧ s.logged.Sublist s.wire

/-- No other session waits at the place of this step with a smaller number. -/
def InTurn (s : System σ) : Event σ → Prop
  | .number _ _ => True
  | .transmit c _ => ∀ command seq c' command' seq', s.stage c = .numbered command seq →
      s.stage c' = .numbered command' seq' → seq ≤ seq'
  | .record c => ∀ command seq n c' command' seq' n', s.stage c = .transmitted command seq n →
      s.stage c' = .transmitted command' seq' n' → seq ≤ seq'

end System

/-- A send that the packet format has room for, on the given message ID. -/
def Event.OnMid {σ : Type} (mid : ℤ) : Event σ → Prop
  | .number _ command => command.mid = mid ∧ CmdFits command.mid command.payload
  | _ => True

instance {σ : Type} (mid : ℤ) : DecidablePred (Event.OnMid (σ := σ) mid)
  | .number _ _ => inferInstanceAs (Decidable (_ ∧ _))
  | .transmit _ _ => inferInstanceAs (Decidable True)
  | .record _ => inferInstanceAs (Decidable True)

def Event.isNumber {σ : Type} : Event σ → Bool
  | .number _ _ => true
  | _ => false

/-- The step of a ticket that a step of a send is. -/
def Event.ticket {σ : Type} : Event σ → Tickets.Event σ
  | .number c _ => .take c
  | .transmit c _ => .pass c
  | .record c => .log c

/-- A session's number as its ticket. -/
def StageMatches (mid : ℤ) : Stage → Tickets.Stage → Prop
  | .idle, .idle => True
  | .numbered command seq, .holding n =>
    seq = n ∧ n < 2 ^ 14 ∧ command.mid = mid ∧ CmdFits command.mid command.payload
  | .transmitted _ seq _, .passed n => seq = n
  | _, _ => False

namespace StageMatches
variable {mid : ℤ} {command : Command} {seq : ℤ} {n : ℕ} {p : Stage} {q : Tickets.Stage}

theorem of_idle (h : StageMatches mid .idle q) : q = .idle := by
  cases q with
  | idle => rfl
  | _ => cases h

theorem of_numbered (h : StageMatches mid (.numbered command seq) q) :
    ∃ k : ℕ, q = .holding k ∧ seq = k ∧ k < 2 ^ 14 := by
  cases q with
  | holding k => exact ⟨k, rfl, h.1, h.2.1⟩
  | _ => cases h

theorem of_transmitted (h : StageMatches mid (.transmitted command seq n) q) :
    ∃ k : ℕ, q = .passed k ∧ seq = k := by
  cases q with
  | passed k => exact ⟨k, rfl, h⟩
  | _ => cases h

theorem of_holding (h : StageMatches mid p (.holding n)) : ∃ command, p = .numbered command n := by
  cases p with
  | numbered command seq => exact ⟨command, by rw [h.1]⟩
  | _ => cases h

theorem of_passed (h : StageMatches mid p (.passed n)) :
    ∃ command k, p = .transmitted command n k := by
  cases p with
  | transmitted command seq k =>
    obtain rfl : seq = n := h
    exact ⟨command, k, rfl⟩
  | _ => cases h

end StageMatches

theorem packetSeq_cmdBytes {mid : ℤ} {payload : Bytes} (h : CmdFits mid payload) (funcCode : ℤ)
    {n : ℕ} (hn : n < 2 ^ 14) :
    System.packetSeq (cmdBytes mid (funcCode % 128).toNat payload n) = some (n : ℤ) := by
  have hcode : (funcCode % 128).toNat < 128 := by omega
  rw [System.packetSeq, unpackCmdPacket_cmdBytes h hcode]
  change some ((49152 + (n : ℤ) % 16384) % 16384) = some (n : ℤ)
  congr 1
  omega

/-- The dispatcher's sends on one message ID, seen as tickets. -/
structure Simulates {σ : Type} (mid : ℤ) (s : System σ) (t : Tickets.State σ) : Prop where
  counter : (s.dispatcher.seqCounts mid).getD 0 = (t.next : ℤ) % 16384
  wire : s.wire = t.left.map fun n : ℕ => (n : ℤ)
  logged : s.logged = t.logged.map fun n : ℕ => (n : ℤ)
  stage : ∀ c, StageMatches mid (s.stage c) (t.stage c)

section Simulates
variable {σ : Type} {mid : ℤ} {s s' : System σ} {t : Tickets.State σ} {e : Event σ}

theorem simulates_init (mid : ℤ) : Simulates mid (.init .init : System σ) .init where
  counter := rfl
  wire := rfl
  logged := rfl
  stage _ := trivial

theorem stageMatches_update [DecidableEq σ] (h : ∀ c, StageMatches mid (s.stage c) (t.stage c))
    (c : σ) {p : Stage} {q : Tickets.Stage} (hpq : StageMatches mid p q) (a : σ) :
    StageMatches mid (Function.update s.stage c p a) (Function.update t.stage c q a) := by
  by_cases hac : a = c
  · subst hac
    simpa using hpq
  · simpa [hac] using h a

/-- Each step of a send is the step of its ticket, while tickets fit in 14 bits. -/
theorem Simulates.step [DecidableEq σ] (h : Simulates mid s t) (hmid : e.OnMid mid)
    (hnext : e.isNumber = true → t.next < 2 ^ 14) (hstep : s.step e = some s') :
    ∃ t', t.step e.ticket = some t' ∧ Simulates mid s' t' := by
  obtain ⟨hcounter, hwire, hlogged, hstage⟩ := h
  cases System.step_cases hstep with
  | @number c command hc =>
    obtain ⟨rfl, hfits⟩ := hmid
    have hlt := hnext rfl
    have hidle := StageMatches.of_idle (hc ▸ hstage c)
    have hseq : (s.dispatcher.seqCounts command.mid).getD 0 = (t.next : ℤ) := by omega
    refine ⟨_, Tickets.State.step_take hidle, ?_, hwire, hlogged,
      stageMatches_update hstage c ⟨hseq, hlt, rfl, hfits⟩⟩
    simp [hseq]
  | @transmit c command seq n hc hfits =>
    obtain ⟨k, hk, rfl, hlt⟩ := StageMatches.of_numbered (hc ▸ hstage c)
    refine ⟨_, Tickets.State.step_pass hk, hcounter, ?_, hlogged,
      stageMatches_update hstage c rfl⟩
    rw [System.wire] at hwire ⊢
    simp [hwire, packetSeq_cmdBytes hfits command.funcCode hlt]
  | @record c command seq n hc =>
    obtain ⟨k, hk, rfl⟩ := StageMatches.of_transmitted (hc ▸ hstage c)
    refine ⟨_, Tickets.State.step_log hk, hcounter, hwire, ?_,
      stageMatches_update hstage c trivial⟩
    rw [System.logged] at hlogged ⊢
    simp [hlogged, recordOf]

theorem Simulates.inOrder_iff (h : Simulates mid s t) : s.InOrder ↔ t.InOrder := by
  rw [System.InOrder, Tickets.State.InOrder, h.wire, h.logged, List.pairwise_map]
  simp only [Int.ofNat_lt]
  refine and_congr_right fun _ => ⟨fun hsub => ?_, fun hsub => hsub.map _⟩
  have hback := hsub.map Int.toNat
  simpa [List.map_map, Function.comp_def] using hback

theorem Simulates.inTurn_iff (h : Simulates mid s t) : s.InTurn e ↔ t.InTurn e.ticket := by
  cases e with
  | number c command => exact Iff.rfl
  | transmit c n =>
    constructor
    · intro hturn k c' m hk hm
      obtain ⟨command, hc⟩ := StageMatches.of_holding (hk ▸ h.stage c)
      obtain ⟨command', hc'⟩ := StageMatches.of_holding (hm ▸ h.stage c')
      exact Int.ofNat_le.mp (hturn _ _ _ _ _ hc hc')
    · intro hturn command seq c' command' seq' hc hc'
      obtain ⟨k, hk, rfl, _⟩ := StageMatches.of_numbered (hc ▸ h.stage c)
      obtain ⟨m, hm, rfl, _⟩ := StageMatches.of_numbered (hc' ▸ h.stage c')
      exact Int.ofNat_le.mpr (hturn k c' m hk hm)
  | record c =>
    constructor
    · intro hturn k c' m hk hm
      obtain ⟨command, n, hc⟩ := StageMatches.of_passed (hk ▸ h.stage c)
      obtain ⟨command', n', hc'⟩ := StageMatches.of_passed (hm ▸ h.stage c')
      exact Int.ofNat_le.mp (hturn _ _ _ _ _ _ _ hc hc')
    · intro hturn command seq n c' command' seq' n' hc hc'
      obtain ⟨k, hk, rfl⟩ := StageMatches.of_transmitted (hc ▸ h.stage c)
      obtain ⟨m, hm, rfl⟩ := StageMatches.of_transmitted (hc' ▸ h.stage c')
      exact Int.ofNat_le.mpr (hturn k c' m hk hm)

end Simulates

/-! ### Whole runs -/

section Runs
variable {σ : Type} [DecidableEq σ] {mid : ℤ} {es : List (Event σ)} {s : System σ}

/-- Fewer than 2 ^ 14 sends on one message ID are a run of tickets. -/
theorem simulated (hmid : ∀ e ∈ es, e.OnMid mid) (hcount : es.countP Event.isNumber < 2 ^ 14) :
    Simulated System.step (.init .init) Tickets.State.step .init Event.ticket (Simulates mid) es := by
  refine simulated_of_step (simulates_init mid) ?_
  intro pre s t e s' hpre ht hrel hstep
  have hmem : e ∈ es := hpre.subset (by simp)
  refine hrel.step (hmid e hmem) (fun hnumber => ?_) hstep
  have htaken : t.next = pre.countP Event.isNumber := by
    rw [Tickets.State.next_run ht, List.countP_map]
    refine List.countP_congr fun e _ => ?_
    cases e <;> simp [Event.ticket, Event.isNumber]
  have hle : (pre ++ [e]).countP Event.isNumber ≤ es.countP Event.isNumber :=
    hpre.sublist.countP_le
  rw [List.countP_append, List.countP_singleton, if_pos hnumber] at hle
  omega

/-- With fewer than 2 ^ 14 sends on one message ID, none failing, packets leave
in increasing order and records follow that order in every state if no session
transmits, or records, before one that waits there with a smaller number. In a
run that ends with no send in progress that condition is also necessary. -/
theorem sends_in_order (hmid : ∀ e ∈ es, e.OnMid mid) (hcount : es.countP Event.isNumber < 2 ^ 14)
    (hrun : run System.step (.init .init) es = some s) :
    (Meets System.step (.init .init) (fun _ s e => s.InTurn e) es →
      Always System.step (.init .init) (fun _ s => s.InOrder) es) ∧
    ((∀ c, s.stage c = .idle) → s.InOrder →
      Meets System.step (.init .init) (fun _ s e => s.InTurn e) es) := by
  have hsim := simulated hmid hcount
  constructor
  · intro hmeets
    have htickets : Meets Tickets.State.step .init (fun _ t e => t.InTurn e)
        (es.map Event.ticket) :=
      hsim.meets_image hrun (fun _ _ _ hrel => hrel.inTurn_iff.mp) hmeets
    exact hsim.always (fun _ _ hrel => hrel.inOrder_iff.mpr) (Tickets.State.always_inOrder htickets)
  · intro hidle horder
    obtain ⟨t, ht, hrel⟩ := hsim es s (List.prefix_refl es) hrun
    have hstage (c : σ) : t.stage c = .idle := StageMatches.of_idle (hidle c ▸ hrel.stage c)
    exact hsim.meets (fun _ _ _ hrel => hrel.inTurn_iff.mpr)
      (Tickets.State.meets_of_inOrder ht hstage (hrel.inOrder_iff.mp horder))

end Runs

/-- The Open command of the Solar Array. -/
def openCommand : Command := ⟨MissionRegistry.Mid.solarArrayApp, 5, []⟩

/-- The second session takes its number last and transmits first. -/
def overtaking : List (Event Bool) :=
  [.number false openCommand, .number true openCommand, .transmit true 8, .transmit false 8,
    .record true, .record false]

theorem overtaking_out_of_order : ∃ s : System Bool,
    run System.step (.init .init) overtaking = some s ∧
      (∀ e ∈ overtaking, e.OnMid MissionRegistry.Mid.solarArrayApp) ∧ s.wire = [1, 0] ∧
      ¬ s.InOrder := by
  have hwire : (run System.step (.init .init) overtaking).map System.wire = some [1, 0] := by
    decide +kernel
  obtain ⟨s, hs, hw⟩ := Option.map_eq_some_iff.mp hwire
  refine ⟨s, hs, by decide, hw, ?_⟩
  rintro ⟨hsorted, _⟩
  rw [hw] at hsorted
  revert hsorted
  decide

/-- Two sends, one after the other. -/
def oneByOne : List (Event Bool) :=
  [.number false openCommand, .transmit false 8, .record false, .number true openCommand,
    .transmit true 8, .record true]

theorem sends_in_order_oneByOne :
    Always System.step (.init .init) (fun _ (s : System Bool) => s.InOrder) oneByOne := by
  have hviews : (run System.step (.init .init) oneByOne).map (fun s => (s.wire, s.logged)) =
      some ([0, 1], [0, 1]) := by decide +kernel
  obtain ⟨s, hs, hview⟩ := Option.map_eq_some_iff.mp hviews
  have horder : s.InOrder := by
    obtain ⟨hwire, hlogged⟩ := Prod.mk.inj hview
    rw [System.InOrder, hwire, hlogged]
    decide
  have hidle : ∀ c, s.stage c = .idle := by
    cases hs
    intro c
    cases c <;> rfl
  have hmid : ∀ e ∈ oneByOne, e.OnMid MissionRegistry.Mid.solarArrayApp := by decide
  have horders := sends_in_order hmid (by decide) hs
  exact horders.1 (horders.2 hidle horder)

end CfsBridge.SharedDispatcher
