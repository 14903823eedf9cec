import CfsBridge.CommandHistory
import CfsBridge.Operators
import CfsBridge.SharedDispatcher

/-!
# What a status update stands on

The buttons again, with every step of a press on its own and a send that may
raise at any of them. The effects of all sessions are listed in one order, and
each update of the displayed status is traced back to a packet and a record of
the same press that no other update is traced to.
-/
namespace CfsBridge.OperatorAudit
open Bytes Python CcsdsUtils Dispatcher Processor Transitions Operators
open TelemetryReceiver (Timestamp entryOf)
open SharedDispatcher (Command Stage)

/-- The command that a button sends. -/
def command (b : Button) : Command := ⟨b.op.mid, b.op.funcCode, []⟩

/-- Where a session stands in the handler of a button. -/
inductive Press
  | idle
  | sending (button : Button)
  | returned (button : Button)
  deriving DecidableEq

/-- What a session does to the world. -/
inductive Effect (σ : Type)
  | transmitted (session : σ) (packet : Bytes)
  | recorded (session : σ) (record : CommandRecord)
  | updated (session : σ) (button : Button)

/-- The shared services with the position of each session. `effects` is a ghost:
all effects so far, in order. -/
structure Desk (σ : Type) where
  shared : SharedDispatcher.System σ
  processor : TelemetryProcessor
  press : σ → Press
  effects : List (Effect σ)

inductive Event (σ : Type)
  | press (session : σ) (button : Button)
  | transmit (session : σ) (bytesSent : ℕ)
  | record (session : σ)
  | raises (session : σ)
  | update (session : σ) (now : Timestamp)
  | packet (now : Timestamp) (datagram : Datagram)

/-- The session that takes a step. -/
def Event.session {σ : Type} : Event σ → Option σ
  | .press c _ => some c
  | .transmit c _ => some c
  | .record c => some c
  | .raises c => some c
  | .update c _ => some c
  | .packet _ _ => none

namespace Desk
variable {σ : Type}

def init (dispatcher : CommandDispatcher) (processor : TelemetryProcessor) : Desk σ where
  shared := .init dispatcher
  processor := processor
  press := fun _ => .idle
  effects := []

variable [DecidableEq σ] (hms : Timestamp → String)

/-- `press` is the click and the first step of its send, and `raises` the end of
a send by an exception, which the handler catches. -/
def step (s : Desk σ) : Event σ → Option (Desk σ)
  | .press c button =>
    match s.press c with
    | .idle => (s.shared.step (.number c (command button))).map fun shared => { s with
        shared := shared
        press := Function.update s.press c (.sending button) }
    | _ => none
  | .transmit c n => (s.shared.step (.transmit c n)).map fun shared => { s with
      shared := shared
      effects := s.effects ++
        shared.dispatcher.transmitted.getLast?.toList.map (Effect.transmitted c) }
  | .record c =>
    match s.press c with
    | .sending button => (s.shared.step (.record c)).map fun shared => { s with
        shared := shared
        press := Function.update s.press c (.returned button)
        effects := s.effects ++ shared.dispatcher.history.getLast?.toList.map (Effect.recorded c) }
    | _ => none
  | .raises c =>
    match s.press c with
    | .sending _ => some { s with
        shared := { s.shared with stage := Function.update s.shared.stage c .idle }
        press := Function.update s.press c .idle }
    | _ => none
  | .update c now =>
    match s.press c with
    | .returned button => some { s with
        processor := s.processor.updateSolarArrayStatus hms button.status now
        press := Function.update s.press c .idle
        effects := s.effects ++ [.updated c button] }
    | _ => none
  | .packet now datagram => some { s with
      processor := (s.processor.process hms (entryOf now datagram)).2 }

end Desk

/-! ### What one step can do -/

/-- The packet of a command with a sequence number. -/
def packetOf (command : Command) (seq : ℤ) : Bytes :=
  cmdBytes command.mid (command.funcCode % 128).toNat command.payload seq

/-- Its record. -/
def recordFor (command : Command) (seq : ℤ) (n : ℕ) : CommandRecord :=
  recordOf command.mid command.funcCode command.payload seq n

namespace Desk
variable {σ : Type} [DecidableEq σ] {hms : Timestamp → String} {s s' : Desk σ}

inductive Step (hms : Timestamp → String) (s : Desk σ) : Event σ → Desk σ → Prop
  | press {c : σ} {b : Button} : s.press c = .idle → s.shared.stage c = .idle →
      Step hms s (.press c b) { s with
        shared := {
          dispatcher := { s.shared.dispatcher with
            seqCounts := Function.update s.shared.dispatcher.seqCounts (command b).mid
              (some (((s.shared.dispatcher.seqCounts (command b).mid).getD 0 + 1) % 16384)) }
          stage := Function.update s.shared.stage c
            (.numbered (command b) ((s.shared.dispatcher.seqCounts (command b).mid).getD 0)) }
        press := Function.update s.press c (.sending b) }
  | transmit {c : σ} {cmd : Command} {seq : ℤ} {n : ℕ} : s.shared.stage c = .numbered cmd seq →
      Step hms s (.transmit c n) { s with
        shared := {
          dispatcher := { s.shared.dispatcher with
            transmitted := s.shared.dispatcher.transmitted ++ [packetOf cmd seq] }
          stage := Function.update s.shared.stage c (.transmitted cmd seq n) }
        effects := s.effects ++ [.transmitted c (packetOf cmd seq)] }
  | record {c : σ} {b : Button} {cmd : Command} {seq : ℤ} {n : ℕ} : s.press c = .sending b →
      s.shared.stage c = .transmitted cmd seq n → Step hms s (.record c) { s with
        shared := {
          dispatcher := { s.shared.dispatcher with
            history := s.shared.dispatcher.history ++ [recordFor cmd seq n] }
          stage := Function.update s.shared.stage c .idle }
        press := Function.update s.press c (.returned b)
        effects := s.effects ++ [.recorded c (recordFor cmd seq n)] }
  | raises {c : σ} {b : Button} : s.press c = .sending b → Step hms s (.raises c) { s with
      shared := { s.shared with stage := Function.update s.shared.stage c .idle }
      press := Function.update s.press c .idle }
  | update {c : σ} {b : Button} {now : Timestamp} : s.press c = .returned b →
      Step hms s (.update c now) { s with
        processor := s.processor.updateSolarArrayStatus hms b.status now
        press := Function.update s.press c .idle
        effects := s.effects ++ [.updated c b] }
  | packet {now : Timestamp} {datagram : Datagram} : Step hms s (.packet now datagram) { s with
      processor := (s.processor.process hms (entryOf now datagram)).2 }

theorem step_cases {e : Event σ} (h : s.step hms e = some s') : Step hms s e s' := by
  cases e with
  | press c b =>
    cases hc : s.press c with
    | idle =>
      simp only [step, hc] at h
      obtain ⟨shared, hshared, rfl⟩ := Option.map_eq_some_iff.mp h
      cases SharedDispatcher.System.step_cases hshared with
      | number hstage => exact .press hc hstage
    | _ => simp [step, hc] at h
  | transmit c n =>
    obtain ⟨shared, hshared, rfl⟩ := Option.map_eq_some_iff.mp h
    cases SharedDispatcher.System.step_cases hshared with
    | transmit hstage hfits => simpa [packetOf] using Step.transmit hstage
  | record c =>
    cases hc : s.press c with
    | sending b =>
      simp only [step, hc] at h
      obtain ⟨shared, hshared, rfl⟩ := Option.map_eq_some_iff.mp h
      cases SharedDispatcher.System.step_cases hshared with
      | record hstage => simpa [recordFor] using Step.record hc hstage
    | _ => simp [step, hc] at h
  | raises c =>
    cases hc : s.press c with
    | sending b =>
      simp only [step, hc] at h
      cases h
      exact .raises hc
    | _ => simp [step, hc] at h
  | update c now =>
    cases hc : s.press c with
    | returned b =>
      simp only [step, hc] at h
      cases h
      exact .update hc
    | _ => simp [step, hc] at h
  | packet now datagram =>
    cases h
    exact .packet

end Desk

/-! ### Tracing updates back -/

section Trace
variable {σ : Type}

/-- A packet of the button with this number, transmitted by the session as effect `p`. -/
def SentAt (effects : List (Effect σ)) (c : σ) (b : Button) (seq : ℤ) (p : ℕ) : Prop :=
  effects[p]? = some (.transmitted c (packetOf (command b) seq))

/-- Its record, appended by the session as effect `q`. -/
def RecordedAt (effects : List (Effect σ)) (c : σ) (b : Button) (seq : ℤ) (q : ℕ) : Prop :=
  ∃ n, effects[q]? = some (.recorded c (recordFor (command b) seq n))

/-- No update of the session is traced to effect `p`. -/
def Unclaimed (f : ℕ → ℕ) (effects : List (Effect σ)) (c : σ) (p : ℕ) : Prop :=
  ∀ i b, effects[i]? = some (.updated c b) → f i ≠ p

/-- A sequence number of 14 bits. -/
def SeqFits (seq : ℤ) : Prop := 0 ≤ seq ∧ seq < 2 ^ 14

/-- What a press in progress has done: its packet is effect `p` once it has
left, its record is effect `q` once the send has returned. -/
def InProgress (f g : ℕ → ℕ) (p q : ℕ) (effects : List (Effect σ)) (c : σ) :
    Press → Stage → Prop
  | .idle, .idle => True
  | .sending b, .numbered cmd seq => cmd = command b ∧ SeqFits seq
  | .sending b, .transmitted cmd seq _ =>
    cmd = command b ∧ SeqFits seq ∧ SentAt effects c b seq p ∧ Unclaimed f effects c p
  | .returned b, .idle =>
    p < q ∧ (∃ seq, SeqFits seq ∧ SentAt effects c b seq p ∧ RecordedAt effects c b seq q) ∧
      Unclaimed f effects c p ∧ Unclaimed g effects c q
  | _, _ => False

/-- An update traced to its packet `f i` and its record `g i`. -/
def Traced (f g : ℕ → ℕ) (effects : List (Effect σ)) (c : σ) (b : Button) (i : ℕ) : Prop :=
  f i < g i ∧ g i < i ∧
    ∃ seq, SeqFits seq ∧ SentAt effects c b seq (f i) ∧ RecordedAt effects c b seq (g i)

variable {f g f' g' : ℕ → ℕ} {p q i : ℕ} {effects : List (Effect σ)} {effect : Effect σ} {c : σ}
variable {b : Button} {seq : ℤ}

theorem SentAt.lt (h : SentAt effects c b seq p) : p < effects.length :=
  (List.getElem?_eq_some_iff.mp h).1

theorem RecordedAt.lt (h : RecordedAt effects c b seq q) : q < effects.length := by
  obtain ⟨n, hn⟩ := h
  exact (List.getElem?_eq_some_iff.mp hn).1

theorem getElem?_concat_of_some {x : Effect σ} (h : effects[p]? = some x) :
    (effects ++ [effect])[p]? = some x := by
  rw [List.getElem?_append_left (List.getElem?_eq_some_iff.mp h).1, h]

/-- An effect of a longer list is an old one or the new one. -/
theorem getElem?_concat_cases {x : Effect σ} (h : (effects ++ [effect])[i]? = some x) :
    (i < effects.length ∧ effects[i]? = some x) ∨ (i = effects.length ∧ effect = x) := by
  rcases lt_trichotomy i effects.length with hlt | heq | hgt
  · rw [List.getElem?_append_left hlt] at h
    exact .inl ⟨hlt, h⟩
  · subst heq
    rw [List.getElem?_concat_length, Option.some.injEq] at h
    exact .inr ⟨rfl, h⟩
  · rw [List.getElem?_eq_none (by simp; omega)] at h
    cases h

theorem SentAt.concat (h : SentAt effects c b seq p) : SentAt (effects ++ [effect]) c b seq p :=
  getElem?_concat_of_some h

theorem RecordedAt.concat (h : RecordedAt effects c b seq q) :
    RecordedAt (effects ++ [effect]) c b seq q := by
  obtain ⟨n, hn⟩ := h
  exact ⟨n, getElem?_concat_of_some hn⟩

/-- The tracing functions agree on what is listed so far. -/
def Agree (f f' : ℕ → ℕ) (effects : List (Effect σ)) : Prop := ∀ i, i < effects.length → f' i = f i

theorem Unclaimed.concat (h : Unclaimed f effects c p) (hf : Agree f f' effects)
    (hnew : ∀ b, effect ≠ .updated c b) : Unclaimed f' (effects ++ [effect]) c p := by
  intro i b hi
  rcases getElem?_concat_cases hi with ⟨hlt, hi⟩ | ⟨_, heq⟩
  · rw [hf i hlt]
    exact h i b hi
  · exact absurd heq (hnew b)

theorem Traced.concat (h : Traced f g effects c b i) (hi : i < effects.length)
    (hf : Agree f f' effects) (hg : Agree g g' effects) :
    Traced f' g' (effects ++ [effect]) c b i := by
  obtain ⟨hlt, hlt', seq, hseq, hsent, hrecorded⟩ := h
  rw [Traced, hf i hi, hg i hi]
  exact ⟨hlt, hlt', seq, hseq, hsent.concat, hrecorded.concat⟩

/-- A press keeps what it has done while others act. -/
theorem InProgress.concat {press : Press} {stage : Stage}
    (h : InProgress f g p q effects c press stage) (effect : Effect σ) (hf : Agree f f' effects)
    (hg : Agree g g' effects) (hnew : ∀ b, effect ≠ .updated c b) :
    InProgress f' g' p q (effects ++ [effect]) c press stage := by
  cases press with
  | idle => cases stage with
    | idle => trivial
    | _ => cases h
  | sending b => cases stage with
    | idle => cases h
    | numbered cmd seq => exact h
    | transmitted cmd seq n =>
      obtain ⟨hcmd, hseq, hsent, hunclaimed⟩ := h
      exact ⟨hcmd, hseq, hsent.concat, hunclaimed.concat hf hnew⟩
  | returned b => cases stage with
    | idle =>
      obtain ⟨hlt, ⟨seq, hseq, hsent, hrecorded⟩, hp, hq⟩ := h
      exact ⟨hlt, ⟨seq, hseq, hsent.concat, hrecorded.concat⟩, hp.concat hf hnew,
        hq.concat hg hnew⟩
    | _ => cases h

/-- No two updates are traced to one effect. -/
def OneToOne (f : ℕ → ℕ) (effects : List (Effect σ)) : Prop :=
  ∀ i j c b c' b', effects[i]? = some (.updated c b) → effects[j]? = some (.updated c' b') →
    f i = f j → i = j

theorem OneToOne.concat (h : OneToOne f effects) (hf : Agree f f' effects)
    (hnew : ∀ c b, effect ≠ .updated c b) : OneToOne f' (effects ++ [effect]) := by
  intro i j c b c' b' hi hj heq
  rcases getElem?_concat_cases hi with ⟨hlt, hi⟩ | ⟨_, hne⟩
  · rcases getElem?_concat_cases hj with ⟨hlt', hj⟩ | ⟨_, hne⟩
    · rw [hf i hlt, hf j hlt'] at heq
      exact h i j c b c' b' hi hj heq
    · exact absurd hne (hnew _ _)
  · exact absurd hne (hnew _ _)

/-- A new update may be traced to an effect that no other one is traced to. -/
theorem OneToOne.concat_updated (h : OneToOne f effects)
    (hp : ∀ i c' b', effects[i]? = some (.updated c' b') → f i ≠ p) :
    OneToOne (Function.update f effects.length p) (effects ++ [.updated c b]) := by
  have hold (i : ℕ) (hlt : i < effects.length) : Function.update f effects.length p i = f i :=
    Function.update_of_ne hlt.ne ..
  intro i j a k a' k' hi hj heq
  rcases getElem?_concat_cases hi with ⟨hlt, hi⟩ | ⟨rfl, _⟩
  · rw [hold i hlt] at heq
    rcases getElem?_concat_cases hj with ⟨hlt', hj⟩ | ⟨rfl, _⟩
    · rw [hold j hlt'] at heq
      exact h i j a k a' k' hi hj heq
    · rw [Function.update_self] at heq
      exact absurd heq (hp i a k hi)
  · rw [Function.update_self] at heq
    rcases getElem?_concat_cases hj with ⟨hlt', hj⟩ | ⟨rfl, _⟩
    · rw [hold j hlt'] at heq
      exact absurd heq.symm (hp j a' k' hj)
    · rfl

end Trace

/-- Every update so far is traced, and every press in progress can still be. -/
structure Audited {σ : Type} (f g : ℕ → ℕ) (claim : σ → ℕ × ℕ) (s : Desk σ) : Prop where
  counted : CommandHistory.Counted s.shared.dispatcher
  progress : ∀ c, InProgress f g (claim c).1 (claim c).2 s.effects c (s.press c) (s.shared.stage c)
  traced : ∀ i c b, s.effects[i]? = some (.updated c b) → Traced f g s.effects c b i
  packets : OneToOne f s.effects
  records : OneToOne g s.effects

section Audited
variable {σ : Type} [DecidableEq σ] {f g : ℕ → ℕ} {claim : σ → ℕ × ℕ} {s : Desk σ} {c : σ}

omit [DecidableEq σ] in
theorem agree_self (f : ℕ → ℕ) (effects : List (Effect σ)) : Agree f f effects := fun _ _ => rfl

omit [DecidableEq σ] in
/-- No update is traced to the effect that comes next. -/
theorem unclaimed_length {f : ℕ → ℕ} {effects : List (Effect σ)} {effect : Effect σ} {c : σ}
    (hbefore : ∀ i b, effects[i]? = some (.updated c b) → f i < i)
    (hnew : ∀ b, effect ≠ .updated c b) :
    Unclaimed f (effects ++ [effect]) c effects.length := by
  intro i b hi
  rcases getElem?_concat_cases hi with ⟨hlt, hi⟩ | ⟨_, heq⟩
  · exact ((hbefore i b hi).trans hlt).ne
  · exact absurd heq (hnew b)

omit [DecidableEq σ] in
/-- The traces survive any effect that is not an update. -/
theorem Audited.traced_concat (h : Audited f g claim s) {effect : Effect σ}
    (hnew : ∀ c b, effect ≠ .updated c b) (i : ℕ) (c : σ) (b : Button)
    (hi : (s.effects ++ [effect])[i]? = some (.updated c b)) :
    Traced f g (s.effects ++ [effect]) c b i := by
  rcases getElem?_concat_cases hi with ⟨hlt, hi⟩ | ⟨_, heq⟩
  · exact (h.traced i c b hi).concat hlt (agree_self f _) (agree_self g _)
  · exact absurd heq (hnew c b)

theorem Audited.press (h : Audited f g claim s) (hc : s.press c = .idle) (b : Button) :
    Audited f g claim { s with
      shared := {
        dispatcher := { s.shared.dispatcher with
          seqCounts := Function.update s.shared.dispatcher.seqCounts (command b).mid
            (some (((s.shared.dispatcher.seqCounts (command b).mid).getD 0 + 1) % 16384)) }
        stage := Function.update s.shared.stage c
          (.numbered (command b) ((s.shared.dispatcher.seqCounts (command b).mid).getD 0)) }
      press := Function.update s.press c (.sending b) } where
  counted mid := by
    by_cases hmid : mid = (command b).mid
    · subst hmid
      simp
      omega
    · simpa [hmid] using h.counted mid
  progress a := by
    by_cases hac : a = c
    · subst hac
      simpa [InProgress, SeqFits] using h.counted (command b).mid
    · simpa [hac] using h.progress a
  traced := h.traced
  packets := h.packets
  records := h.records

theorem Audited.transmit (h : Audited f g claim s) {cmd : Command} {seq : ℤ}
    (hc : s.shared.stage c = .numbered cmd seq) (n : ℕ) :
    Audited f g (Function.update claim c (s.effects.length, 0)) { s with
      shared := {
        dispatcher := { s.shared.dispatcher with
          transmitted := s.shared.dispatcher.transmitted ++ [packetOf cmd seq] }
        stage := Function.update s.shared.stage c (.transmitted cmd seq n) }
      effects := s.effects ++ [.transmitted c (packetOf cmd seq)] } where
  counted := h.counted
  progress a := by
    by_cases hac : a = c
    · subst hac
      have hprogress := h.progress a
      cases hpress : s.press a with
      | sending b =>
        rw [hpress, hc] at hprogress
        obtain ⟨rfl, hseq⟩ := hprogress
        have hsent : SentAt (s.effects ++ [.transmitted a (packetOf (command b) seq)]) a b seq
            s.effects.length := by simp [SentAt]
        have hunclaimed : Unclaimed f (s.effects ++ [.transmitted a (packetOf (command b) seq)]) a
            s.effects.length :=
          unclaimed_length (fun i k hi => (h.traced i a k hi).1.trans (h.traced i a k hi).2.1)
            (by simp)
        simpa [InProgress, hpress] using ⟨hseq, hsent, hunclaimed⟩
      | _ =>
        rw [hpress, hc] at hprogress
        cases hprogress
    · have hother := (h.progress a).concat (.transmitted c (packetOf cmd seq)) (agree_self f _)
        (agree_self g _) (by simp)
      simpa [hac] using hother
  traced := h.traced_concat (by simp)
  packets := h.packets.concat (agree_self f _) (by simp)
  records := h.records.concat (agree_self g _) (by simp)

theorem Audited.record (h : Audited f g claim s) {b : Button} {cmd : Command} {seq : ℤ} {n : ℕ}
    (hc : s.press c = .sending b) (hstage : s.shared.stage c = .transmitted cmd seq n) :
    Audited f g (Function.update claim c ((claim c).1, s.effects.length)) { s with
      shared := {
        dispatcher := { s.shared.dispatcher with
          history := s.shared.dispatcher.history ++ [recordFor cmd seq n] }
        stage := Function.update s.shared.stage c .idle }
      press := Function.update s.press c (.returned b)
      effects := s.effects ++ [.recorded c (recordFor cmd seq n)] } where
  counted := h.counted
  progress a := by
    by_cases hac : a = c
    · subst hac
      have hprogress := h.progress a
      rw [hc, hstage] at hprogress
      obtain ⟨rfl, hseq, hsent, hunclaimed⟩ := hprogress
      have hrecorded : RecordedAt (s.effects ++ [.recorded a (recordFor (command b) seq n)]) a b seq
          s.effects.length := ⟨n, by simp⟩
      have hfresh : Unclaimed g (s.effects ++ [.recorded a (recordFor (command b) seq n)]) a
          s.effects.length :=
        unclaimed_length (fun i k hi => (h.traced i a k hi).2.1) (by simp)
      have hkept : Unclaimed f (s.effects ++ [.recorded a (recordFor (command b) seq n)]) a
          (claim a).1 := hunclaimed.concat (agree_self f s.effects) (by simp)
      simpa [InProgress] using
        ⟨hsent.lt, ⟨seq, hseq, hsent.concat, hrecorded⟩, hkept, hfresh⟩
    · have hother := (h.progress a).concat (.recorded c (recordFor cmd seq n)) (agree_self f _)
        (agree_self g _) (by simp)
      simpa [hac] using hother
  traced := h.traced_concat (by simp)
  packets := h.packets.concat (agree_self f _) (by simp)
  records := h.records.concat (agree_self g _) (by simp)

theorem Audited.raises (h : Audited f g claim s) : Audited f g claim { s with
    shared := { s.shared with stage := Function.update s.shared.stage c .idle }
    press := Function.update s.press c .idle } where
  counted := h.counted
  progress a := by
    by_cases hac : a = c
    · subst hac
      simp [InProgress]
    · simpa [hac] using h.progress a
  traced := h.traced
  packets := h.packets
  records := h.records

/-- An effect that the session of a press in progress may still claim is claimed by no update. -/
theorem Unclaimed.not_claimed {effects : List (Effect σ)} {p : ℕ} (h : Unclaimed f effects c p)
    (hother : ∀ i a b, effects[i]? = some (.updated a b) → a ≠ c → f i ≠ p) (i : ℕ) (a : σ)
    (b : Button) (hi : effects[i]? = some (.updated a b)) : f i ≠ p := by
  by_cases hac : a = c
  · subst hac
    exact h i b hi
  · exact hother i a b hi hac

theorem Audited.update (h : Audited f g claim s) {b : Button} (hc : s.press c = .returned b)
    (processor : TelemetryProcessor) :
    Audited (Function.update f s.effects.length (claim c).1)
      (Function.update g s.effects.length (claim c).2) claim { s with
        processor := processor
        press := Function.update s.press c .idle
        effects := s.effects ++ [.updated c b] } := by
  have hprogress := h.progress c
  rw [hc] at hprogress
  cases hstage : s.shared.stage c with
  | idle =>
    rw [hstage] at hprogress
    obtain ⟨hpq, ⟨seq, hseq, hsent, hrecorded⟩, hp, hq⟩ := hprogress
    have hf : Agree f (Function.update f s.effects.length (claim c).1) s.effects :=
      fun i hlt => Function.update_of_ne hlt.ne ..
    have hg : Agree g (Function.update g s.effects.length (claim c).2) s.effects :=
      fun i hlt => Function.update_of_ne hlt.ne ..
    constructor
    · exact h.counted
    · intro a
      by_cases hac : a = c
      · subst hac
        simp [InProgress, hstage]
      · have hother := (h.progress a).concat (.updated c b) hf hg (by simp [Ne.symm hac])
        simpa [hac] using hother
    · intro i a k hi
      rcases getElem?_concat_cases hi with ⟨hlt, hi⟩ | ⟨rfl, heq⟩
      · exact (h.traced i a k hi).concat hlt hf hg
      · cases heq
        rw [Traced, Function.update_self, Function.update_self]
        exact ⟨hpq, hrecorded.lt, seq, hseq, hsent.concat, hrecorded.concat⟩
    · -- packets of other sessions are not this session's packet
      refine h.packets.concat_updated (hp.not_claimed ?_)
      intro i a k hi hac heq
      obtain ⟨_, _, seq', _, hsent', _⟩ := h.traced i a k hi
      rw [heq, SentAt, hsent, Option.some.injEq, Effect.transmitted.injEq] at hsent'
      exact hac hsent'.1.symm
    · refine h.records.concat_updated (hq.not_claimed ?_)
      intro i a k hi hac heq
      obtain ⟨_, _, seq', _, _, n', hrecorded'⟩ := h.traced i a k hi
      obtain ⟨n, hn⟩ := hrecorded
      rw [heq, hn, Option.some.injEq, Effect.recorded.injEq] at hrecorded'
      exact hac hrecorded'.1.symm
  | _ =>
    rw [hstage] at hprogress
    cases hprogress

theorem Audited.step {hms : Timestamp → String} {s' : Desk σ} {e : Event σ}
    (h : Audited f g claim s) (hstep : s.step hms e = some s') :
    ∃ f' g' claim', Audited f' g' claim' s' := by
  cases Desk.step_cases hstep with
  | press hc _ => exact ⟨f, g, claim, h.press hc _⟩
  | transmit hstage => exact ⟨f, g, _, h.transmit hstage _⟩
  | record hc hstage => exact ⟨f, g, _, h.record hc hstage⟩
  | raises hc => exact ⟨f, g, claim, h.raises⟩
  | update hc => exact ⟨_, _, claim, h.update hc _⟩
  | packet => exact ⟨f, g, claim, h.counted, h.progress, h.traced, h.packets, h.records⟩

end Audited

/-- The packets and the records among the effects are those of the dispatcher. -/
structure Listed {σ : Type} (start : CommandDispatcher) (s : Desk σ) : Prop where
  transmitted : s.shared.dispatcher.transmitted = start.transmitted ++
    s.effects.filterMap fun effect => match effect with
      | .transmitted _ packet => some packet
      | _ => none
  history : s.shared.dispatcher.history = start.history ++
    s.effects.filterMap fun effect => match effect with
      | .recorded _ record => some record
      | _ => none

theorem Listed.step {σ : Type} [DecidableEq σ] {hms : Timestamp → String}
    {start : CommandDispatcher} {s s' : Desk σ} {e : Event σ} (h : Listed start s)
    (hstep : s.step hms e = some s') : Listed start s' := by
  obtain ⟨htransmitted, hhistory⟩ := h
  cases Desk.step_cases hstep with
  | press hc hstage => exact ⟨htransmitted, hhistory⟩
  | transmit hstage => exact ⟨by simp [htransmitted], by simp [hhistory]⟩
  | record hc hstage => exact ⟨by simp [htransmitted], by simp [hhistory]⟩
  | raises hc => exact ⟨htransmitted, hhistory⟩
  | update hc => exact ⟨by simp [htransmitted], by simp [hhistory]⟩
  | packet => exact ⟨htransmitted, hhistory⟩

section Runs
variable {σ : Type} [DecidableEq σ] {hms : Timestamp → String} {s : Desk σ} {es : List (Event σ)}

theorem audited_run (turns : List Turn) (processor : TelemetryProcessor)
    (hrun : run (Desk.step hms) (.init (CommandDispatcher.run turns) processor) es = some s) :
    (∃ f g claim, Audited f g claim s) ∧ Listed (CommandDispatcher.run turns) s := by
  refine run_invariant (fun _ s => (∃ f g claim, Audited f g claim s) ∧
    Listed (CommandDispatcher.run turns) s) ?_ ?_ hrun
  · refine ⟨⟨id, id, fun _ => (0, 0), CommandHistory.counted_run turns, ?_, ?_, ?_, ?_⟩, ?_, ?_⟩
    · intro c
      trivial
    · rintro i c b ⟨⟩
    · rintro i j c b c' b' ⟨⟩
    · rintro i j c b c' b' ⟨⟩
    · simp [Desk.init, SharedDispatcher.System.init]
    · simp [Desk.init, SharedDispatcher.System.init]
  · rintro pre s e s' ⟨⟨f, g, claim, haudited⟩, hlisted⟩ hstep
    exact ⟨haudited.step hstep, hlisted.step hstep⟩

omit [DecidableEq σ] in
/-- What the packet and the record of a traced update say. -/
theorem Traced.decode {f g : ℕ → ℕ} {effects : List (Effect σ)} {c : σ} {b : Button} {i : ℕ}
    (h : Traced f g effects c b i) :
    f i < g i ∧ g i < i ∧ ∃ packet info record,
      effects[f i]? = some (.transmitted c packet) ∧ effects[g i]? = some (.recorded c record) ∧
      unpackCmdPacket packet = .ok info ∧ info.streamId = 0x1890 ∧
      info.funcCode = b.funcCode ∧
      record.mid = info.streamId ∧ record.funcCode = info.funcCode ∧
      record.seq = info.seqCount := by
  obtain ⟨hlt, hlt', seq, hseq, hsent, n, hrecorded⟩ := h
  have hfits : CmdFits (command b).mid (command b).payload := by cases b <;> decide
  have hcode : ((command b).funcCode % 128).toNat < 128 := by omega
  have hmid := CcsdsPrimaryHeader.streamId_ofWords hfits.1.1 (by have := hfits.1.2; omega)
    (49152 + seq % 16384) ((1 + (command b).payload.length : ℕ) : ℤ)
  refine ⟨hlt, hlt', _, _, _, hsent, hrecorded, unpackCmdPacket_cmdBytes hfits hcode seq,
    hmid.trans (by cases b <;> rfl), by cases b <;> rfl, hmid.symm, by cases b <;> rfl, ?_⟩
  have hwrap : (49152 + seq % 16384) % 16384 = seq := by
    have := hseq.1
    have := hseq.2
    omega
  exact hwrap.symm

/-! ### A press that raises -/

/-- The steps of a send leave the processor alone; only a record adds to the history. -/
theorem frame_step {s' : Desk σ} {e : Event σ} (hstep : s.step hms e = some s')
    (he : (∃ c b, e = .press c b) ∨ (∃ c n, e = .transmit c n) ∨ ∃ c, e = .raises c) :
    s'.processor = s.processor ∧
      s'.shared.dispatcher.history = s.shared.dispatcher.history := by
  rcases he with ⟨c, b, rfl⟩ | ⟨c, n, rfl⟩ | ⟨c, rfl⟩ <;> cases Desk.step_cases hstep <;>
    exact ⟨rfl, rfl⟩

/-- A session that is not sending does not come to without a new press. -/
theorem not_sending_run {s' : Desk σ} {c : σ} (h : ∀ b, s.press c ≠ .sending b)
    (hrun : run (Desk.step hms) s es = some s') (hpress : ∀ b, .press c b ∉ es) (b : Button) :
    s'.press c ≠ .sending b := by
  refine run_invariant (fun es (s : Desk σ) => (∀ b, .press c b ∉ es) → ∀ b, s.press c ≠ .sending b)
    (fun _ => h) ?_ hrun hpress b
  intro pre x e y hx hstep hno
  have hsession := hx fun b hb => hno b (List.mem_append_left _ hb)
  cases Desk.step_cases hstep with
  | @press c' b' hc _ =>
    have hne : c ≠ c' := by
      rintro rfl
      exact hno b' (by simp)
    simpa [hne] using hsession
  | transmit => exact hsession
  | @record c' b' _ _ _ hc _ =>
    have hne : c ≠ c' := by
      rintro rfl
      exact hsession b' hc
    simpa [hne] using hsession
  | @raises c' b' hc =>
    have hne : c ≠ c' := by
      rintro rfl
      exact hsession b' hc
    simpa [hne] using hsession
  | @update c' b' _ hc =>
    by_cases hne : c = c'
    · subst hne
      simp
    · simpa [hne] using hsession
  | packet => exact hsession

/-- Between a press and the exception that ends it, its session only transmits. -/
theorem sends_of_raises {c : σ} {b : Button} {pre mid : List (Event σ)} {start : Desk σ}
    (hrun : run (Desk.step hms) start (pre ++ .press c b :: mid ++ [.raises c]) = some s)
    (hpress : ∀ b', .press c b' ∉ mid) {e : Event σ} (he : e ∈ mid) (hc : e.session = some c) :
    ∃ n, e = .transmit c n := by
  obtain ⟨before, after, rfl⟩ := List.append_of_mem he
  obtain ⟨z, hz, hraises⟩ := run_concat_eq_some.mp hrun
  have hsending : ∃ b, z.press c = .sending b := by
    cases Desk.step_cases hraises with
    | raises hc => exact ⟨_, hc⟩
  rw [show pre ++ .press c b :: (before ++ e :: after) = (pre ++ .press c b :: before ++ [e]) ++ after
    by simp, run_append, Option.bind_eq_some_iff] at hz
  obtain ⟨y, hy, hafter⟩ := hz
  obtain ⟨x, _, hstep⟩ := run_concat_eq_some.mp hy
  -- any other step of the session would end the send before the exception
  have hdone (hidle : ∀ b, y.press c ≠ .sending b) : False := by
    obtain ⟨b', hb'⟩ := hsending
    exact not_sending_run hidle hafter (fun b h => hpress b (by simp [h])) b' hb'
  cases Desk.step_cases hstep with
  | press =>
    cases hc
    exact absurd he (hpress _)
  | transmit =>
    cases hc
    exact ⟨_, rfl⟩
  | record =>
    cases hc
    exact (hdone (by simp)).elim
  | raises =>
    cases hc
    exact (hdone (by simp)).elim
  | update =>
    cases hc
    exact (hdone (by simp)).elim
  | packet => cases hc

/-- In every reachable state each status update is traced, one to one, to an
earlier packet of the same press on the Solar Array's message ID with the
matching function code and to that packet's record in the history; and a press
that ends by an exception has changed neither the processor nor the history. -/
theorem updates_stand_on_packets (turns : List Turn) (processor : TelemetryProcessor)
    (hrun : run (Desk.step hms) (.init (CommandDispatcher.run turns) processor) es = some s) :
    (∃ f g : ℕ → ℕ, OneToOne f s.effects ∧ OneToOne g s.effects ∧
      ∀ i c b, s.effects[i]? = some (.updated c b) →
        f i < g i ∧ g i < i ∧ ∃ packet info record,
          s.effects[f i]? = some (.transmitted c packet) ∧
          s.effects[g i]? = some (.recorded c record) ∧
          unpackCmdPacket packet = .ok info ∧ info.streamId = 0x1890 ∧
          info.funcCode = b.funcCode ∧
          record.mid = info.streamId ∧ record.funcCode = info.funcCode ∧
          record.seq = info.seqCount) ∧
    Listed (CommandDispatcher.run turns) s ∧
    ∀ (pre mid : List (Event σ)) (c : σ) (b : Button), pre ++ .press c b :: mid ++ [.raises c] <+: es →
      (∀ b', .press c b' ∉ mid) →
      ∀ e ∈ .press c b :: mid ++ [.raises c], e.session = some c →
        ∀ x y : Desk σ, x.step hms e = some y →
          y.processor = x.processor ∧
            y.shared.dispatcher.history = x.shared.dispatcher.history := by
  obtain ⟨⟨f, g, claim, haudited⟩, hlisted⟩ := audited_run turns processor hrun
  refine ⟨⟨f, g, haudited.packets, haudited.records, fun i c b hi => ?_⟩, hlisted, ?_⟩
  · exact (haudited.traced i c b hi).decode
  · rintro pre mid c b ⟨rest, rfl⟩ hpress e he hc x y hstep
    obtain ⟨z, hz, _⟩ : ∃ z, run (Desk.step hms) (.init (CommandDispatcher.run turns) processor)
        (pre ++ .press c b :: mid ++ [.raises c]) = some z ∧ _ := by
      rw [run_append] at hrun
      exact Option.bind_eq_some_iff.mp hrun
    refine frame_step hstep ?_
    rcases List.mem_append.mp he with he | he
    · rcases List.mem_cons.mp he with rfl | he
      · exact .inl ⟨c, b, rfl⟩
      · obtain ⟨n, rfl⟩ := sends_of_raises hz hpress he hc
        exact .inr (.inl ⟨c, n, rfl⟩)
    · rw [List.mem_singleton.mp he]
      exact .inr (.inr ⟨c, rfl⟩)

end Runs

/-- One press of Open that goes through. -/
def onePress : List (Event Unit) := [.press () .open, .transmit () 8, .record (), .update () 1]

theorem updates_stand_on_packets_onePress : ∃ (s : Desk Unit) (p q : ℕ) (packet : Bytes)
    (record : CommandRecord),
    run (Desk.step fun _ => "00:00:00") (.init (CommandDispatcher.run []) (.init 200)) onePress =
        some s ∧
      p < q ∧ q < 2 ∧ s.effects[p]? = some (.transmitted () packet) ∧
      s.effects[q]? = some (.recorded () record) ∧ record.mid = 0x1890 ∧ record.funcCode = 5 := by
  have hfinal : (run (Desk.step fun _ => "00:00:00")
      (.init (CommandDispatcher.run []) (.init 200)) onePress).map (fun s => s.effects[2]?) =
      some (some (.updated () .open)) := rfl
  obtain ⟨s, hs, hupdated⟩ := Option.map_eq_some_iff.mp hfinal
  obtain ⟨⟨f, g, _, _, htraced⟩, _, _⟩ := updates_stand_on_packets [] (.init 200) hs
  obtain ⟨hlt, hlt', packet, info, record, hsent, hrecorded, _, hmid, hcode, hmid', hcode', _⟩ :=
    htraced 2 () .open hupdated
  exact ⟨s, f 2, g 2, packet, record, hs, hlt, hlt', hsent, hrecorded, hmid'.trans hmid,
    hcode'.trans hcode⟩

end CfsBridge.OperatorAudit
