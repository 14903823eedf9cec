import CfsBridge.Dispatcher
import CfsBridge.Sensors
import Mathlib.Data.List.ReduceOption

/-!
# Failed sends

Neither sender takes a number back. A failed send uses its number up, so the
packets that leave carry the index of their attempt: in order, with one number
missing for each attempt that failed.
-/
namespace CfsBridge.SendFailures
open Bytes Python CcsdsUtils Dispatcher Sensors
open Ieee (Binary64)

/-! ### Numbered attempts -/

/-- An attempt, given its number, puts a packet on the wire or fails. -/
abbrev Attempt := ℕ → Option Bytes

/-- The packets that a list of attempts puts on the wire. -/
def numbered (attempts : List Attempt) : List Bytes :=
  (attempts.mapIdx fun j attempt => attempt j).reduceOption

theorem numbered_concat (attempts : List Attempt) (attempt : Attempt) :
    numbered (attempts ++ [attempt]) =
      numbered attempts ++ (attempt attempts.length).toList := by
  rw [numbered, List.mapIdx_concat, List.reduceOption_append]
  cases attempt attempts.length <;> rfl

/-- A command to `mid`, which leaves when it can be built and its `sendto` succeeds. -/
def commandAttempt (mid funcCode : ℤ) (payload : Bytes) (sendto : Except PyException ℕ) :
    Attempt := fun j =>
  if CmdFits mid payload ∧ sendto.toBool = true then
    some (cmdBytes mid (funcCode % 128).toNat payload j)
  else none

theorem commandAttempt_ok {mid : ℤ} {payload : Bytes} (h : CmdFits mid payload) (funcCode : ℤ)
    (n j : ℕ) : commandAttempt mid funcCode payload (.ok n) j =
      some (cmdBytes mid (funcCode % 128).toNat payload j) := if_pos ⟨h, rfl⟩

theorem commandAttempt_error (mid funcCode : ℤ) (payload : Bytes) (e : PyException) (j : ℕ) :
    commandAttempt mid funcCode payload (.error e) j = none := if_neg fun h => by cases h.2

theorem commandAttempt_of_not {mid : ℤ} {payload : Bytes} (h : ¬ CmdFits mid payload)
    (funcCode : ℤ) (sendto : Except PyException ℕ) (j : ℕ) :
    commandAttempt mid funcCode payload sendto j = none := if_neg fun hsent => h hsent.1

/-- A packet of a numbered command attempt carries that number modulo 2 ^ 14. -/
theorem seqCount_commandAttempt {mid funcCode : ℤ} {payload : Bytes}
    {sendto : Except PyException ℕ} {j : ℕ} {packet : Bytes}
    (h : commandAttempt mid funcCode payload sendto j = some packet) :
    ∃ info, unpackCmdPacket packet = .ok info ∧ info.seqCount = j % 2 ^ 14 := by
  unfold commandAttempt at h
  split_ifs at h with hsent
  cases h
  have hcode : (funcCode % 128).toNat < 128 := by omega
  refine ⟨_, unpackCmdPacket_cmdBytes hsent.1 hcode j, ?_⟩
  change (49152 + (j : ℤ) % 16384) % 16384 = j % 16384
  omega

/-! ### The dispatcher -/

/-- The sends on a message ID that the turns come to, whatever becomes of them. -/
def attemptsOn (mid : ℤ) (turns : List Turn) : List Attempt :=
  turns.filterMap fun turn =>
    if turn.op.mid = mid then
      turn.op.payload.toOption.map fun payload =>
        commandAttempt mid turn.op.funcCode payload turn.sendto
    else none

/-- The state after the given turns, failed or not. -/
structure Attempted (turns : List Turn) (s : CommandDispatcher) : Prop where
  seqCounts : ∀ mid, (s.seqCounts mid).getD 0 = ((attemptsOn mid turns).length : ℤ) % 16384
  sentOn : ∀ mid, s.sentOn mid = numbered (attemptsOn mid turns)

theorem attempted_init : Attempted [] .init where
  seqCounts _ := rfl
  sentOn _ := rfl

theorem attemptsOn_other {turn : Turn} {mid : ℤ} (h : turn.op.mid ≠ mid) (turns : List Turn) :
    attemptsOn mid (turns ++ [turn]) = attemptsOn mid turns := by
  simp [attemptsOn, h]

theorem attemptsOn_raised {turn : Turn} {e : PyException} (h : turn.op.payload = .error e)
    (mid : ℤ) (turns : List Turn) :
    attemptsOn mid (turns ++ [turn]) = attemptsOn mid turns := by
  simp [attemptsOn, h, Except.toOption]

theorem attemptsOn_self {turn : Turn} {payload : Bytes} (h : turn.op.payload = .ok payload)
    (turns : List Turn) :
    attemptsOn turn.op.mid (turns ++ [turn]) = attemptsOn turn.op.mid turns ++
      [commandAttempt turn.op.mid turn.op.funcCode payload turn.sendto] := by
  simp [attemptsOn, h, Except.toOption]

/-- One more call, whatever its outcome. -/
theorem Attempted.call {turns : List Turn} {s : CommandDispatcher} (h : Attempted turns s)
    (turn : Turn) : Attempted (turns ++ [turn]) (s.call turn).2 := by
  rw [CommandDispatcher.call_eq]
  cases hp : turn.op.payload with
  | error e =>
    constructor
    · intro mid
      rw [attemptsOn_raised hp, h.seqCounts]
    · intro mid
      rw [attemptsOn_raised hp, h.sentOn]
  | ok payload =>
    have hseq := h.seqCounts turn.op.mid
    have hcount {s' : CommandDispatcher} (hs' : s'.seqCounts = Function.update s.seqCounts
        turn.op.mid (some (((s.seqCounts turn.op.mid).getD 0 + 1) % 16384))) (mid : ℤ) :
        (s'.seqCounts mid).getD 0 = ((attemptsOn mid (turns ++ [turn])).length : ℤ) % 16384 := by
      by_cases hmid : turn.op.mid = mid
      · subst hmid
        simp [hs', attemptsOn_self hp, hseq]
      · simp [hs', attemptsOn_other hmid, Ne.symm hmid, h.seqCounts mid]
    -- an attempt that does not leave takes a number and adds no packet
    have hfailed (hnone : commandAttempt turn.op.mid turn.op.funcCode payload turn.sendto
        (attemptsOn turn.op.mid turns).length = none) (mid : ℤ) :
        s.sentOn mid = numbered (attemptsOn mid (turns ++ [turn])) := by
      by_cases hmid : turn.op.mid = mid
      · subst hmid
        rw [attemptsOn_self hp, numbered_concat, hnone, h.sentOn, Option.toList_none,
          List.append_nil]
      · rw [attemptsOn_other hmid, h.sentOn]
    simp only [CommandDispatcher.send_eq]
    split_ifs with hfits
    · cases hsendto : turn.sendto with
      | error e =>
        rw [hsendto] at hfailed
        exact ⟨hcount rfl, hfailed (commandAttempt_error _ _ _ _ _)⟩
      | ok n =>
        refine ⟨hcount rfl, fun mid => ?_⟩
        have hold := h.sentOn mid
        unfold CommandDispatcher.sentOn at hold ⊢
        rw [List.filter_append, hold]
        by_cases hmid : turn.op.mid = mid
        · subst hmid
          rw [attemptsOn_self hp, numbered_concat, hsendto, commandAttempt_ok hfits, hseq,
            cmdBytes_emod]
          simp [CommandDispatcher.packetMid_cmdBytes hfits]
        · rw [attemptsOn_other hmid]
          simp [CommandDispatcher.packetMid_cmdBytes hfits, hmid]
    · exact ⟨hcount rfl, hfailed (commandAttempt_of_not hfits _ _ _)⟩

theorem attempted_run (turns : List Turn) : Attempted turns (CommandDispatcher.run turns) := by
  induction turns using List.reverseRecOn with
  | nil => exact attempted_init
  | append_singleton turns turn ih =>
    rw [CommandDispatcher.run, List.foldl_append]
    exact ih.call turn

/-! ### Sensors -/

/-- A sensor's send of one reading, as an attempt if a packet can be built from it. -/
def sensorAttempt (c : SensorClass) (value : Binary64) (sendto : Except PyException ℕ) :
    Option Attempt :=
  if 0 ≤ c.mid ∧ c.mid ≤ 65535 then
    (packFloat value).toOption.map fun payload => commandAttempt c.mid c.funcCode payload sendto
  else none

/-- The attempts of the turns on a sensor that holds the reading `value`. -/
def attemptsFrom (c : SensorClass) : Binary64 → List SensorTurn → List Attempt
  | _, [] => []
  | value, turn :: turns =>
    match turn.op with
    | .setValue newValue => attemptsFrom c (c.clamp newValue) turns
    | .send => (sensorAttempt c value turn.sendto).toList ++ attemptsFrom c value turns
    | .updateAndSend newValue =>
      (sensorAttempt c (c.clamp newValue) turn.sendto).toList ++
        attemptsFrom c (c.clamp newValue) turns

/-- The sensor after the given attempts, failed or not. -/
structure SensorAttempted (attempts : List Attempt) (s : BaseSensor) : Prop where
  seqCount : s.seqCount = (attempts.length : ℤ) % 16384
  transmitted : s.transmitted = numbered attempts

theorem value_send (c : SensorClass) (sendto : Except PyException ℕ) (s : BaseSensor) :
    (s.send c sendto).2.value = s.value := by
  rw [BaseSensor.send_eq]
  cases packFloat s.value with
  | error e => rfl
  | ok payload =>
    dsimp only
    split_ifs
    · cases sendto <;> rfl
    · rfl

theorem SensorAttempted.send {attempts : List Attempt} {s : BaseSensor}
    (h : SensorAttempted attempts s) (c : SensorClass) (sendto : Except PyException ℕ) :
    SensorAttempted (attempts ++ (sensorAttempt c s.value sendto).toList) (s.send c sendto).2 := by
  rw [BaseSensor.send_eq, sensorAttempt]
  cases hpayload : packFloat s.value with
  | error e => simpa [Except.toOption] using h
  | ok payload =>
    dsimp only
    split_ifs with hmid
    · have hfits := (cmdFits_of_packFloat c.mid hpayload).mpr hmid
      have hattempt : (Except.toOption (Except.ok payload : Except PyException Bytes)).map
          (fun payload => commandAttempt c.mid c.funcCode payload sendto) =
          some (commandAttempt c.mid c.funcCode payload sendto) := rfl
      have hcount : (s.seqCount + 1) % 16384 =
          ((attempts ++ [commandAttempt c.mid c.funcCode payload sendto]).length : ℤ) % 16384 := by
        simp [h.seqCount]
      rw [hattempt, Option.toList_some]
      cases sendto with
      | error e =>
        refine ⟨hcount, ?_⟩
        rw [numbered_concat, commandAttempt_error, Option.toList_none, List.append_nil]
        exact h.transmitted
      | ok n =>
        refine ⟨hcount, ?_⟩
        rw [numbered_concat, commandAttempt_ok hfits, h.seqCount, cmdBytes_emod, h.transmitted]
        rfl
    · simpa using h

theorem SensorAttempted.run (c : SensorClass) (turns : List SensorTurn) {attempts : List Attempt}
    {s : BaseSensor} (h : SensorAttempted attempts s) :
    SensorAttempted (attempts ++ attemptsFrom c s.value turns)
      (turns.foldl (BaseSensor.call c) s) := by
  induction turns generalizing attempts s with
  | nil => simpa [attemptsFrom] using h
  | cons turn turns ih =>
    obtain ⟨op, sendto⟩ := turn
    rw [List.foldl_cons]
    cases op with
    | setValue newValue =>
      have hset : SensorAttempted attempts (s.setValue c newValue) := ⟨h.seqCount, h.transmitted⟩
      exact ih hset
    | send =>
      have hnext := ih (h.send c sendto)
      rw [value_send, List.append_assoc] at hnext
      exact hnext
    | updateAndSend newValue =>
      have hset : SensorAttempted attempts (s.setValue c newValue) := ⟨h.seqCount, h.transmitted⟩
      have hnext := ih (hset.send c sendto)
      rw [value_send, List.append_assoc] at hnext
      exact hnext

theorem sensorAttempted_run (c : SensorClass) (turns : List SensorTurn) :
    SensorAttempted (attemptsFrom c c.default turns) (BaseSensor.run c turns) := by
  have hinit : SensorAttempted [] (BaseSensor.init c) := ⟨rfl, rfl⟩
  exact hinit.run c turns

/-! ### Whole runs -/

/-- An attempt to send some command. -/
def IsCommand (attempt : Attempt) : Prop :=
  ∃ mid funcCode payload sendto, attempt = commandAttempt mid funcCode payload sendto

theorem isCommand_of_mem_attemptsOn {mid : ℤ} {turns : List Turn} {attempt : Attempt}
    (h : attempt ∈ attemptsOn mid turns) : IsCommand attempt := by
  obtain ⟨turn, _, hsome⟩ := List.mem_filterMap.mp h
  split_ifs at hsome
  obtain ⟨payload, _, rfl⟩ := Option.map_eq_some_iff.mp hsome
  exact ⟨_, _, _, _, rfl⟩

theorem isCommand_of_mem_sensorAttempt {c : SensorClass} {value : Binary64}
    {sendto : Except PyException ℕ} {attempt : Attempt}
    (h : attempt ∈ (sensorAttempt c value sendto).toList) : IsCommand attempt := by
  rw [Option.mem_toList, sensorAttempt] at h
  split_ifs at h
  obtain ⟨payload, _, rfl⟩ := Option.map_eq_some_iff.mp h
  exact ⟨_, _, _, _, rfl⟩

theorem isCommand_of_mem_attemptsFrom {c : SensorClass} {turns : List SensorTurn}
    {value : Binary64} {attempt : Attempt} (h : attempt ∈ attemptsFrom c value turns) :
    IsCommand attempt := by
  induction turns generalizing value with
  | nil => cases h
  | cons turn turns ih =>
    obtain ⟨op, sendto⟩ := turn
    cases op with
    | setValue newValue => exact ih h
    | send =>
      rcases List.mem_append.mp h with hhead | htail
      · exact isCommand_of_mem_sensorAttempt hhead
      · exact ih htail
    | updateAndSend newValue =>
      rcases List.mem_append.mp h with hhead | htail
      · exact isCommand_of_mem_sensorAttempt hhead
      · exact ih htail

/-- Each packet carries the index of its attempt modulo 2 ^ 14. -/
def CarriesIndex (attempts : List Attempt) : Prop :=
  ∀ (j : ℕ) (attempt : Attempt) (packet : Bytes), attempts[j]? = some attempt →
    attempt j = some packet →
      ∃ info, unpackCmdPacket packet = .ok info ∧ info.seqCount = j % 2 ^ 14

theorem carriesIndex_of_forall {attempts : List Attempt}
    (h : ∀ attempt ∈ attempts, IsCommand attempt) : CarriesIndex attempts := by
  intro j attempt packet hj hpacket
  obtain ⟨mid, funcCode, payload, sendto, rfl⟩ := h attempt (List.mem_of_getElem? hj)
  exact seqCount_commandAttempt hpacket

theorem send_error {mid funcCode : ℤ} {payload : Bytes} {sendto : Except PyException ℕ}
    {e : PyException} {s s' : CommandDispatcher}
    (h : s.send mid funcCode payload sendto = (.error e, s')) : s' = { s with
      seqCounts := Function.update s.seqCounts mid
        (some (((s.seqCounts mid).getD 0 + 1) % 2 ^ 14)) } := by
  rw [CommandDispatcher.send_eq] at h
  split_ifs at h with hfits
  · cases sendto with
    | error e' =>
      cases h
      rfl
    | ok n => cases h
  · cases h
    rfl

theorem sensor_send_error {c : SensorClass} {sendto : Except PyException ℕ} {e : PyException}
    {s s' : BaseSensor} (h : s.send c sendto = (.error e, s')) : s' = { s with
      seqCount :=
        if (packFloat s.value).toBool = true ∧ 0 ≤ c.mid ∧ c.mid ≤ 65535 then
          (s.seqCount + 1) % 2 ^ 14
        else s.seqCount } := by
  rw [BaseSensor.send_eq] at h
  cases hpayload : packFloat s.value with
  | error e' =>
    rw [hpayload] at h
    cases h
    rfl
  | ok payload =>
    rw [hpayload] at h
    dsimp only at h
    by_cases hmid : 0 ≤ c.mid ∧ c.mid ≤ 65535
    · rw [if_pos hmid] at h
      cases sendto with
      | error e' =>
        cases h
        simp [Except.toBool, hmid]
      | ok n => cases h
    · rw [if_neg hmid] at h
      cases h
      simp [Except.toBool, hmid]

/-- A failed dispatcher send uses up one number of its own message ID and
changes nothing else; a failed sensor send does so only once its packet is
built. So over every run the packets that leave are numbered by the index of
their attempt. -/
theorem failed_sends_numbering :
    (∀ (turns : List Turn) (mid funcCode : ℤ) (payload : Bytes) (sendto : Except PyException ℕ)
      (e : PyException) (s' : CommandDispatcher),
      (CommandDispatcher.run turns).send mid funcCode payload sendto = (.error e, s') →
        s' = { CommandDispatcher.run turns with
          seqCounts := Function.update (CommandDispatcher.run turns).seqCounts mid
            (some ((((CommandDispatcher.run turns).seqCounts mid).getD 0 + 1) % 2 ^ 14)) }) ∧
    (∀ (c : SensorClass) (s s' : BaseSensor) (sendto : Except PyException ℕ) (e : PyException),
      s.send c sendto = (.error e, s') →
        s' = { s with
          seqCount :=
            if (packFloat s.value).toBool = true ∧ 0 ≤ c.mid ∧ c.mid ≤ 65535 then
              (s.seqCount + 1) % 2 ^ 14
            else s.seqCount }) ∧
    (∀ (turns : List Turn) (mid : ℤ),
      (CommandDispatcher.run turns).sentOn mid = numbered (attemptsOn mid turns) ∧
        CarriesIndex (attemptsOn mid turns)) ∧
    ∀ (c : SensorClass) (turns : List SensorTurn),
      (BaseSensor.run c turns).transmitted = numbered (attemptsFrom c c.default turns) ∧
        CarriesIndex (attemptsFrom c c.default turns) := by
  refine ⟨?_, ?_, ?_, ?_⟩
  · intro turns mid funcCode payload sendto e s' h
    exact send_error h
  · intro c s s' sendto e h
    exact sensor_send_error h
  · intro turns mid
    exact ⟨(attempted_run turns).sentOn mid,
      carriesIndex_of_forall fun attempt => isCommand_of_mem_attemptsOn⟩
  · intro c turns
    exact ⟨(sensorAttempted_run c turns).transmitted,
      carriesIndex_of_forall fun attempt => isCommand_of_mem_attemptsFrom⟩

/-- A send whose socket fails, and the next one. -/
def failedThenSent : List Turn := [⟨.openArray, .error .osError⟩, ⟨.openArray, .ok 8⟩]

theorem failedThenSent_gap :
    (∃ s', CommandDispatcher.init.send 0x1890 5 [] (.error .osError) = (.error .osError, s') ∧
      s'.seqCounts 0x1890 ≠ CommandDispatcher.init.seqCounts 0x1890) ∧
    ∃ packet info, (CommandDispatcher.run failedThenSent).sentOn 0x1890 = [packet] ∧
      unpackCmdPacket packet = .ok info ∧ info.seqCount = 1 := by
  constructor
  · exact ⟨_, rfl, by decide⟩
  · exact ⟨cmdBytes 0x1890 5 [] 1, _, by decide +kernel,
      unpackCmdPacket_cmdBytes (by decide) (by decide) 1, by decide⟩

end CfsBridge.SendFailures
