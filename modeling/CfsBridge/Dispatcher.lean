import CfsBridge.CcsdsCodec
import CfsBridge.MissionRegistry

/-!
# The command dispatcher

`CommandDispatcher` numbers its packets per message ID. A call takes its number
before anything can fail, so a number is lost when the packet cannot be built
or sent. In a run where nothing fails after that point the packets on one
message ID are numbered consecutively, whatever is sent on the others.
-/
namespace CfsBridge.Dispatcher
open Bytes Python CcsdsUtils MissionRegistry

structure CommandRecord where
  mid : ℤ
  midName : String
  funcCode : ℤ
  fcName : String
  seq : ℤ
  bytesSent : ℕ
  payloadHex : String
  deriving DecidableEq, Repr

/-- The `record` that `send` appends to the history. -/
def recordOf (mid funcCode : ℤ) (payload : Bytes) (seq : ℤ) (bytesSent : ℕ) : CommandRecord where
  mid := mid
  midName := (dictGet midName mid).getD (hex04X mid.toNat)
  funcCode := funcCode
  fcName := (dictGet fcName funcCode).getD (toString funcCode)
  seq := seq
  bytesSent := bytesSent
  payloadHex := if payload ≠ [] then hex payload else ""

/-- The dispatcher's data. `transmitted` is the trace of packets that `sendto` took. -/
structure CommandDispatcher where
  seqCounts : ℤ → Option ℤ
  history : List CommandRecord
  transmitted : List Bytes

namespace CommandDispatcher

def init : CommandDispatcher where
  seqCounts := fun _ => none
  history := []
  transmitted := []

/-- `_next_seq`. -/
def nextSeq (mid : ℤ) (s : CommandDispatcher) : ℤ × CommandDispatcher :=
  let seq := (s.seqCounts mid).getD 0
  (seq, { s with
    seqCounts := Function.update s.seqCounts mid (some (Int.land (seq + 1) 0x3FFF)) })

/-- `send`, with the outcome of its `sendto`. -/
def send (mid funcCode : ℤ) (payload : Bytes) (sendto : Except PyException ℕ)
    (s : CommandDispatcher) : Except PyException ℕ × CommandDispatcher :=
  let (seq, s) := s.nextSeq mid
  match packCmdPacket mid funcCode payload seq with
  | .error e => (.error e, s)
  | .ok packet =>
    match sendto with
    | .error e => (.error e, s)
    | .ok bytesSent =>
      (.ok bytesSent, { s with
        transmitted := s.transmitted ++ [packet]
        history := s.history ++ [recordOf mid funcCode payload seq bytesSent] })

/-- `send_with_float`. -/
def sendWithFloat (mid funcCode : ℤ) (value : Ieee.Binary64) (sendto : Except PyException ℕ)
    (s : CommandDispatcher) : Except PyException ℕ × CommandDispatcher :=
  match packFloat value with
  | .error e => (.error e, s)
  | .ok payload => s.send mid funcCode payload sendto

/-- `enable_telemetry_output`; the last of the 16 bytes stays NUL. -/
def enableTelemetryOutput (destIp : String) (sendto : Except PyException ℕ)
    (s : CommandDispatcher) : Except PyException ℕ × CommandDispatcher :=
  match encodeAscii destIp with
  | .error e => (.error e, s)
  | .ok encoded =>
    let payload := ljust 16 0 (encoded.take 15)
    s.send Mid.toLabCmd Fc.toLabOutputEnable payload sendto

/-- `SolarArrayCommands.open_array`. -/
def openArray (sendto : Except PyException ℕ) (s : CommandDispatcher) :
    Except PyException ℕ × CommandDispatcher :=
  s.send Mid.solarArrayApp Fc.solarArrayOpen [] sendto

/-- `SolarArrayCommands.close_array`. -/
def closeArray (sendto : Except PyException ℕ) (s : CommandDispatcher) :
    Except PyException ℕ × CommandDispatcher :=
  s.send Mid.solarArrayApp Fc.solarArrayClose [] sendto

end CommandDispatcher

/-! ### Operations -/

inductive Op
  | send (mid funcCode : ℤ) (payload : Bytes)
  | sendWithFloat (mid funcCode : ℤ) (value : Ieee.Binary64)
  | enableTelemetryOutput (destIp : String)
  | openArray
  | closeArray

namespace Op

def mid : Op → ℤ
  | .send mid _ _ => mid
  | .sendWithFloat mid _ _ => mid
  | .enableTelemetryOutput _ => Mid.toLabCmd
  | .openArray => Mid.solarArrayApp
  | .closeArray => Mid.solarArrayApp

def funcCode : Op → ℤ
  | .send _ funcCode _ => funcCode
  | .sendWithFloat _ funcCode _ => funcCode
  | .enableTelemetryOutput _ => Fc.toLabOutputEnable
  | .openArray => Fc.solarArrayOpen
  | .closeArray => Fc.solarArrayClose

/-- The payload an operation hands to `send`, unless it raises before. -/
def payload : Op → Except PyException Bytes
  | .send _ _ payload => .ok payload
  | .sendWithFloat _ _ value => packFloat value
  | .enableTelemetryOutput destIp => (encodeAscii destIp).map fun encoded =>
      ljust 16 0 (encoded.take 15)
  | .openArray => .ok []
  | .closeArray => .ok []

/-- The arguments lie in the ranges of the packet format. -/
def InRange : Op → Prop
  | .send mid funcCode payload =>
    (0 ≤ mid ∧ mid ≤ 65535) ∧ (0 ≤ funcCode ∧ funcCode ≤ 127) ∧ payload.length ≤ 65534
  | .sendWithFloat mid funcCode _ => (0 ≤ mid ∧ mid ≤ 65535) ∧ (0 ≤ funcCode ∧ funcCode ≤ 127)
  | _ => True

instance : DecidablePred InRange := fun op => by
  cases op <;> unfold InRange <;> infer_instance

end Op

/-- One call, with the outcome of the `sendto` it may reach. -/
structure Turn where
  op : Op
  sendto : Except PyException ℕ

namespace CommandDispatcher

def call (s : CommandDispatcher) (turn : Turn) : Except PyException ℕ × CommandDispatcher :=
  match turn.op with
  | .send mid funcCode payload => s.send mid funcCode payload turn.sendto
  | .sendWithFloat mid funcCode value => s.sendWithFloat mid funcCode value turn.sendto
  | .enableTelemetryOutput destIp => s.enableTelemetryOutput destIp turn.sendto
  | .openArray => s.openArray turn.sendto
  | .closeArray => s.closeArray turn.sendto

/-- A run of calls on a new dispatcher. -/
def run (turns : List Turn) : CommandDispatcher := turns.foldl (fun s turn => (s.call turn).2) init

/-- The message ID a packet decodes to. -/
def packetMid (packet : Bytes) : Option ℤ :=
  (unpackCmdPacket packet).toOption.map fun info => info.streamId

/-- The packets transmitted on one message ID, in order. -/
def sentOn (mid : ℤ) (s : CommandDispatcher) : List Bytes :=
  s.transmitted.filter fun packet => packetMid packet = some mid

end CommandDispatcher

/-! ### What a run sends -/

/-- The function codes and payloads that operations send on one message ID. -/
def commandsOn (mid : ℤ) (ops : List Op) : List (ℤ × Bytes) :=
  ops.filterMap fun op =>
    if op.mid = mid then op.payload.toOption.map fun payload => (op.funcCode, payload) else none

/-- Their packets, numbered from zero. -/
def packetsOn (mid : ℤ) (ops : List Op) : List Bytes :=
  (commandsOn mid ops).mapIdx fun k command =>
    cmdBytes mid (command.1 % 128).toNat command.2 k

/-- A history record that agrees with the packet it logs. -/
def RecordMatches (record : CommandRecord) (packet : Bytes) : Prop :=
  ∃ info, unpackCmdPacket packet = .ok info ∧ record.mid = info.streamId ∧
    record.funcCode = info.funcCode ∧ record.seq = info.seqCount ∧
    record.payloadHex = hex info.payload

/-- An operation in range whose `sendto`, if it comes to one, succeeds. -/
def Turn.Succeeds (turn : Turn) : Prop := turn.op.InRange ∧ turn.sendto.toBool = true

instance : DecidablePred Turn.Succeeds := fun _ => inferInstanceAs (Decidable (_ ∧ _))

theorem Op.cmdFits {op : Op} (h : op.InRange) {payload : Bytes} (hp : op.payload = .ok payload) :
    CmdFits op.mid payload ∧ 0 ≤ op.funcCode ∧ op.funcCode ≤ 127 := by
  cases op with
  | send mid funcCode bytes =>
    cases hp
    exact ⟨⟨h.1, h.2.2⟩, h.2.1⟩
  | sendWithFloat mid funcCode value =>
    have hlen := packFloat_length hp
    exact ⟨⟨h.1, by omega⟩, h.2⟩
  | enableTelemetryOutput destIp =>
    have hlen : payload.length = 16 := by
      simp only [Op.payload] at hp
      cases hencoded : encodeAscii destIp with
      | error e =>
        rw [hencoded] at hp
        cases hp
      | ok encoded =>
        rw [hencoded] at hp
        cases hp
        simp [ljust]
    have hmid : 0 ≤ Mid.toLabCmd ∧ Mid.toLabCmd ≤ 65535 := by decide
    have hcode : 0 ≤ Fc.toLabOutputEnable ∧ Fc.toLabOutputEnable ≤ 127 := by decide
    exact ⟨⟨hmid, by omega⟩, hcode⟩
  | openArray =>
    cases hp
    decide
  | closeArray =>
    cases hp
    decide

namespace CommandDispatcher

/-- Every operation is one `send`, unless it raises before with the state unchanged. -/
theorem call_eq (s : CommandDispatcher) (turn : Turn) :
    s.call turn = match turn.op.payload with
      | .error e => (.error e, s)
      | .ok payload => s.send turn.op.mid turn.op.funcCode payload turn.sendto := by
  obtain ⟨op, sendto⟩ := turn
  cases op with
  | enableTelemetryOutput destIp =>
    simp only [call, enableTelemetryOutput, Op.payload]
    cases encodeAscii destIp <;> rfl
  | _ => rfl

theorem payloadHex_recordOf (mid funcCode : ℤ) (payload : Bytes) (seq : ℤ) (n : ℕ) :
    (recordOf mid funcCode payload seq n).payloadHex = hex payload := by
  cases payload <;> rfl

/-- A `send` counts first; then it fails, or transmits and records one packet. -/
theorem send_eq (mid funcCode : ℤ) (payload : Bytes) (sendto : Except PyException ℕ)
    (s : CommandDispatcher) :
    let seq := (s.seqCounts mid).getD 0
    let counted := { s with
      seqCounts := Function.update s.seqCounts mid (some ((seq + 1) % 16384)) }
    s.send mid funcCode payload sendto =
      if CmdFits mid payload then
        match sendto with
        | .error e => (.error e, counted)
        | .ok n => (.ok n, { counted with
            history := s.history ++ [recordOf mid funcCode payload seq n]
            transmitted := s.transmitted ++ [cmdBytes mid (funcCode % 128).toNat payload seq] })
      else (.error .structError, counted) := by
  intro seq counted
  unfold send nextSeq
  split_ifs with h
  · simp only [packCmdPacket_ok h, land_0x3FFF, counted, seq]
  · simp only [packCmdPacket_error h, land_0x3FFF, counted, seq]

/-- A `send` that succeeds counts, transmits and records one packet. -/
theorem send_ok {mid : ℤ} {payload : Bytes} (h : CmdFits mid payload) (funcCode : ℤ) (n : ℕ)
    (s : CommandDispatcher) :
    let seq := (s.seqCounts mid).getD 0
    s.send mid funcCode payload (.ok n) = (.ok n, {
      seqCounts := Function.update s.seqCounts mid (some ((seq + 1) % 16384))
      history := s.history ++ [recordOf mid funcCode payload seq n]
      transmitted := s.transmitted ++ [cmdBytes mid (funcCode % 128).toNat payload seq] }) := by
  intro seq
  rw [send_eq, if_pos h]

theorem packetMid_cmdBytes {mid : ℤ} {payload : Bytes} (h : CmdFits mid payload) (funcCode : ℤ)
    (seqCount : ℤ) :
    packetMid (cmdBytes mid (funcCode % 128).toNat payload seqCount) = some mid := by
  have hcode : (funcCode % 128).toNat < 128 := by omega
  have hmid := CcsdsPrimaryHeader.streamId_ofWords h.1.1 (by have := h.1.2; omega)
    (49152 + seqCount % 16384) ((1 + payload.length : ℕ) : ℤ)
  rw [packetMid, unpackCmdPacket_cmdBytes h hcode seqCount]
  exact congrArg some hmid

/-- The record of a successful `send` agrees with its packet. -/
theorem recordMatches_send {mid funcCode seq : ℤ} {payload : Bytes} (h : CmdFits mid payload)
    (hcode : 0 ≤ funcCode ∧ funcCode ≤ 127) (hseq : seq % 16384 = seq) (n : ℕ) :
    RecordMatches (recordOf mid funcCode payload seq n)
      (cmdBytes mid (funcCode % 128).toNat payload seq) := by
  have hlt : (funcCode % 128).toNat < 128 := by omega
  refine ⟨_, unpackCmdPacket_cmdBytes h hlt seq, ?_, ?_, ?_, payloadHex_recordOf _ _ _ _ _⟩
  · exact (CcsdsPrimaryHeader.streamId_ofWords h.1.1 (by have := h.1.2; omega) _ _).symm
  · change funcCode = ((funcCode % 128).toNat : ℤ)
    omega
  · change seq = (49152 + seq % 16384) % 16384
    omega

end CommandDispatcher

/-! ### The numbering invariant -/

/-- The state after the given operations, when none failed past its number. -/
structure Numbered (ops : List Op) (s : CommandDispatcher) : Prop where
  seqCounts : ∀ mid, (s.seqCounts mid).getD 0 = ((commandsOn mid ops).length : ℤ) % 16384
  sentOn : ∀ mid, s.sentOn mid = packetsOn mid ops
  history : List.Forall₂ RecordMatches s.history s.transmitted

theorem numbered_init : Numbered [] .init where
  seqCounts _ := rfl
  sentOn _ := rfl
  history := .nil

/-- An operation that raises before `send` adds no command. -/
theorem commandsOn_raised {op : Op} {e : PyException} (hp : op.payload = .error e) (mid : ℤ)
    (ops : List Op) : commandsOn mid (ops ++ [op]) = commandsOn mid ops := by
  simp [commandsOn, hp, Except.toOption]

theorem commandsOn_self {op : Op} {payload : Bytes} (hp : op.payload = .ok payload)
    (ops : List Op) :
    commandsOn op.mid (ops ++ [op]) = commandsOn op.mid ops ++ [(op.funcCode, payload)] := by
  simp [commandsOn, hp, Except.toOption]

theorem commandsOn_other {op : Op} {mid : ℤ} (h : op.mid ≠ mid) (ops : List Op) :
    commandsOn mid (ops ++ [op]) = commandsOn mid ops := by
  simp [commandsOn, h]

/-- The encoder reads the sequence count modulo 2 ^ 14. -/
theorem cmdBytes_emod (mid : ℤ) (code : ℕ) (payload : Bytes) (seqCount : ℤ) :
    cmdBytes mid code payload (seqCount % 16384) = cmdBytes mid code payload seqCount := by
  simp only [cmdBytes, primaryBytes, Int.emod_emod]

theorem Numbered.raised {ops : List Op} {s : CommandDispatcher} (h : Numbered ops s) {op : Op}
    {e : PyException} (hp : op.payload = .error e) : Numbered (ops ++ [op]) s where
  seqCounts mid := by rw [commandsOn_raised hp, h.seqCounts]
  sentOn mid := by rw [packetsOn, commandsOn_raised hp, h.sentOn, packetsOn]
  history := h.history

theorem Numbered.sent {ops : List Op} {s : CommandDispatcher} (h : Numbered ops s) {op : Op}
    {payload : Bytes} (hp : op.payload = .ok payload) (hrange : op.InRange) (n : ℕ) :
    Numbered (ops ++ [op]) (s.send op.mid op.funcCode payload (.ok n)).2 := by
  obtain ⟨hfits, hcode⟩ := Op.cmdFits hrange hp
  have hseq := h.seqCounts op.mid
  rw [CommandDispatcher.send_ok hfits]
  constructor
  · intro mid
    by_cases hmid : op.mid = mid
    · subst hmid
      simp [commandsOn_self hp, hseq]
    · simp [commandsOn_other hmid, Ne.symm hmid, h.seqCounts mid]
  · intro mid
    have hold := h.sentOn mid
    unfold CommandDispatcher.sentOn packetsOn at hold ⊢
    rw [List.filter_append, hold]
    by_cases hmid : op.mid = mid
    · subst hmid
      rw [commandsOn_self hp, List.mapIdx_concat, hseq, cmdBytes_emod]
      simp [CommandDispatcher.packetMid_cmdBytes hfits]
    · rw [commandsOn_other hmid]
      simp [CommandDispatcher.packetMid_cmdBytes hfits, hmid]
  · refine List.rel_append h.history (.cons ?_ .nil)
    refine CommandDispatcher.recordMatches_send hfits hcode ?_ n
    rw [hseq, Int.emod_emod]

/-- One more call keeps the numbering. -/
theorem Numbered.call {ops : List Op} {s : CommandDispatcher} (h : Numbered ops s) {turn : Turn}
    (hturn : turn.Succeeds) : Numbered (ops ++ [turn.op]) (s.call turn).2 := by
  obtain ⟨hrange, hsent⟩ := hturn
  rw [CommandDispatcher.call_eq]
  cases hp : turn.op.payload with
  | error e => exact h.raised hp
  | ok payload =>
    cases hn : turn.sendto with
    | error e =>
      rw [hn] at hsent
      cases hsent
    | ok n => exact h.sent hp hrange n

theorem numbered_run {turns : List Turn} (h : ∀ turn ∈ turns, turn.Succeeds) :
    Numbered (turns.map Turn.op) (CommandDispatcher.run turns) := by
  induction turns using List.reverseRecOn with
  | nil => exact numbered_init
  | append_singleton turns turn ih =>
    have hrun := ih fun t ht => h t (by simp [ht])
    have hturn := h turn (by simp)
    rw [List.map_append, CommandDispatcher.run, List.foldl_append]
    exact hrun.call hturn

/-! ### Whole runs -/

/-- Only the operations on a message ID decide what is sent on it. -/
theorem commandsOn_filter (mid : ℤ) (ops : List Op) :
    commandsOn mid (ops.filter fun op => op.mid = mid) = commandsOn mid ops := by
  induction ops with
  | nil => rfl
  | cons op ops ih =>
    unfold commandsOn at ih ⊢
    by_cases hmid : op.mid = mid
    · rw [List.filter_cons_of_pos (by simp [hmid]), List.filterMap_cons, List.filterMap_cons, ih]
    · rw [List.filter_cons_of_neg (by simp [hmid]), List.filterMap_cons, ih]
      simp [hmid]

theorem cmdFits_of_mem_commandsOn {mid : ℤ} {ops : List Op} (h : ∀ op ∈ ops, op.InRange)
    {command : ℤ × Bytes} (hc : command ∈ commandsOn mid ops) : CmdFits mid command.2 := by
  obtain ⟨op, hop, hsome⟩ := List.mem_filterMap.mp hc
  split_ifs at hsome with hmid
  cases hp : op.payload with
  | error e =>
    rw [hp] at hsome
    cases hsome
  | ok payload =>
    rw [hp] at hsome
    cases hsome
    rw [← hmid]
    exact (Op.cmdFits (h op hop) hp).1

/-- The k-th packet on a message ID carries the number k modulo 2 ^ 14. -/
theorem seqCount_packetsOn {mid : ℤ} {ops : List Op} (h : ∀ op ∈ ops, op.InRange) {k : ℕ}
    {packet : Bytes} (hk : (packetsOn mid ops)[k]? = some packet) :
    ∃ info, unpackCmdPacket packet = .ok info ∧ info.seqCount = k % 2 ^ 14 := by
  rw [packetsOn, List.getElem?_mapIdx, Option.map_eq_some_iff] at hk
  obtain ⟨command, hcommand, rfl⟩ := hk
  have hfits := cmdFits_of_mem_commandsOn h (List.mem_of_getElem? hcommand)
  have hlt : (command.1 % 128).toNat < 128 := by omega
  refine ⟨_, unpackCmdPacket_cmdBytes hfits hlt k, ?_⟩
  change (49152 + (k : ℤ) % 16384) % 16384 = k % 16384
  omega

/-- The packets on each message ID are those of its operations, numbered
consecutively modulo 2 ^ 14, the history logs every packet as it decodes, and
other message IDs have no influence. -/
theorem run_numbering (turns : List Turn) (h : ∀ turn ∈ turns, turn.Succeeds) :
    let final := CommandDispatcher.run turns
    (∀ mid, final.sentOn mid = packetsOn mid (turns.map Turn.op)) ∧
      (∀ (mid : ℤ) (k : ℕ) (packet : Bytes), (final.sentOn mid)[k]? = some packet →
        ∃ info, unpackCmdPacket packet = .ok info ∧ info.seqCount = k % 2 ^ 14) ∧
      List.Forall₂ RecordMatches final.history final.transmitted ∧
      (∀ turns' : List Turn, (∀ turn ∈ turns', turn.Succeeds) → ∀ mid : ℤ,
        ((turns.map Turn.op).filter fun op => op.mid = mid) =
            ((turns'.map Turn.op).filter fun op => op.mid = mid) →
          final.sentOn mid = (CommandDispatcher.run turns').sentOn mid) := by
  intro final
  have hnum := numbered_run h
  refine ⟨hnum.sentOn, ?_, hnum.history, ?_⟩
  · intro mid k packet hk
    have hrange : ∀ op ∈ turns.map Turn.op, op.InRange := by
      intro op hop
      obtain ⟨turn, hturn, rfl⟩ := List.mem_map.mp hop
      exact (h turn hturn).1
    rw [hnum.sentOn mid] at hk
    exact seqCount_packetsOn hrange hk
  · intro turns' h' mid hops
    have hnum' := numbered_run h'
    rw [hnum.sentOn mid, hnum'.sentOn mid, packetsOn, packetsOn, ← commandsOn_filter, hops,
      commandsOn_filter]

/-- An open and a close around a packet to TO_LAB. -/
def operatorTurns : List Turn :=
  [⟨.openArray, .ok 8⟩, ⟨.enableTelemetryOutput "10.0.0.2", .ok 24⟩, ⟨.closeArray, .ok 8⟩]

theorem run_numbering_operator :
    List.Forall₂ RecordMatches (CommandDispatcher.run operatorTurns).history
        (CommandDispatcher.run operatorTurns).transmitted ∧
      (CommandDispatcher.run operatorTurns).sentOn Mid.solarArrayApp =
        [[0x18, 0x90, 0xC0, 0x00, 0x00, 0x01, 0x05, 0xB3],
          [0x18, 0x90, 0xC0, 0x01, 0x00, 0x01, 0x06, 0xB1]] ∧
      (CommandDispatcher.run operatorTurns).sentOn Mid.solarArrayApp =
        (CommandDispatcher.run [⟨.openArray, .ok 8⟩, ⟨.closeArray, .ok 8⟩]).sentOn
          Mid.solarArrayApp := by
  obtain ⟨hsent, _, hhistory, hother⟩ := run_numbering operatorTurns (by decide)
  exact ⟨hhistory, (hsent _).trans (by decide), hother _ (by decide) _ rfl⟩

end CfsBridge.Dispatcher
