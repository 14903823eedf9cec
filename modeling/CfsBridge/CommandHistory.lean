import CfsBridge.SendFailures

/-!
# The command history

What a history record says against what was commanded: its fields against the
transmitted packet as it decodes, and its names against the operation that made
it. The packet keeps seven bits of the function code, and the name table is
keyed by the code alone.
-/
namespace CfsBridge.CommandHistory
open Bytes Python CcsdsUtils MissionRegistry Dispatcher

/-! ### Records and packets -/

/-- Every counter of the dispatcher fits in 14 bits. -/
def Counted (s : CommandDispatcher) : Prop :=
  ∀ mid, 0 ≤ (s.seqCounts mid).getD 0 ∧ (s.seqCounts mid).getD 0 < 2 ^ 14

theorem counted_run (turns : List Turn) : Counted (CommandDispatcher.run turns) := by
  intro mid
  rw [(SendFailures.attempted_run turns).seqCounts mid]
  omega

/-- From every reachable state, a send that returns records its arguments, and
its packet decodes to the record except that the function code is reduced to
seven bits. -/
theorem logged_command :
    (∀ turns, Counted (CommandDispatcher.run turns)) ∧
    ∀ (s s' : CommandDispatcher) (mid funcCode : ℤ) (payload : Bytes)
      (sendto : Except PyException ℕ) (n : ℕ), Counted s →
      s.send mid funcCode payload sendto = (.ok n, s') →
      ∃ record packet info,
        s'.history = s.history ++ [record] ∧ s'.transmitted = s.transmitted ++ [packet] ∧
        unpackCmdPacket packet = .ok info ∧
        record.mid = mid ∧ record.funcCode = funcCode ∧ record.payloadHex = hex payload ∧
        info.streamId = record.mid ∧ info.seqCount = record.seq ∧ info.payload = payload ∧
        info.funcCode = funcCode % 2 ^ 7 ∧
        (info.funcCode = record.funcCode ↔ 0 ≤ funcCode ∧ funcCode ≤ 127) := by
  refine ⟨counted_run, ?_⟩
  intro s s' mid funcCode payload sendto n hcounted hsend
  rw [CommandDispatcher.send_eq] at hsend
  split_ifs at hsend with hfits
  · cases sendto with
    | error e => cases hsend
    | ok m =>
      cases hsend
      have hseq := hcounted mid
      have hcode : (funcCode % 128).toNat < 128 := by omega
      have hmid := hfits.1
      refine ⟨_, _, _, rfl, rfl, unpackCmdPacket_cmdBytes hfits hcode _, rfl, rfl,
        CommandDispatcher.payloadHex_recordOf _ _ _ _ _,
        CcsdsPrimaryHeader.streamId_ofWords hmid.1 (by omega) _ _, ?_, rfl, ?_, ?_⟩
      · change (49152 + (s.seqCounts mid).getD 0 % 16384) % 16384 = (s.seqCounts mid).getD 0
        omega
      · change ((funcCode % 128).toNat : ℤ) = funcCode % 128
        omega
      · change ((funcCode % 128).toNat : ℤ) = funcCode ↔ _
        omega
  · cases hsend

/-- Code 133 to the Solar Array is logged as 133 and transmitted as 5, which is Open. -/
theorem logged_command_aliased : ∃ s' packet info,
    CommandDispatcher.init.send Mid.solarArrayApp 133 [] (.ok 8) = (.ok 8, s') ∧
      s'.transmitted = [packet] ∧ unpackCmdPacket packet = .ok info ∧
      s'.history.map CommandRecord.funcCode = [133] ∧ info.funcCode = Fc.solarArrayOpen := by
  have hfits : CmdFits Mid.solarArrayApp [] := by decide
  have hsend := CommandDispatcher.send_ok hfits 133 8 .init
  exact ⟨_, _, _, hsend, rfl, unpackCmdPacket_cmdBytes hfits (by decide) _, rfl, rfl⟩

theorem logged_command_open : ∃ s' packet info,
    CommandDispatcher.init.send Mid.solarArrayApp 5 [] (.ok 8) = (.ok 8, s') ∧
      s'.transmitted = [packet] ∧ unpackCmdPacket packet = .ok info ∧ info.funcCode = 5 := by
  have hsend := CommandDispatcher.send_ok (show CmdFits Mid.solarArrayApp [] by decide) 5 8 .init
  obtain ⟨record, packet, info, _, htransmitted, hunpack, _, _, _, _, _, _, hcode, _⟩ :=
    logged_command.2 .init _ Mid.solarArrayApp 5 [] (.ok 8) 8 (logged_command.1 []) hsend
  exact ⟨_, packet, info, hsend, htransmitted, hunpack, hcode⟩

/-! ### Names -/

/-- The functions that the registry names. -/
inductive NamedFunction
  | noop
  | reset
  | sendData
  | solarArrayOpen
  | solarArrayClose
  | toLabOutputEnable
  deriving DecidableEq, Repr

def NamedFunction.name : NamedFunction → String
  | .noop => "NOOP"
  | .reset => "RESET"
  | .sendData => "SEND_DATA"
  | .solarArrayOpen => "SOLAR_ARRAY_OPEN"
  | .solarArrayClose => "SOLAR_ARRAY_CLOSE"
  | .toLabOutputEnable => "TO_LAB_OUTPUT_ENABLE"

/-- The owner of a message ID; one that the registry does not assign goes by its number. -/
def ownerName (mid : ℤ) : String :=
  if mid = Mid.toLabCmd then "TO_LAB_CMD"
  else if mid = Mid.radiationApp then "RADIATION_APP"
  else if mid = Mid.thermalApp then "THERMAL_APP"
  else if mid = Mid.solarArrayApp then "SOLAR_ARRAY_APP"
  else if mid = Mid.radAppTlm then "RAD_APP_TLM"
  else if mid = Mid.thermAppTlm then "THERM_APP_TLM"
  else if mid = Mid.toLabTlm then "TO_LAB_TLM"
  else if mid = Mid.cfeEvsTlm then "CFE_EVS_TLM"
  else hex04X mid.toNat

/-- The functions that every application has. -/
inductive Common
  | noop
  | reset
  | sendData
  deriving DecidableEq, Repr

def Common.funcCode : Common → ℤ
  | .noop => Fc.noop
  | .reset => Fc.reset
  | .sendData => Fc.sendData

def Common.function : Common → NamedFunction
  | .noop => .noop
  | .reset => .reset
  | .sendData => .sendData

/-- The operations with a name. -/
inductive NamedOp
  | openArray
  | closeArray
  | enableTelemetryOutput (destIp : String)
  | common (mid : ℤ) (function : Common) (payload : Bytes)
  deriving DecidableEq

namespace NamedOp

def op : NamedOp → Op
  | .openArray => .openArray
  | .closeArray => .closeArray
  | .enableTelemetryOutput destIp => .enableTelemetryOutput destIp
  | .common mid function payload => .send mid function.funcCode payload

def function : NamedOp → NamedFunction
  | .openArray => .solarArrayOpen
  | .closeArray => .solarArrayClose
  | .enableTelemetryOutput _ => .toLabOutputEnable
  | .common _ function _ => function.function

/-- The application an operation is addressed to. -/
def appName : NamedOp → String
  | .openArray => "SOLAR_ARRAY_APP"
  | .closeArray => "SOLAR_ARRAY_APP"
  | .enableTelemetryOutput _ => "TO_LAB_CMD"
  | .common mid _ _ => ownerName mid

end NamedOp

/-- One named operation, with the outcome of the `sendto` it may reach. -/
structure NamedTurn where
  op : NamedOp
  sendto : Except PyException ℕ

/-- One call; an operation that returns is added to those executed. -/
def callNamed (acc : CommandDispatcher × List NamedOp) (turn : NamedTurn) :
    CommandDispatcher × List NamedOp :=
  match acc.1.call ⟨turn.op.op, turn.sendto⟩ with
  | (.ok _, s) => (s, acc.2 ++ [turn.op])
  | (.error _, s) => (s, acc.2)

/-- A run of named operations on a new dispatcher, and the ones that succeeded. -/
def runNamed (turns : List NamedTurn) : CommandDispatcher × List NamedOp :=
  turns.foldl callNamed (.init, [])

/-- The names under which a record is displayed. -/
def displayed (record : CommandRecord) : String × String := (record.midName, record.fcName)

/-- The names under which an operation is displayed: the table gives code 6 to TO_LAB. -/
def NamedOp.displayedAs (op : NamedOp) : String × String :=
  (op.appName, if op.function = .solarArrayClose then NamedFunction.toLabOutputEnable.name
    else op.function.name)

/-- Only a close is displayed under another name than its own. -/
theorem NamedOp.displayedAs_eq_iff (op : NamedOp) :
    op.displayedAs = (op.appName, op.function.name) ↔ op ≠ .closeArray := by
  cases op with
  | common mid function payload =>
    cases function <;> simp [displayedAs, NamedOp.function, Common.function]
  | _ => simp [displayedAs, function, NamedFunction.name]

theorem midName_eq (mid : ℤ) : (dictGet midName mid).getD (hex04X mid.toNat) = ownerName mid := by
  unfold ownerName
  split_ifs with h0 h1 h2 h3 h4 h5 h6 h7
  case neg =>
    have hnone : dictGet midName mid = none := by
      simp [dictGet, midName, List.lookup_cons, h0, h1, h2, h3, h4, h5, h6, h7,
        beq_eq_false_iff_ne.mpr]
    rw [hnone, Option.getD_none]
  all_goals
    subst mid
    rfl

theorem displayed_recordOf (op : NamedOp) (payload : Bytes) (seq : ℤ) (n : ℕ) :
    displayed (recordOf op.op.mid op.op.funcCode payload seq n) = op.displayedAs := by
  have hmid : (dictGet midName op.op.mid).getD (hex04X op.op.mid.toNat) = op.appName := by
    rw [midName_eq]
    cases op <;> rfl
  have hcode : (dictGet fcName op.op.funcCode).getD (toString op.op.funcCode) =
      op.displayedAs.2 := by
    cases op with
    | common mid function payload => cases function <;> rfl
    | _ => rfl
  exact Prod.ext hmid hcode

/-- One named call adds a record and an executed operation, or neither. -/
theorem callNamed_cases (acc : CommandDispatcher × List NamedOp) (turn : NamedTurn) :
    (∃ payload seq n, turn.sendto.toBool = true ∧
        (callNamed acc turn).1.history =
          acc.1.history ++ [recordOf turn.op.op.mid turn.op.op.funcCode payload seq n] ∧
        (callNamed acc turn).2 = acc.2 ++ [turn.op]) ∨
      ((callNamed acc turn).1.history = acc.1.history ∧ (callNamed acc turn).2 = acc.2 ∧
        (turn.op = .closeArray → turn.sendto.toBool = false)) := by
  obtain ⟨s, executed⟩ := acc
  obtain ⟨op, sendto⟩ := turn
  unfold callNamed
  rw [CommandDispatcher.call_eq]
  cases hpayload : op.op.payload with
  | error e =>
    refine .inr ⟨rfl, rfl, ?_⟩
    rintro rfl
    cases hpayload
  | ok payload =>
    simp only [CommandDispatcher.send_eq]
    by_cases hfits : CmdFits op.op.mid payload
    · rw [if_pos hfits]
      cases sendto with
      | error e => exact .inr ⟨rfl, rfl, fun _ => rfl⟩
      | ok n => exact .inl ⟨payload, _, n, rfl, rfl, rfl⟩
    · rw [if_neg hfits]
      refine .inr ⟨rfl, rfl, ?_⟩
      rintro rfl
      cases hpayload
      exact absurd (by decide) hfits

/-- The history displays the executed operations, a close as the code it shares,
and no close is executed exactly when the socket fails them all. -/
theorem runNamed_history (turns : List NamedTurn) :
    (runNamed turns).1.history.map displayed = (runNamed turns).2.map NamedOp.displayedAs ∧
      (.closeArray ∉ (runNamed turns).2 ↔
        ∀ turn ∈ turns, turn.op = .closeArray → turn.sendto.toBool = false) := by
  induction turns using List.reverseRecOn with
  | nil => simp [runNamed, CommandDispatcher.init]
  | append_singleton turns turn ih =>
    obtain ⟨hnames, hclose⟩ := ih
    have hrun : runNamed (turns ++ [turn]) = callNamed (runNamed turns) turn := by
      rw [runNamed, List.foldl_append]
      rfl
    rw [hrun]
    rcases callNamed_cases (runNamed turns) turn with
      ⟨payload, seq, n, hsent, hhistory, hexecuted⟩ | ⟨hhistory, hexecuted, hfailed⟩
    · constructor
      · rw [hhistory, hexecuted, List.map_append, List.map_append, hnames]
        simp [displayed_recordOf]
      · rw [hexecuted, List.forall_mem_append, List.mem_append, not_or, hclose,
          List.mem_singleton, List.forall_mem_singleton, hsent]
        refine and_congr_right fun _ => ⟨fun hne heq => absurd heq.symm hne, fun h heq => ?_⟩
        cases h heq.symm
    · rw [hhistory, hexecuted]
      refine ⟨hnames, ?_⟩
      rw [hclose, List.forall_mem_append, List.forall_mem_singleton]
      exact (and_iff_left hfailed).symm

theorem NamedFunction.name_injective : Function.Injective NamedFunction.name := by
  intro f g h
  cases f <;> cases g <;> first | rfl | (revert h; decide)

/-- The history names every executed operation by its own names, and no two
functions alike, exactly when no `close_array` of the run is sent. -/
theorem history_names_iff (turns : List NamedTurn) :
    ((runNamed turns).1.history.map (fun record => (record.midName, record.fcName)) =
        (runNamed turns).2.map (fun op => (op.appName, op.function.name)) ∧
      ∀ (i j : ℕ) (a b : NamedOp) (r q : CommandRecord),
        (runNamed turns).2[i]? = some a → (runNamed turns).2[j]? = some b →
        (runNamed turns).1.history[i]? = some r → (runNamed turns).1.history[j]? = some q →
        r.fcName = q.fcName → a.function = b.function) ↔
      ∀ turn ∈ turns, turn.op = .closeArray → turn.sendto.toBool = false := by
  obtain ⟨hnames, hclose⟩ := runNamed_history turns
  rw [← hclose]
  generalize runNamed turns = final at hnames ⊢
  obtain ⟨s, executed⟩ := final
  have hmap : s.history.map (fun record => (record.midName, record.fcName)) =
      executed.map NamedOp.displayedAs := hnames
  constructor
  · rintro ⟨heq, _⟩ hmem
    rw [hmap, List.map_inj_left] at heq
    exact (NamedOp.displayedAs_eq_iff _).mp (heq _ hmem) rfl
  · intro hnone
    have heq : executed.map NamedOp.displayedAs =
        executed.map fun op => (op.appName, op.function.name) := by
      refine List.map_congr_left fun op hop => op.displayedAs_eq_iff.mpr ?_
      rintro rfl
      exact hnone hop
    refine ⟨hmap.trans heq, fun i j a b r q ha hb hr hq hname => ?_⟩
    have hfc (k : ℕ) (op : NamedOp) (record : CommandRecord) (hop : executed[k]? = some op)
        (hrecord : s.history[k]? = some record) : record.fcName = op.function.name := by
      have hk := congrArg (fun names => names[k]?) (hmap.trans heq)
      simp only [List.getElem?_map, hop, hrecord, Option.map_some, Option.some.injEq] at hk
      exact congrArg Prod.snd hk
    refine NamedFunction.name_injective ?_
    rw [← hfc i a r ha hr, ← hfc j b q hb hq, hname]

/-- A close is displayed as the command that enables telemetry. -/
theorem close_displayed_as_enable :
    ((runNamed [⟨.closeArray, .ok 8⟩]).1.history.map fun record =>
        (record.midName, record.fcName)) = [("SOLAR_ARRAY_APP", "TO_LAB_OUTPUT_ENABLE")] ∧
      (runNamed [⟨.closeArray, .ok 8⟩]).2 = [.closeArray] := by
  decide +kernel

end CfsBridge.CommandHistory
