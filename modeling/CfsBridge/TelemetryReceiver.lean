import CfsBridge.Parser
import CfsBridge.RingBuffer

/-!
# The telemetry receiver

The receive loop of `TelemetryReceiver`, over an arbitrary script of socket
outcomes. Callbacks act on a world of their own and may raise on any entry.
One datagram of at least six bytes is one entry: it is counted, buffered and
offered to every callback in turn, and nothing in it can end the loop.
-/
namespace CfsBridge.TelemetryReceiver
open Bytes Python CcsdsUtils
open CfsBridge.Parser

/-- Seconds since the epoch. -/
abbrev Timestamp := ℚ

structure RawTelemetryEntry where
  timestamp : Timestamp
  mid : ℤ
  rawHex : String
  parsed : ParsedPacket
  size : ℕ
  deriving DecidableEq

/-- `_parse_packet`, with the fallback dictionary and the two `setdefault` calls. -/
def parsePacketMid (mid : ℤ) (data : Bytes) : ParsedPacket :=
  let parsed := match parsePacket data with
    | .ok parsed => parsed
    | .error _ =>
      { raw := some (hex data), mid := some mid, midHex := some (hex04X mid.toNat) }
  { parsed with
    mid := some (parsed.mid.getD mid)
    midHex := some (parsed.midHex.getD (hex04X mid.toNat)) }

/-- A callback changes the world and returns or raises. -/
abbrev Callback (ω : Type) := RawTelemetryEntry → ω → Except PyException Unit × ω

/-- The receiver's data. `calls` is the trace of callback invocations, each
with the callback's position in `_callbacks`. -/
structure Receiver (ω : Type) where
  buffer : RingBuffer RawTelemetryEntry
  packetsReceived : ℕ
  calls : List (ℕ × RawTelemetryEntry)
  world : ω

namespace Receiver
variable {ω : Type}

def init (bufferSize : ℕ) (world : ω) : Receiver ω where
  buffer := .empty _ bufferSize
  packetsReceived := 0
  calls := []
  world := world

/-- One `cb(entry)`; an exception is logged and goes no further. -/
def invoke (entry : RawTelemetryEntry) (s : Receiver ω) (cb : Callback ω × ℕ) : Receiver ω :=
  let calls := s.calls ++ [(cb.2, entry)]
  match cb.1 entry s.world with
  | (.ok _, world) => { s with calls := calls, world := world }
  | (.error _, world) => { s with calls := calls, world := world }

/-- The loop over `_callbacks`. -/
def invokeAll (callbacks : List (Callback ω)) (entry : RawTelemetryEntry) (s : Receiver ω) :
    Receiver ω := callbacks.zipIdx.foldl (invoke entry) s

/-- The loop body once `recvfrom` has returned `data`, at time `now`. -/
def handle (callbacks : List (Callback ω)) (now : Timestamp) (data : Bytes) (s : Receiver ω) :
    Receiver ω :=
  if data.length < ccsdsPriHdrSize then s
  else match unpackH (data.take 2) with
    | .error _ => s
    | .ok mid =>
      let entry : RawTelemetryEntry :=
        { timestamp := now
          mid := mid
          rawHex := hex data
          parsed := parsePacketMid mid data
          size := data.length }
      let s := { s with
        buffer := s.buffer.append entry
        packetsReceived := s.packetsReceived + 1 }
      s.invokeAll callbacks entry

/-- `get_recent`. -/
def getRecent (s : Receiver ω) (count : ℤ) : List RawTelemetryEntry :=
  sliceFrom (-count) s.buffer.items

end Receiver

/-- What one `recvfrom` call does. -/
inductive RecvOutcome
  | datagram (data : Bytes) (now : Timestamp)
  | timeout
  | osError
  deriving DecidableEq

/-- One turn of the loop: the stop event as the loop head sees it, the outcome
of `recvfrom`, and the stop event as the `OSError` handler sees it. -/
structure LoopTurn where
  stopAtHead : Bool
  outcome : RecvOutcome
  stopInHandler : Bool

inductive LoopStatus
  | running
  | stopped
  | raised
  deriving DecidableEq, Repr

/-- `_listen_loop` after the socket is bound. -/
def listenLoop {ω : Type} (callbacks : List (Callback ω)) :
    List LoopTurn → Receiver ω → LoopStatus × Receiver ω
  | [], s => (.running, s)
  | turn :: turns, s =>
    if turn.stopAtHead then (.stopped, s)
    else match turn.outcome with
      | .datagram data now => listenLoop callbacks turns (s.handle callbacks now data)
      | .timeout => listenLoop callbacks turns s
      | .osError => (if turn.stopInHandler then .stopped else .raised, s)

/-! ### Entries -/

/-- The entry of a datagram received at time `now`. -/
def entryOf (now : Timestamp) (data : Bytes) : RawTelemetryEntry where
  timestamp := now
  mid := streamWord data
  rawHex := hex data
  parsed := parsePacketMid (streamWord data) data
  size := data.length

/-- The receiver adds nothing to a dictionary that already has its message ID. -/
theorem parsePacketMid_eq {data : Bytes} (h : 6 ≤ data.length) (mid : ℤ) :
    parsePacketMid mid data = report data (.ofDatagram data) := by
  have hshort : Telemetry.ofDatagram data ≠ .short := by
    unfold Telemetry.ofDatagram
    split_ifs <;> simp
    omega
  unfold parsePacketMid
  rw [parsePacket_ok]
  cases hcase : Telemetry.ofDatagram data with
  | short => exact absurd hcase hshort
  | _ => rfl

theorem parsed_entryOf {data : Bytes} (h : 6 ≤ data.length) (now : Timestamp) :
    (entryOf now data).parsed = report data (.ofDatagram data) := parsePacketMid_eq h _

namespace Receiver
variable {ω : Type}

/-- The effect of all callbacks on the world, in registration order. -/
def effect (callbacks : List (Callback ω)) (w : ω) (entry : RawTelemetryEntry) : ω :=
  callbacks.foldl (fun w cb => (cb entry w).2) w

theorem invoke_eq (entry : RawTelemetryEntry) (s : Receiver ω) (cb : Callback ω × ℕ) :
    invoke entry s cb =
      { s with calls := s.calls ++ [(cb.2, entry)], world := (cb.1 entry s.world).2 } := by
  unfold invoke
  split <;> simp_all

theorem foldl_invoke (entry : RawTelemetryEntry) (cbs : List (Callback ω × ℕ)) (s : Receiver ω) :
    cbs.foldl (invoke entry) s = { s with
      world := effect (cbs.map Prod.fst) s.world entry
      calls := s.calls ++ cbs.map fun cb => (cb.2, entry) } := by
  induction cbs generalizing s with
  | nil => simp [effect]
  | cons cb cbs ih =>
    rw [List.foldl_cons, ih, invoke_eq]
    simp [effect]

theorem invokeAll_eq (callbacks : List (Callback ω)) (entry : RawTelemetryEntry)
    (s : Receiver ω) :
    s.invokeAll callbacks entry = { s with
      world := effect callbacks s.world entry
      calls := s.calls ++ (List.range callbacks.length).map fun i => (i, entry) } := by
  have hindex : callbacks.zipIdx.map (fun cb => (cb.2, entry)) =
      (List.range callbacks.length).map fun i => (i, entry) := by
    rw [List.range_eq_range', ← List.zipIdx_map_snd 0 callbacks, List.map_map]
    rfl
  rw [invokeAll, foldl_invoke, List.zipIdx_map_fst, hindex]

theorem handle_short (callbacks : List (Callback ω)) (now : Timestamp) {data : Bytes}
    (h : data.length < 6) (s : Receiver ω) : s.handle callbacks now data = s := if_pos h

/-- One datagram of at least six bytes is one entry, for the buffer, the
counter and every callback alike. -/
theorem handle_eq (callbacks : List (Callback ω)) (now : Timestamp) {data : Bytes}
    (h : 6 ≤ data.length) (s : Receiver ω) :
    s.handle callbacks now data = {
      buffer := s.buffer.append (entryOf now data)
      packetsReceived := s.packetsReceived + 1
      calls := s.calls ++ (List.range callbacks.length).map fun i => (i, entryOf now data)
      world := effect callbacks s.world (entryOf now data) } := by
  have hlong : ¬ data.length < ccsdsPriHdrSize := by simp only [ccsdsPriHdrSize]; omega
  unfold handle
  rw [if_neg hlong, unpackH_streamWord (by omega)]
  exact invokeAll_eq callbacks (entryOf now data) _

end Receiver

/-! ### Runs of the loop -/

/-- The turns that the loop goes on past. -/
def LoopTurn.continues (turn : LoopTurn) : Bool :=
  !turn.stopAtHead && decide (turn.outcome ≠ .osError)

/-- The datagram of a turn, when it is long enough for a primary header. -/
def LoopTurn.accepted (turn : LoopTurn) : Option (Bytes × Timestamp) :=
  match turn.outcome with
  | .datagram data now => if ccsdsPriHdrSize ≤ data.length then some (data, now) else none
  | .timeout => none
  | .osError => none

/-- The long enough datagrams before the turn that ends the loop. -/
def accepted (turns : List LoopTurn) : List (Bytes × Timestamp) :=
  (turns.takeWhile LoopTurn.continues).filterMap LoopTurn.accepted

def entriesOf (datagrams : List (Bytes × Timestamp)) : List RawTelemetryEntry :=
  datagrams.map fun datagram => entryOf datagram.2 datagram.1

/-- The calls that hand each entry to each of `n` callbacks in registration order. -/
def callsOf (n : ℕ) (entries : List RawTelemetryEntry) : List (ℕ × RawTelemetryEntry) :=
  entries.flatMap fun entry => (List.range n).map fun i => (i, entry)

/-- The entries one callback is called with. -/
def callsTo (i : ℕ) (calls : List (ℕ × RawTelemetryEntry)) : List RawTelemetryEntry :=
  calls.filterMap fun call => if call.1 = i then some call.2 else none

/-- An entry that keeps the whole of its datagram. -/
structure Records (datagram : Bytes × Timestamp) (entry : RawTelemetryEntry) : Prop where
  timestamp : entry.timestamp = datagram.2
  rawHex : unhex entry.rawHex = some datagram.1
  size : entry.size = datagram.1.length
  mid : entry.mid = ofBE (datagram.1.take 2)

theorem records_entryOf (datagram : Bytes × Timestamp) :
    Records datagram (entryOf datagram.2 datagram.1) where
  timestamp := rfl
  rawHex := unhex_hex _
  size := rfl
  mid := rfl

/-- The receiver after the given entries, whatever the callbacks raised. -/
structure Recorded {ω : Type} (callbacks : List (Callback ω)) (bufferSize : ℕ) (world : ω)
    (entries : List RawTelemetryEntry) (s : Receiver ω) : Prop where
  packetsReceived : s.packetsReceived = entries.length
  maxlen : s.buffer.maxlen = bufferSize
  items : s.buffer.items = entries.rtake bufferSize
  calls : s.calls = callsOf callbacks.length entries
  world : s.world = entries.foldl (Receiver.effect callbacks) world

section Runs
variable {ω : Type} {callbacks : List (Callback ω)} {bufferSize : ℕ} {world : ω}
variable {entries : List RawTelemetryEntry} {s : Receiver ω}

theorem recorded_init : Recorded callbacks bufferSize world [] (.init bufferSize world) where
  packetsReceived := rfl
  maxlen := rfl
  items := by simp [Receiver.init, List.rtake]
  calls := rfl
  world := rfl

/-- One accepted datagram is one more entry. -/
theorem Recorded.handle (h : Recorded callbacks bufferSize world entries s) (now : Timestamp)
    {data : Bytes} (hdata : 6 ≤ data.length) :
    Recorded callbacks bufferSize world (entries ++ [entryOf now data])
      (s.handle callbacks now data) := by
  rw [Receiver.handle_eq callbacks now hdata]
  constructor
  · simp [h.packetsReceived]
  · exact h.maxlen
  · rw [RingBuffer.append_items, h.maxlen, h.items, RingBuffer.rtake_rtake_append]
  · simp [callsOf, h.calls]
  · simp [h.world]

/-- The loop records the accepted datagrams of its turns, in order. -/
theorem Recorded.listenLoop (turns : List LoopTurn)
    (h : Recorded callbacks bufferSize world entries s) :
    Recorded callbacks bufferSize world (entries ++ entriesOf (accepted turns))
      (listenLoop callbacks turns s).2 := by
  induction turns generalizing entries s with
  | nil => simpa [accepted, entriesOf, TelemetryReceiver.listenLoop] using h
  | cons turn turns ih =>
    unfold TelemetryReceiver.listenLoop
    cases hstop : turn.stopAtHead with
    | true => simpa [accepted, entriesOf, LoopTurn.continues, hstop] using h
    | false =>
      cases hout : turn.outcome with
      | timeout =>
        simpa [accepted, entriesOf, LoopTurn.continues, LoopTurn.accepted, hstop, hout] using ih h
      | osError => simpa [accepted, entriesOf, LoopTurn.continues, hstop, hout] using h
      | datagram data now =>
        by_cases hlen : 6 ≤ data.length
        · have hnext := ih (h.handle now hlen)
          rw [List.append_assoc] at hnext
          simpa [accepted, entriesOf, LoopTurn.continues, LoopTurn.accepted, ccsdsPriHdrSize,
            hstop, hout, hlen] using hnext
        · have hskip := Receiver.handle_short callbacks now (by omega : data.length < 6) s
          simpa [accepted, entriesOf, LoopTurn.continues, LoopTurn.accepted, ccsdsPriHdrSize,
            hstop, hout, hlen, hskip] using ih h

/-- Only the stop event and a socket error end the loop. -/
theorem listenLoop_ends (turns : List LoopTurn) (s : Receiver ω) :
    (listenLoop callbacks turns s).1 ≠ .running ↔
      ∃ turn ∈ turns, turn.stopAtHead = true ∨ turn.outcome = .osError := by
  induction turns generalizing s with
  | nil => simp [listenLoop]
  | cons turn turns ih =>
    unfold listenLoop
    cases hstop : turn.stopAtHead with
    | true => simp [hstop]
    | false =>
      cases hout : turn.outcome with
      | datagram data now => simpa [hstop, hout] using ih (s.handle callbacks now data)
      | timeout => simpa [hstop, hout] using ih s
      | osError => cases hhandler : turn.stopInHandler <;> simp [hout]

end Runs

theorem filterMap_range_eq {α : Type} (n i : ℕ) (x : α) :
    (List.range n).filterMap (fun j => if j = i then some x else none) =
      if i < n then [x] else [] := by
  induction n with
  | zero => rfl
  | succ n ih =>
    rw [List.range_succ, List.filterMap_append, ih]
    by_cases hlast : n = i
    · subst hlast
      simp
    · by_cases hlt : i < n
      · simp [hlast, hlt, Nat.lt_succ_of_lt hlt]
      · simp [hlast, hlt, show ¬ i < n + 1 by omega]

/-- Each callback sees every entry once, in order. -/
theorem callsTo_callsOf {n : ℕ} (i : Fin n) (entries : List RawTelemetryEntry) :
    callsTo i (callsOf n entries) = entries := by
  induction entries with
  | nil => rfl
  | cons entry entries ih =>
    have hone : callsTo i ((List.range n).map fun j => (j, entry)) = [entry] := by
      rw [callsTo, List.filterMap_map]
      exact (filterMap_range_eq n i entry).trans (if_pos i.isLt)
    calc callsTo i (callsOf n (entry :: entries))
      _ = callsTo i ((List.range n).map fun j => (j, entry)) ++ callsTo i (callsOf n entries) := by
          simp only [callsTo, callsOf, List.flatMap_cons, List.filterMap_append]
      _ = entry :: entries := by rw [hone, ih, List.singleton_append]

/-- A whole run of the receiver loses, duplicates and reorders nothing. -/
theorem listenLoop_run {ω : Type} (callbacks : List (Callback ω)) (bufferSize : ℕ) (world : ω)
    (turns : List LoopTurn) :
    let final := listenLoop callbacks turns (.init bufferSize world)
    let entries := entriesOf (accepted turns)
    List.Forall₂ Records (accepted turns) entries ∧
      final.2.packetsReceived = (accepted turns).length ∧
      final.2.buffer.items = entries.rtake bufferSize ∧
      final.2.calls = callsOf callbacks.length entries ∧
      (∀ i : Fin callbacks.length, callsTo i final.2.calls = entries) ∧
      final.2.world = entries.foldl (Receiver.effect callbacks) world ∧
      (final.1 ≠ .running ↔
        ∃ turn ∈ turns, turn.stopAtHead = true ∨ turn.outcome = .osError) := by
  intro final entries
  have h : Recorded callbacks bufferSize world entries final.2 := recorded_init.listenLoop turns
  have hrecords : List.Forall₂ Records (accepted turns) entries := by
    apply List.forall₂_map_right_iff.mpr
    exact List.forall₂_same.mpr fun datagram _ => records_entryOf datagram
  refine ⟨hrecords, ?_, h.items, h.calls, ?_, h.world, listenLoop_ends turns _⟩
  · rw [h.packetsReceived]
    exact List.length_map _
  · intro i
    rw [h.calls, callsTo_callsOf]

end CfsBridge.TelemetryReceiver
