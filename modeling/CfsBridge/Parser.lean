import CfsBridge.CcsdsUtils

/-!
# The telemetry parser

`parse_packet` and its EVS text scanner. The parsed dictionary is a record of
optional keys. What a datagram says on the wire is stated separately, by
message ID, length and byte offsets, and the parser is proved to report
exactly that for every byte string.
-/
namespace CfsBridge.Parser
open Bytes Python CcsdsUtils
open Ieee (Binary32)

def tlmMidRad : ℤ := 0x0882
def tlmMidTherm : ℤ := 0x0883
def cfeEvsLongEventMsgMid : ℤ := 0x0808

/-- The values of the `type` key. -/
inductive PacketType
  | radiation
  | thermal
  | evs
  | unknown
  deriving DecidableEq, Repr

/-- The string that stands for a type in the dictionary. -/
def PacketType.name : PacketType → String
  | radiation => "radiation"
  | thermal => "thermal"
  | evs => "evs"
  | unknown => "unknown"

/-- The dictionary `parse_packet` returns; a key that is not set is `none`. The
seven primary header keys are always set together. -/
structure ParsedPacket where
  header : Option CcsdsPrimaryHeader := none
  mid : Option ℤ := none
  midHex : Option String := none
  seconds : Option ℤ := none
  subseconds : Option ℤ := none
  type : Option PacketType := none
  value : Option Binary32 := none
  health : Option ℕ := none
  healthLabel : Option String := none
  eventText : Option String := none
  payloadHex : Option String := none
  raw : Option String := none
  deriving DecidableEq, Repr

def healthLabels : ℕ → String
  | 0 => "NOMINAL"
  | 1 => "WARNING"
  | 2 => "CRITICAL"
  | _ => "UNKNOWN"

def printable (b : UInt8) : Bool := 32 ≤ b && b < 127

def toChar (b : UInt8) : Char := Char.ofNat b.toNat

theorem toChar_ofNat {c : Char} (h : c.toNat < 256) : toChar (UInt8.ofNat c.toNat) = c := by
  rw [toChar, UInt8.toNat_ofNat', Nat.mod_eq_of_lt h, Char.ofNat_toNat]

/-- The bytes of a text read back as its characters. -/
theorem map_toChar_asciiBytes {s : String} (h : ∀ c ∈ s.toList, c.toNat < 256) :
    (asciiBytes s).map toChar = s.toList := by
  rw [asciiBytes, List.map_map]
  have hback : ∀ c ∈ s.toList, (toChar ∘ fun c => UInt8.ofNat c.toNat) c = c :=
    fun c hc => toChar_ofNat (h c hc)
  rw [List.map_congr_left hback, List.map_id']

/-- The loop of `_parse_evs`, with the text collected so far. -/
def scanText (text : List Char) : Bytes → List Char
  | [] => text
  | b :: rest =>
    if printable b then scanText (text ++ [toChar b]) rest
    else if text ≠ [] ∧ b = 0 then text
    else if text ≠ [] then scanText (text ++ [' ']) rest
    else scanText text rest

/-- `_parse_evs`. -/
def parseEvs (payload : Bytes) : String :=
  let txt := strip (scanText [] payload)
  if txt ≠ [] then String.ofList txt else hex payload

/-- The branch of `parse_packet` for one sensor message. -/
def parseSensor (type : PacketType) (result : ParsedPacket) (payload : Bytes) :
    Except PyException ParsedPacket := do
  let value ← unpackFloatLE (payload.take 4)
  let health := if payload.length > 4 then (payload.getD 4 0).toNat else 0
  return { result with
    type := some type
    value := some value
    health := some health
    healthLabel := some (healthLabels health) }

def parsePacket (data : Bytes) : Except PyException ParsedPacket :=
  match unpackPrimaryHeader data with
  | .error _ => return { raw := some (hex data) }
  | .ok pri => do
    let mid ← unpackH (data.take 2)
    let result : ParsedPacket :=
      { header := some pri, mid := some mid, midHex := some (hex04X mid.toNat) }
    match unpackTlmPacket data with
    | .error _ => return { result with raw := some (hex data) }
    | .ok tlm =>
      let result := { result with seconds := some tlm.seconds, subseconds := some tlm.subseconds }
      let payload := tlm.payload
      if mid = tlmMidRad ∧ payload.length ≥ 4 then parseSensor .radiation result payload
      else if mid = tlmMidTherm ∧ payload.length ≥ 4 then parseSensor .thermal result payload
      else if mid = cfeEvsLongEventMsgMid then
        return { result with type := some .evs, eventText := some (parseEvs payload) }
      else return { result with type := some .unknown, payloadHex := some (hex payload) }

/-! ### What a datagram says -/

/-- The content of a telemetry datagram, read at its byte offsets. -/
inductive Telemetry
  | radiation (value : Binary32) (health : ℕ)
  | thermal (value : Binary32) (health : ℕ)
  | evs (text : String)
  | unknown (payload : Bytes)
  | headerOnly
  | short
  deriving DecidableEq, Repr

/-- The first word of a datagram. -/
def streamWord (data : Bytes) : ℤ := unpackUnsigned (slice 0 2 data)

theorem unpackH_streamWord {data : Bytes} (h : 2 ≤ data.length) :
    unpackH (data.take 2) = .ok (streamWord data) := by
  unfold unpackH
  rw [if_pos (by rw [List.length_take, min_eq_left h])]
  rfl

/-- The little-endian float at offset 16. -/
def patternAt (data : Bytes) : Binary32 := BitVec.ofNat 32 (ofLE (slice 16 20 data))

/-- A sensor reading: the float, widened to a double, and its health byte, zero
when the datagram ends before it. -/
def readingAt (data : Bytes) : Binary32 × ℕ :=
  ((patternAt data).quiet, (data.getD 20 0).toNat)

def Telemetry.ofDatagram (data : Bytes) : Telemetry :=
  if data.length < 6 then .short
  else if data.length < 16 then .headerOnly
  else if streamWord data = tlmMidRad ∧ 20 ≤ data.length then
    .radiation (readingAt data).1 (readingAt data).2
  else if streamWord data = tlmMidTherm ∧ 20 ≤ data.length then
    .thermal (readingAt data).1 (readingAt data).2
  else if streamWord data = cfeEvsLongEventMsgMid then .evs (parseEvs (data.drop 16))
  else .unknown (data.drop 16)

/-- The keys that come from the primary header. -/
def headerKeys (data : Bytes) : ParsedPacket where
  header := some (headerAt data)
  mid := some (streamWord data)
  midHex := some (hex04X (streamWord data).toNat)

/-- The keys that come from the telemetry header. -/
def telemetryKeys (data : Bytes) : ParsedPacket :=
  { headerKeys data with
    seconds := some (unpackUnsigned (slice 6 10 data))
    subseconds := some (unpackUnsigned (slice 10 12 data)) }

/-- The dictionary that reports a datagram's content. -/
def report (data : Bytes) : Telemetry → ParsedPacket
  | .radiation value health =>
    { telemetryKeys data with
      type := some .radiation
      value := some value
      health := some health
      healthLabel := some (healthLabels health) }
  | .thermal value health =>
    { telemetryKeys data with
      type := some .thermal
      value := some value
      health := some health
      healthLabel := some (healthLabels health) }
  | .evs text => { telemetryKeys data with type := some .evs, eventText := some text }
  | .unknown payload =>
    { telemetryKeys data with type := some .unknown, payloadHex := some (hex payload) }
  | .headerOnly => { headerKeys data with raw := some (hex data) }
  | .short => { raw := some (hex data) }

theorem parseSensor_ok (type : PacketType) (result : ParsedPacket) {data : Bytes}
    (h : 20 ≤ data.length) :
    parseSensor type result (data.drop 16) = .ok { result with
      type := some type
      value := some (readingAt data).1
      health := some (readingAt data).2
      healthLabel := some (healthLabels (readingAt data).2) } := by
  have hvalue : (data.drop 16).take 4 = slice 16 20 data := by rw [slice, List.drop_take]
  have hlen : (slice 16 20 data).length = 4 := slice_length_of_le h 16
  have hhealth : (if (data.drop 16).length > 4 then ((data.drop 16).getD 4 0).toNat else 0) =
      (data.getD 20 0).toNat := by
    rw [List.length_drop]
    split_ifs with hlong
    · simp
    · have hend : data.length = 20 := by omega
      simp [List.getD_eq_getElem?_getD, hend]
  unfold parseSensor unpackFloatLE
  rw [hvalue, if_pos hlen, ok_bind, hhealth]
  rfl

/-- The parser never raises, and reports the content of every datagram. -/
theorem parsePacket_ok (data : Bytes) :
    parsePacket data = .ok (report data (.ofDatagram data)) := by
  unfold parsePacket Telemetry.ofDatagram
  by_cases hshort : data.length < 6
  · obtain ⟨msg, hmsg⟩ := CcsdsPrimaryHeader.unpack_short hshort
    rw [unpackPrimaryHeader, hmsg, if_pos hshort]
    rfl
  rw [unpackPrimaryHeader_ok (by omega), if_neg hshort]
  simp only [unpackH_streamWord (show 2 ≤ data.length by omega), ok_bind]
  by_cases htlm : data.length < 16
  · obtain ⟨msg, hmsg⟩ := unpackTlmPacket_short htlm
    rw [hmsg, if_pos htlm]
    rfl
  rw [unpackTlmPacket_ok (by omega), if_neg htlm]
  have hpayload : (data.drop 16).length ≥ 4 ↔ 20 ≤ data.length := by
    rw [List.length_drop]
    omega
  simp only [hpayload]
  split_ifs with hrad htherm hevs
  · exact parseSensor_ok .radiation _ hrad.2
  · exact parseSensor_ok .thermal _ htherm.2
  · rfl
  · rfl

end CfsBridge.Parser
