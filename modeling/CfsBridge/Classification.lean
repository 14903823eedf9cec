import CfsBridge.CcsdsCodec
import CfsBridge.TelemetryReceiver

/-!
# Packets seen by the telemetry parser

The type of a packet follows from its message ID and its length. The parser
looks at no type bit: it takes a string for telemetry as soon as a telemetry
header fits in it, so what it says of a command packet depends on the length
of the payload only.
-/
namespace CfsBridge.Classification
open Bytes Python CcsdsUtils
open CfsBridge.Parser
open CfsBridge.TelemetryReceiver (parsePacketMid parsePacketMid_eq)

/-! ### Every byte string -/

/-- The dictionary that the length and the message ID of a byte string call for. -/
structure Classified (data : Bytes) (parsed : ParsedPacket) : Prop where
  short : data.length < 6 → parsed = { raw := some (hex data) }
  headerOnly : 6 ≤ data.length → data.length < 16 →
    parsed = { headerKeys data with raw := some (hex data) }
  time : 16 ≤ data.length → parsed.seconds = some (unpackUnsigned (slice 6 10 data)) ∧
    parsed.subseconds = some (unpackUnsigned (slice 10 12 data))
  type_isSome : 16 ≤ data.length → parsed.type.isSome = true
  radiation : 16 ≤ data.length →
    (parsed.type = some .radiation ↔ streamWord data = tlmMidRad ∧ 20 ≤ data.length)
  thermal : 16 ≤ data.length →
    (parsed.type = some .thermal ↔ streamWord data = tlmMidTherm ∧ 20 ≤ data.length)
  evs : 16 ≤ data.length →
    (parsed.type = some .evs ↔ streamWord data = cfeEvsLongEventMsgMid)
  unknown : 16 ≤ data.length → (parsed.type = some .unknown ↔
    ¬ (streamWord data = tlmMidRad ∧ 20 ≤ data.length) ∧
    ¬ (streamWord data = tlmMidTherm ∧ 20 ≤ data.length) ∧
    streamWord data ≠ cfeEvsLongEventMsgMid)
  payloadHex : 16 ≤ data.length → parsed.type = some .unknown →
    parsed.payloadHex = some (hex (data.drop 16))

/-- The type of a packet with a full telemetry header. -/
def typeOf (data : Bytes) : PacketType :=
  if streamWord data = tlmMidRad ∧ 20 ≤ data.length then .radiation
  else if streamWord data = tlmMidTherm ∧ 20 ≤ data.length then .thermal
  else if streamWord data = cfeEvsLongEventMsgMid then .evs
  else .unknown

section Content
variable {data : Bytes}

theorem ofDatagram_short (h : data.length < 6) : Telemetry.ofDatagram data = .short := if_pos h

theorem ofDatagram_headerOnly (h6 : 6 ≤ data.length) (h16 : data.length < 16) :
    Telemetry.ofDatagram data = .headerOnly := by
  rw [Telemetry.ofDatagram, if_neg (by omega), if_pos h16]

theorem ofDatagram_long (h : 16 ≤ data.length) :
    Telemetry.ofDatagram data = match typeOf data with
      | .radiation => .radiation (readingAt data).1 (readingAt data).2
      | .thermal => .thermal (readingAt data).1 (readingAt data).2
      | .evs => .evs (parseEvs (data.drop 16))
      | .unknown => .unknown (data.drop 16) := by
  unfold Telemetry.ofDatagram typeOf
  rw [if_neg (by omega), if_neg (by omega)]
  split_ifs <;> rfl

theorem type_report (h : 16 ≤ data.length) :
    (report data (.ofDatagram data)).type = some (typeOf data) := by
  rw [ofDatagram_long h]
  cases typeOf data <;> rfl

theorem time_report (h : 16 ≤ data.length) :
    (report data (.ofDatagram data)).seconds = some (unpackUnsigned (slice 6 10 data)) ∧
      (report data (.ofDatagram data)).subseconds = some (unpackUnsigned (slice 10 12 data)) := by
  rw [ofDatagram_long h]
  cases typeOf data <;> exact ⟨rfl, rfl⟩

theorem header_report (h : 6 ≤ data.length) :
    (report data (.ofDatagram data)).header = some (headerAt data) ∧
      (report data (.ofDatagram data)).mid = some (streamWord data) := by
  by_cases h16 : data.length < 16
  · rw [ofDatagram_headerOnly h h16]
    exact ⟨rfl, rfl⟩
  · rw [ofDatagram_long (by omega)]
    cases typeOf data <;> exact ⟨rfl, rfl⟩

end Content

/-- The three message IDs that the parser knows are different. -/
theorem mids_ne : tlmMidTherm ≠ tlmMidRad ∧ cfeEvsLongEventMsgMid ≠ tlmMidRad ∧
    cfeEvsLongEventMsgMid ≠ tlmMidTherm := by decide

theorem typeOf_eq_radiation (data : Bytes) :
    typeOf data = .radiation ↔ streamWord data = tlmMidRad ∧ 20 ≤ data.length := by
  unfold typeOf
  split_ifs with hrad <;> simp [hrad]

theorem typeOf_eq_thermal (data : Bytes) :
    typeOf data = .thermal ↔ streamWord data = tlmMidTherm ∧ 20 ≤ data.length := by
  unfold typeOf
  split_ifs with hrad htherm
  · simp [hrad.1, mids_ne.1.symm]
  · simp [htherm]
  · simp [htherm]
  · simp [htherm]

theorem typeOf_eq_evs (data : Bytes) :
    typeOf data = .evs ↔ streamWord data = cfeEvsLongEventMsgMid := by
  unfold typeOf
  split_ifs with hrad htherm hevs
  · simp [hrad.1, mids_ne.2.1.symm]
  · simp [htherm.1, mids_ne.2.2.symm]
  · simp [hevs]
  · simp [hevs]

theorem typeOf_eq_unknown (data : Bytes) :
    typeOf data = .unknown ↔ ¬ (streamWord data = tlmMidRad ∧ 20 ≤ data.length) ∧
      ¬ (streamWord data = tlmMidTherm ∧ 20 ≤ data.length) ∧
      streamWord data ≠ cfeEvsLongEventMsgMid := by
  rw [← typeOf_eq_radiation, ← typeOf_eq_thermal, Ne, ← typeOf_eq_evs]
  cases typeOf data <;> simp

theorem classified_report (data : Bytes) : Classified data (report data (.ofDatagram data)) where
  short h := by rw [ofDatagram_short h, report]
  headerOnly h6 h16 := by rw [ofDatagram_headerOnly h6 h16, report]
  time := time_report
  type_isSome h := by rw [type_report h, Option.isSome_some]
  radiation h := by rw [type_report h, Option.some_inj, typeOf_eq_radiation]
  thermal h := by rw [type_report h, Option.some_inj, typeOf_eq_thermal]
  evs h := by rw [type_report h, Option.some_inj, typeOf_eq_evs]
  unknown h := by rw [type_report h, Option.some_inj, typeOf_eq_unknown]
  payloadHex h htype := by
    rw [type_report h, Option.some_inj] at htype
    rw [ofDatagram_long h, htype, report]

/-- A sensor reading sees the five bytes from offset 16 on and nothing after them. -/
theorem readingAt_congr {data other : Bytes} (h : slice 16 21 data = slice 16 21 other) :
    readingAt data = readingAt other := by
  have hfloat (d : Bytes) : slice 16 20 d = slice 0 4 (slice 16 21 d) :=
    (slice_slice (c := 0) (show 16 + 4 ≤ 21 by decide) d).symm
  have hhealth (d : Bytes) : d.getD 20 0 = (slice 16 21 d).getD 4 0 := by
    simp [slice, List.getD_eq_getElem?_getD]
  rw [readingAt, readingAt, patternAt, patternAt, hfloat data, hfloat other, hhealth data,
    hhealth other, h]

/-- The types that carry a reading. -/
def isSensor : PacketType → Bool
  | .radiation => true
  | .thermal => true
  | .evs => false
  | .unknown => false

theorem reading_report {data : Bytes}
    (h : (report data (.ofDatagram data)).type.any isSensor = true) :
    (report data (.ofDatagram data)).value = some (readingAt data).1 ∧
      (report data (.ofDatagram data)).health = some (readingAt data).2 := by
  by_cases h16 : 16 ≤ data.length
  · rw [type_report h16, Option.any_some] at h
    rw [ofDatagram_long h16]
    cases hcase : typeOf data with
    | radiation => exact ⟨rfl, rfl⟩
    | thermal => exact ⟨rfl, rfl⟩
    | evs => simp [hcase, isSensor] at h
    | unknown => simp [hcase, isSensor] at h
  · by_cases h6 : data.length < 6
    · simp [ofDatagram_short h6, report] at h
    · simp [ofDatagram_headerOnly (by omega) (by omega : data.length < 16), report, headerKeys] at h

/-- The parser returns a dictionary for every byte string, the one its length
and message ID call for. The receiver adds nothing to it and finds the same
message ID, and a reading depends on its five bytes alone. -/
theorem parsePacket_classified (data : Bytes) :
    ∃ parsed, parsePacket data = .ok parsed ∧ Classified data parsed ∧
      (6 ≤ data.length → (∀ mid, parsePacketMid mid data = parsed) ∧
        ∃ header mid, parsed.header = some header ∧ parsed.mid = some mid ∧
          unpackH (data.take 2) = .ok mid ∧
          header.version * 8192 + header.pktType * 4096 + header.secHdrFlag * 2048 +
            header.apid = mid) ∧
      ∀ other reported, parsePacket other = .ok reported →
        slice 16 21 data = slice 16 21 other →
        parsed.type.any isSensor = true → reported.type.any isSensor = true →
        parsed.value = reported.value ∧ parsed.health = reported.health := by
  refine ⟨_, parsePacket_ok data, classified_report data, ?_, ?_⟩
  · intro h6
    have hword := unpackUnsigned_word (show 2 ≤ data.length by omega) (show 2 - 0 = 2 from rfl)
    refine ⟨parsePacketMid_eq h6, headerAt data, streamWord data, (header_report h6).1,
      (header_report h6).2, unpackH_streamWord (by omega), ?_⟩
    simp only [headerAt, CcsdsPrimaryHeader.ofWords, streamWord]
    omega
  · intro other reported hother hslice hsensor hreported
    rw [parsePacket_ok, Except.ok.injEq] at hother
    rw [← hother] at hreported ⊢
    rw [(reading_report hsensor).1, (reading_report hsensor).2, (reading_report hreported).1,
      (reading_report hreported).2, readingAt_congr hslice]
    exact ⟨rfl, rfl⟩

/-! ### Commands -/

theorem streamWord_cmdBytes {mid : ℤ} (hmid : 0 ≤ mid ∧ mid ≤ 65535) (code : ℕ) (payload : Bytes)
    (seqCount : ℤ) : streamWord (cmdBytes mid code payload seqCount) = mid := by
  rw [cmdBytes_eq, streamWord, (slice_primaryBytes _ _ _ _).1,
    unpackUnsigned_beBytes hmid.1 (by omega)]

/-- A command is reported by its header when no telemetry header fits in it, and
as a telemetry packet of unknown type when one does. -/
theorem parsePacket_command {mid : ℤ} (hmid : 0 ≤ mid ∧ mid ≤ 65535)
    (htype : Int.land mid 0x1000 ≠ 0) (code : ℕ) (payload : Bytes) (seqCount : ℤ) :
    let packet := cmdBytes mid code payload seqCount
    parsePacket packet = .ok (report packet
      (if payload.length < 8 then .headerOnly else .unknown (packet.drop 16))) := by
  intro packet
  have hlen : packet.length = 8 + payload.length := cmdBytes_length _ _ _ _
  have hword : streamWord packet = mid := streamWord_cmdBytes hmid _ _ _
  have hother {tlm : ℤ} (htlm : Int.land tlm 0x1000 = 0) : mid ≠ tlm := by
    rintro rfl
    exact htype htlm
  have hrad : mid ≠ tlmMidRad := hother (by decide)
  have htherm : mid ≠ tlmMidTherm := hother (by decide)
  have hevs : mid ≠ cfeEvsLongEventMsgMid := hother (by decide)
  by_cases hshort : payload.length < 8
  · rw [parsePacket_ok, ofDatagram_headerOnly (by omega) (by omega), if_pos hshort]
  · have htypeOf : typeOf packet = .unknown := by
      rw [typeOf_eq_unknown, hword]
      exact ⟨fun h => hrad h.1, fun h => htherm h.1, hevs⟩
    rw [parsePacket_ok, ofDatagram_long (by omega), htypeOf, if_neg hshort]

/-- A command is reported by its primary header alone exactly when its payload
is shorter than 8 bytes. -/
theorem command_headerOnly_iff {mid funcCode seqCount : ℤ} {payload packet : Bytes}
    (hpack : packCmdPacket mid funcCode payload seqCount = .ok packet)
    (htype : Int.land mid 0x1000 ≠ 0) :
    (∃ header, unpackPrimaryHeader packet = .ok header ∧ parsePacket packet = .ok {
        header := some header
        mid := some mid
        midHex := some (hex04X mid.toNat)
        raw := some (hex packet) }) ↔
      payload.length < 8 := by
  obtain ⟨hfits, rfl⟩ := packCmdPacket_eq_ok_iff.mp hpack
  have hparse := parsePacket_command hfits.1 htype (funcCode % 128).toNat payload seqCount
  have hword := streamWord_cmdBytes hfits.1 (funcCode % 128).toNat payload seqCount
  have hlen := cmdBytes_length mid (funcCode % 128).toNat payload seqCount
  generalize cmdBytes mid (funcCode % 128).toNat payload seqCount = packet at hparse hword hlen ⊢
  constructor
  · rintro ⟨header, _, hreport⟩
    by_contra hlong
    rw [hparse, if_neg hlong, Except.ok.injEq] at hreport
    have hraw := congrArg ParsedPacket.raw hreport
    cases hraw
  · intro hshort
    refine ⟨headerAt packet, unpackPrimaryHeader_ok (by omega), ?_⟩
    rw [hparse, if_pos hshort, report, headerKeys, hword]

/-- `enable_telemetry_output("127.0.0.1")` as its packet. -/
def enableOutput : Bytes := cmdBytes 0x1880 6 (ljust 16 0 (asciiBytes "127.0.0.1")) 0

theorem enableOutput_unknown :
    packCmdPacket 0x1880 6 (ljust 16 0 (asciiBytes "127.0.0.1")) 0 = .ok enableOutput ∧
      ∃ parsed, parsePacket enableOutput = .ok parsed ∧ parsed.type = some .unknown ∧
        parsed.seconds.isSome = true ∧ parsed.payloadHex.isSome = true ∧ parsed.raw = none := by
  refine ⟨packCmdPacket_ok (by decide) 6 0, _, parsePacket_command (by decide) (by decide) _ _ _, ?_⟩
  exact ⟨rfl, rfl, rfl, rfl⟩

theorem command_headerOnly_iff_noop :
    ∃ packet header, packCmdPacket 0x1882 3 [] 0 = .ok packet ∧
      unpackPrimaryHeader packet = .ok header ∧ parsePacket packet = .ok {
        header := some header
        mid := some 0x1882
        midHex := some (hex04X 0x1882)
        raw := some (hex packet) } := by
  have hpack := packCmdPacket_ok (show CmdFits 0x1882 [] by decide) 3 0
  obtain ⟨header, hheader, hparse⟩ := (command_headerOnly_iff hpack (by decide)).mpr (by decide)
  exact ⟨_, header, hpack, hheader, hparse⟩

end CfsBridge.Classification
