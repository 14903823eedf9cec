import CfsBridge.Words
import CfsBridge.Python

/-!
# CCSDS packing and unpacking

The functions of `ccsds_utils.py` on unbounded integers and byte strings. Each
encoder has one specification lemma that names the bytes it builds, and each
decoder one that names the fields it reads; the codec laws use only these.
-/
namespace CfsBridge.CcsdsUtils
open Bytes Python

def ccsdsSeqStandalone : ℤ := 0x03

def ccsdsPriHdrSize : ℕ := 6
def ccsdsCmdSecHdrSize : ℕ := 2
def ccsdsTlmSecHdrSize : ℕ := 6
/-- cFS Draco alignment pad at the end of `CFE_MSG_TelemetryHeader_t`. -/
def ccsdsTlmHdrSpare : ℕ := 4

/-- `CCSDSPrimaryHeader`, whose fields are plain Python integers. -/
structure CcsdsPrimaryHeader where
  version : ℤ
  pktType : ℤ
  secHdrFlag : ℤ
  apid : ℤ
  seqFlags : ℤ
  seqCount : ℤ
  dataLength : ℤ
  deriving DecidableEq, Repr

namespace CcsdsPrimaryHeader

/-- The first word of `pack`: each field masked to its width and shifted into place. -/
def streamId (h : CcsdsPrimaryHeader) : ℤ :=
  Int.lor
    (Int.lor
      (Int.lor (Int.land h.version 0x07 <<< (13 : ℕ)) (Int.land h.pktType 0x01 <<< (12 : ℕ)))
      (Int.land h.secHdrFlag 0x01 <<< (11 : ℕ)))
    (Int.land h.apid 0x7FF)

/-- The second word of `pack`. -/
def sequence (h : CcsdsPrimaryHeader) : ℤ :=
  Int.lor (Int.land h.seqFlags 0x03 <<< (14 : ℕ)) (Int.land h.seqCount 0x3FFF)

def pack (h : CcsdsPrimaryHeader) : Except PyException Bytes :=
  packHHH h.streamId h.sequence h.dataLength

def unpack (data : Bytes) : Except PyException CcsdsPrimaryHeader := do
  if data.length < ccsdsPriHdrSize then
    throw (.valueError s!"Need {ccsdsPriHdrSize} bytes, got {data.length}")
  let (streamId, sequence, dataLength) ← unpackHHH (data.take 6)
  return {
    version := Int.land (streamId >>> (13 : ℕ)) 0x07
    pktType := Int.land (streamId >>> (12 : ℕ)) 0x01
    secHdrFlag := Int.land (streamId >>> (11 : ℕ)) 0x01
    apid := Int.land streamId 0x7FF
    seqFlags := Int.land (sequence >>> (14 : ℕ)) 0x03
    seqCount := Int.land sequence 0x3FFF
    dataLength := dataLength }

end CcsdsPrimaryHeader

/-- Exclusive or of `0xFF` with every byte; a byte throughout, so kept as one. -/
def computeChecksum (packetBytes : Bytes) : UInt8 := packetBytes.foldl (· ^^^ ·) 0xFF

def packCmdPacket (mid funcCode : ℤ) (payload : Bytes) (seqCount : ℤ) :
    Except PyException Bytes := do
  let totalLength : ℤ := ccsdsPriHdrSize + ccsdsCmdSecHdrSize + payload.length
  let dataLength := totalLength - 7
  let sequence := Int.lor (ccsdsSeqStandalone <<< (14 : ℕ)) (Int.land seqCount 0x3FFF)
  let priHdr ← packHHH mid sequence dataLength
  -- the checksum is taken over the packet with a zero checksum byte
  let placeholder ← packBB (Int.land funcCode 0x7F) 0
  let chksum := computeChecksum (priHdr ++ placeholder ++ payload)
  let cmdSecHdr ← packBB (Int.land funcCode 0x7F) chksum.toNat
  return priHdr ++ cmdSecHdr ++ payload

/-- `now` is `int(time.time())`, read when the caller gives no seconds. -/
def packTelemetryPacket (now : ℤ) (mid : ℤ) (payload : Bytes) (seqCount : ℤ)
    (seconds : Option ℤ) (subseconds : ℤ) : Except PyException Bytes := do
  let seconds := seconds.getD now
  let tlmHdrSize := ccsdsPriHdrSize + ccsdsTlmSecHdrSize + ccsdsTlmHdrSpare
  let totalLength : ℤ := tlmHdrSize + payload.length
  let dataLength := totalLength - 7
  let sequence := Int.lor (ccsdsSeqStandalone <<< (14 : ℕ)) (Int.land seqCount 0x3FFF)
  let priHdr ← packHHH mid sequence dataLength
  let tlmSecHdr ← packIH (Int.land seconds 0xFFFFFFFF) (Int.land subseconds 0xFFFF)
  let spare := List.replicate ccsdsTlmHdrSpare 0
  return priHdr ++ tlmSecHdr ++ spare ++ payload

def unpackPrimaryHeader (data : Bytes) : Except PyException CcsdsPrimaryHeader :=
  CcsdsPrimaryHeader.unpack data

structure CmdPacket extends CcsdsPrimaryHeader where
  funcCode : ℤ
  checksum : ℤ
  payload : Bytes
  deriving DecidableEq, Repr

def unpackCmdPacket (data : Bytes) : Except PyException CmdPacket := do
  if data.length < ccsdsPriHdrSize + ccsdsCmdSecHdrSize then
    throw (.valueError s!"Command packet too short: {data.length} bytes")
  let result ← unpackPrimaryHeader data
  let (funcCode, checksum) ← unpackBB (slice ccsdsPriHdrSize (ccsdsPriHdrSize + 2) data)
  return {
    toCcsdsPrimaryHeader := result
    funcCode := Int.land funcCode 0x7F
    checksum := checksum
    payload := data.drop (ccsdsPriHdrSize + ccsdsCmdSecHdrSize) }

structure TlmPacket extends CcsdsPrimaryHeader where
  seconds : ℤ
  subseconds : ℤ
  payload : Bytes
  deriving DecidableEq, Repr

def unpackTlmPacket (data : Bytes) : Except PyException TlmPacket := do
  let tlmTotalHdr := ccsdsPriHdrSize + ccsdsTlmSecHdrSize + ccsdsTlmHdrSpare
  if data.length < tlmTotalHdr then
    throw (.valueError s!"Telemetry packet too short: {data.length} bytes")
  let result ← unpackPrimaryHeader data
  let secEnd := ccsdsPriHdrSize + ccsdsTlmSecHdrSize
  let (seconds, subseconds) ← unpackIH (slice ccsdsPriHdrSize secEnd data)
  return {
    toCcsdsPrimaryHeader := result
    seconds := seconds
    subseconds := subseconds
    payload := data.drop tlmTotalHdr }

/-! ### Masks and shifts -/

theorem land_0x01 (x : ℤ) : Int.land x 0x01 = x % 2 := by simpa using Words.land_ones x 1
theorem land_0x03 (x : ℤ) : Int.land x 0x03 = x % 4 := by simpa using Words.land_ones x 2
theorem land_0x07 (x : ℤ) : Int.land x 0x07 = x % 8 := by simpa using Words.land_ones x 3
theorem land_0x7F (x : ℤ) : Int.land x 0x7F = x % 128 := by simpa using Words.land_ones x 7
theorem land_0x7FF (x : ℤ) : Int.land x 0x7FF = x % 2048 := by simpa using Words.land_ones x 11
theorem land_0x3FFF (x : ℤ) : Int.land x 0x3FFF = x % 16384 := by simpa using Words.land_ones x 14
theorem land_0xFFFF (x : ℤ) : Int.land x 0xFFFF = x % 65536 := by simpa using Words.land_ones x 16
theorem land_0xFFFFFFFF (x : ℤ) : Int.land x 0xFFFFFFFF = x % 4294967296 := by
  simpa using Words.land_ones x 32

/-- The sequence word both encoders build: flags 3 over the 14-bit count. -/
theorem standalone_sequence (n : ℤ) :
    Int.lor (ccsdsSeqStandalone <<< (14 : ℕ)) (Int.land n 0x3FFF) = 49152 + n % 16384 := by
  have h0 := Int.emod_nonneg n (by decide : (16384 : ℤ) ≠ 0)
  have hlt := Int.emod_lt_of_pos n (by decide : (0 : ℤ) < 16384)
  rw [land_0x3FFF, Words.lor_shiftLeft (by decide) h0 (by simpa using hlt)]
  rfl

namespace CcsdsPrimaryHeader

theorem streamId_eq (h : CcsdsPrimaryHeader) :
    h.streamId = h.version % 8 * 8192 + h.pktType % 2 * 4096 + h.secHdrFlag % 2 * 2048 +
      h.apid % 2048 := by
  have hver : Int.lor (h.version % 8 * 2 ^ 13) (h.pktType % 2 * 2 ^ 12) =
      h.version % 8 * 8192 + h.pktType % 2 * 4096 :=
    Words.lor_eq_add 13 (by omega) (by omega) (by omega) (by omega)
  have hflag : Int.lor (h.version % 8 * 8192 + h.pktType % 2 * 4096)
      (h.secHdrFlag % 2 * 2 ^ 11) =
      h.version % 8 * 8192 + h.pktType % 2 * 4096 + h.secHdrFlag % 2 * 2048 :=
    Words.lor_eq_add 12 (by omega) (by omega) (by omega) (by omega)
  simp only [streamId, land_0x07, land_0x01, land_0x7FF, Int.shiftLeft_eq]
  rw [hver, hflag, Words.lor_eq_add 11 (by omega) (by omega) (by omega) (by omega)]

/-- The header that three 16-bit words spell. -/
def ofWords (streamId sequence dataLength : ℤ) : CcsdsPrimaryHeader where
  version := streamId / 8192 % 8
  pktType := streamId / 4096 % 2
  secHdrFlag := streamId / 2048 % 2
  apid := streamId % 2048
  seqFlags := sequence / 16384 % 4
  seqCount := sequence % 16384
  dataLength := dataLength

/-- The four identification fields lose nothing of their word. -/
theorem streamId_ofWords {w : ℤ} (h0 : 0 ≤ w) (hlt : w < 65536) (s l : ℤ) :
    (ofWords w s l).streamId = w := by
  rw [streamId_eq]
  simp only [ofWords]
  omega

theorem unpack_ok {data : Bytes} (h : 6 ≤ data.length) :
    unpack data = .ok (ofWords (unpackUnsigned (slice 0 2 data))
      (unpackUnsigned (slice 2 4 data)) (unpackUnsigned (slice 4 6 data))) := by
  have hlen : (data.take 6).length = 6 := by rw [List.length_take]; omega
  have hlt : ¬ data.length < ccsdsPriHdrSize := by simp only [ccsdsPriHdrSize]; omega
  have hslice (a b : ℕ) (hb : b ≤ 6) : slice a b (data.take 6) = slice a b data := by
    simp only [slice, List.take_take, min_eq_left hb]
  unfold unpack
  simp only [if_neg hlt, unpackHHH, if_pos hlen, hslice 0 2 (by decide), hslice 2 4 (by decide),
    hslice 4 6 (by decide), land_0x01, land_0x03, land_0x07, land_0x7FF, land_0x3FFF,
    Int.shiftRight_eq_div_pow]
  rfl

theorem unpack_short {data : Bytes} (h : data.length < 6) :
    ∃ msg, unpack data = .error (.valueError msg) := by
  have hlt : data.length < ccsdsPriHdrSize := h
  unfold unpack
  rw [if_pos hlt]
  exact ⟨_, rfl⟩

end CcsdsPrimaryHeader

/-! ### What the encoders build -/

/-- The six bytes of a primary header with standalone flags. -/
def primaryBytes (mid seqCount : ℤ) (totalLength : ℕ) : Bytes :=
  beBytes 2 mid.toNat ++ beBytes 2 (49152 + seqCount % 16384).toNat ++ beBytes 2 (totalLength - 7)

@[simp] theorem primaryBytes_length (mid seqCount : ℤ) (totalLength : ℕ) :
    (primaryBytes mid seqCount totalLength).length = 6 := by simp [primaryBytes]

theorem computeChecksum_eq (bs : Bytes) : computeChecksum bs = 0xFF ^^^ xorAll bs :=
  foldl_xor 0xFF bs

/-- The command packet with function code byte `code` and the checksum that makes it even out. -/
def cmdBytes (mid : ℤ) (code : ℕ) (payload : Bytes) (seqCount : ℤ) : Bytes :=
  let front := primaryBytes mid seqCount (8 + payload.length) ++ beBytes 1 code
  front ++ (0xFF ^^^ xorAll (front ++ 0 :: payload)) :: payload

/-- The arguments `pack_cmd_packet` accepts. -/
def CmdFits (mid : ℤ) (payload : Bytes) : Prop := (0 ≤ mid ∧ mid ≤ 65535) ∧ payload.length ≤ 65534

instance (mid : ℤ) (payload : Bytes) : Decidable (CmdFits mid payload) :=
  inferInstanceAs (Decidable (_ ∧ _))

theorem standalone_sequence_mem (n : ℤ) : 0 ≤ 49152 + n % 16384 ∧ 49152 + n % 16384 < 65536 := by
  omega

theorem packCmdPacket_ok {mid : ℤ} {payload : Bytes} (h : CmdFits mid payload)
    (funcCode seqCount : ℤ) :
    packCmdPacket mid funcCode payload seqCount =
      .ok (cmdBytes mid (funcCode % 128).toNat payload seqCount) := by
  obtain ⟨hmid, hlen⟩ := h
  have hcode : 0 ≤ funcCode % 128 ∧ funcCode % 128 < 256 := by omega
  have hsum (k : UInt8) : (0 : ℤ) ≤ k.toNat ∧ (k.toNat : ℤ) < 256 := by
    have := k.toNat_lt
    omega
  have htotal : ((ccsdsPriHdrSize : ℤ) + ccsdsCmdSecHdrSize + payload.length - 7).toNat =
      8 + payload.length - 7 := by simp only [ccsdsPriHdrSize, ccsdsCmdSecHdrSize]; omega
  have hbyte (k : UInt8) : beBytes 1 k.toNat = [k] := by simp [beBytes]
  have hzero : beBytes 1 (Int.toNat 0) = [0] := rfl
  unfold packCmdPacket
  simp only [standalone_sequence, land_0x7F]
  rw [packHHH_of_mem (by omega) (standalone_sequence_mem _)
    (by simp only [ccsdsPriHdrSize, ccsdsCmdSecHdrSize]; omega), htotal]
  simp only [ok_bind, packBB_of_mem hcode (by decide : (0 : ℤ) ≤ 0 ∧ (0 : ℤ) < 256),
    packBB_of_mem hcode (hsum _), Int.toNat_natCast, hbyte, hzero, computeChecksum_eq]
  simp only [cmdBytes, primaryBytes, List.append_assoc, List.cons_append, List.nil_append]
  rfl

theorem packCmdPacket_error {mid : ℤ} {payload : Bytes} (h : ¬ CmdFits mid payload)
    (funcCode seqCount : ℤ) :
    packCmdPacket mid funcCode payload seqCount = .error .structError := by
  unfold packCmdPacket
  simp only [standalone_sequence]
  rw [packHHH_of_not_mem (standalone_sequence_mem _)]
  · rfl
  · simp only [CmdFits, ccsdsPriHdrSize, ccsdsCmdSecHdrSize] at h ⊢
    omega

/-- Which strings `pack_cmd_packet` returns, and for which arguments. -/
theorem packCmdPacket_eq_ok_iff {mid funcCode seqCount : ℤ} {payload d : Bytes} :
    packCmdPacket mid funcCode payload seqCount = .ok d ↔
      CmdFits mid payload ∧ cmdBytes mid (funcCode % 128).toNat payload seqCount = d := by
  by_cases h : CmdFits mid payload
  · simp [packCmdPacket_ok h, h]
  · simp [packCmdPacket_error h, h]

theorem packCmdPacket_eq_error_iff {mid funcCode seqCount : ℤ} {payload : Bytes} :
    packCmdPacket mid funcCode payload seqCount = .error .structError ↔ ¬ CmdFits mid payload := by
  by_cases h : CmdFits mid payload
  · simp [packCmdPacket_ok h, h]
  · simp [packCmdPacket_error h, h]

/-- The telemetry packet: header, time, four spare zero bytes, payload. -/
def tlmBytes (mid : ℤ) (payload : Bytes) (seqCount seconds subseconds : ℤ) : Bytes :=
  primaryBytes mid seqCount (16 + payload.length) ++
    (beBytes 4 (seconds % 4294967296).toNat ++ beBytes 2 (subseconds % 65536).toNat) ++
      List.replicate 4 0 ++ payload

/-- The arguments `pack_telemetry_packet` accepts. -/
def TlmFits (mid : ℤ) (payload : Bytes) : Prop := (0 ≤ mid ∧ mid ≤ 65535) ∧ payload.length ≤ 65526

instance (mid : ℤ) (payload : Bytes) : Decidable (TlmFits mid payload) :=
  inferInstanceAs (Decidable (_ ∧ _))

theorem packTelemetryPacket_ok {mid : ℤ} {payload : Bytes} (h : TlmFits mid payload)
    (now seqCount : ℤ) (seconds : Option ℤ) (subseconds : ℤ) :
    packTelemetryPacket now mid payload seqCount seconds subseconds =
      .ok (tlmBytes mid payload seqCount (seconds.getD now) subseconds) := by
  obtain ⟨hmid, hlen⟩ := h
  have htotal : (((ccsdsPriHdrSize + ccsdsTlmSecHdrSize + ccsdsTlmHdrSpare : ℕ) : ℤ) +
      payload.length - 7).toNat = 16 + payload.length - 7 := by
    simp only [ccsdsPriHdrSize, ccsdsTlmSecHdrSize, ccsdsTlmHdrSpare]
    omega
  unfold packTelemetryPacket
  simp only [standalone_sequence, land_0xFFFF, land_0xFFFFFFFF]
  rw [packHHH_of_mem (by omega) (standalone_sequence_mem _)
    (by simp only [ccsdsPriHdrSize, ccsdsTlmSecHdrSize, ccsdsTlmHdrSpare]; omega), htotal]
  rw [ok_bind, packIH_of_mem (by omega) (by omega)]
  rfl

theorem packTelemetryPacket_error {mid : ℤ} {payload : Bytes} (h : ¬ TlmFits mid payload)
    (now seqCount : ℤ) (seconds : Option ℤ) (subseconds : ℤ) :
    packTelemetryPacket now mid payload seqCount seconds subseconds = .error .structError := by
  unfold packTelemetryPacket
  simp only [standalone_sequence]
  rw [packHHH_of_not_mem (standalone_sequence_mem _)]
  · rfl
  · simp only [TlmFits, ccsdsPriHdrSize, ccsdsTlmSecHdrSize, ccsdsTlmHdrSpare] at h ⊢
    omega

/-- Which strings `pack_telemetry_packet` returns, and for which arguments. -/
theorem packTelemetryPacket_eq_ok_iff {now mid seqCount subseconds : ℤ} {seconds : Option ℤ}
    {payload d : Bytes} :
    packTelemetryPacket now mid payload seqCount seconds subseconds = .ok d ↔
      TlmFits mid payload ∧ tlmBytes mid payload seqCount (seconds.getD now) subseconds = d := by
  by_cases h : TlmFits mid payload
  · simp [packTelemetryPacket_ok h, h]
  · simp [packTelemetryPacket_error h, h]

theorem packTelemetryPacket_eq_error_iff {now mid seqCount subseconds : ℤ} {seconds : Option ℤ}
    {payload : Bytes} :
    packTelemetryPacket now mid payload seqCount seconds subseconds = .error .structError ↔
      ¬ TlmFits mid payload := by
  by_cases h : TlmFits mid payload
  · simp [packTelemetryPacket_ok h, h]
  · simp [packTelemetryPacket_error h, h]

/-! ### What the decoders read -/

/-- The primary header at the start of a string of at least six bytes. -/
def headerAt (data : Bytes) : CcsdsPrimaryHeader :=
  .ofWords (unpackUnsigned (slice 0 2 data)) (unpackUnsigned (slice 2 4 data))
    (unpackUnsigned (slice 4 6 data))

theorem unpackPrimaryHeader_ok {data : Bytes} (h : 6 ≤ data.length) :
    unpackPrimaryHeader data = .ok (headerAt data) := CcsdsPrimaryHeader.unpack_ok h

theorem unpackCmdPacket_ok {data : Bytes} (h : 8 ≤ data.length) :
    unpackCmdPacket data = .ok {
      toCcsdsPrimaryHeader := headerAt data
      funcCode := unpackUnsigned (slice 6 7 data) % 128
      checksum := unpackUnsigned (slice 7 8 data)
      payload := data.drop 8 } := by
  have hlt : ¬ data.length < ccsdsPriHdrSize + ccsdsCmdSecHdrSize := by
    simp only [ccsdsPriHdrSize, ccsdsCmdSecHdrSize]
    omega
  have hlen : (slice 6 8 data).length = 2 := slice_length_of_le h 6
  unfold unpackCmdPacket
  rw [if_neg hlt, unpackPrimaryHeader_ok (by omega)]
  simp only [ccsdsPriHdrSize, ccsdsCmdSecHdrSize, unpackBB, if_pos hlen,
    slice_slice (show 6 + 1 ≤ 8 by decide), slice_slice (show 6 + 2 ≤ 8 by decide), land_0x7F]
  rfl

theorem unpackTlmPacket_ok {data : Bytes} (h : 16 ≤ data.length) :
    unpackTlmPacket data = .ok {
      toCcsdsPrimaryHeader := headerAt data
      seconds := unpackUnsigned (slice 6 10 data)
      subseconds := unpackUnsigned (slice 10 12 data)
      payload := data.drop 16 } := by
  have hlt : ¬ data.length < ccsdsPriHdrSize + ccsdsTlmSecHdrSize + ccsdsTlmHdrSpare := by
    simp only [ccsdsPriHdrSize, ccsdsTlmSecHdrSize, ccsdsTlmHdrSpare]
    omega
  have hlen : (slice 6 12 data).length = 6 := slice_length_of_le (by omega) 6
  unfold unpackTlmPacket
  rw [if_neg hlt, unpackPrimaryHeader_ok (by omega)]
  simp only [ccsdsPriHdrSize, ccsdsTlmSecHdrSize, ccsdsTlmHdrSpare, unpackIH, if_pos hlen,
    slice_slice (show 6 + 4 ≤ 12 by decide), slice_slice (show 6 + 6 ≤ 12 by decide)]
  rfl

theorem unpackTlmPacket_short {data : Bytes} (h : data.length < 16) :
    ∃ msg, unpackTlmPacket data = .error (.valueError msg) := by
  have hlt : data.length < ccsdsPriHdrSize + ccsdsTlmSecHdrSize + ccsdsTlmHdrSpare := h
  unfold unpackTlmPacket
  rw [if_pos hlt]
  exact ⟨_, rfl⟩

end CfsBridge.CcsdsUtils
