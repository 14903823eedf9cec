import CfsBridge.PrimaryHeader

/-!
# The packet formats

Decoding undoes encoding on every accepted argument, and the byte strings an
encoder can produce are exactly those with standalone flags, a length field
that matches, and the condition of its own secondary header. On that image
re-encoding undoes decoding, so neither format carries anything the other side
does not read.
-/
namespace CfsBridge.CcsdsUtils
open Bytes Python

/-! ### Fields of an encoded packet -/

theorem slice_primaryBytes (mid seqCount : ℤ) (totalLength : ℕ) (rest : Bytes) :
    slice 0 2 (primaryBytes mid seqCount totalLength ++ rest) = beBytes 2 mid.toNat ∧
      slice 2 4 (primaryBytes mid seqCount totalLength ++ rest) =
        beBytes 2 (49152 + seqCount % 16384).toNat ∧
      slice 4 6 (primaryBytes mid seqCount totalLength ++ rest) = beBytes 2 (totalLength - 7) :=
  slice_words (beBytes_length 2 _) (beBytes_length 2 _) (beBytes_length 2 _) rest

theorem headerAt_primaryBytes {mid : ℤ} (hmid : 0 ≤ mid ∧ mid ≤ 65535) (seqCount : ℤ)
    {totalLength : ℕ} (hlen : totalLength ≤ 65542) (rest : Bytes) :
    headerAt (primaryBytes mid seqCount totalLength ++ rest) =
      .ofWords mid (49152 + seqCount % 16384) ((totalLength - 7 : ℕ) : ℤ) := by
  have hwords := headerAt_words ⟨hmid.1, show mid < 65536 by omega⟩
    (standalone_sequence_mem seqCount)
    ⟨Int.natCast_nonneg (totalLength - 7), show ((totalLength - 7 : ℕ) : ℤ) < 65536 by omega⟩ rest
  rwa [Int.toNat_natCast] at hwords

/-- The checksum byte of a command packet. -/
def cmdChecksum (mid : ℤ) (code : ℕ) (payload : Bytes) (seqCount : ℤ) : UInt8 :=
  0xFF ^^^ xorAll (primaryBytes mid seqCount (8 + payload.length) ++ beBytes 1 code ++ 0 :: payload)

theorem cmdBytes_eq (mid : ℤ) (code : ℕ) (payload : Bytes) (seqCount : ℤ) :
    cmdBytes mid code payload seqCount =
      primaryBytes mid seqCount (8 + payload.length) ++
        (beBytes 1 code ++ cmdChecksum mid code payload seqCount :: payload) := by
  simp [cmdBytes, cmdChecksum]

@[simp] theorem cmdBytes_length (mid : ℤ) (code : ℕ) (payload : Bytes) (seqCount : ℤ) :
    (cmdBytes mid code payload seqCount).length = 8 + payload.length := by
  simp [cmdBytes_eq]
  omega

theorem xorAll_cmdBytes (mid : ℤ) (code : ℕ) (payload : Bytes) (seqCount : ℤ) :
    xorAll (cmdBytes mid code payload seqCount) = 0xFF := (xorAll_eq_iff _ _ _ _).mpr rfl

theorem slice_cmdBytes (mid : ℤ) (code : ℕ) (payload : Bytes) (seqCount : ℤ) :
    slice 6 7 (cmdBytes mid code payload seqCount) = beBytes 1 code ∧
      slice 7 8 (cmdBytes mid code payload seqCount) = [cmdChecksum mid code payload seqCount] ∧
      (cmdBytes mid code payload seqCount).drop 8 = payload := by
  have hfront : (primaryBytes mid seqCount (8 + payload.length)).drop 8 = [] :=
    List.drop_eq_nil_of_le (by simp)
  have hcode : (beBytes 1 code).drop 2 = [] := List.drop_eq_nil_of_le (by simp)
  refine ⟨?_, ?_, ?_⟩
  · simp [cmdBytes_eq, slice_append, slice_of_length_le, slice_zero_of_length_le]
  · simp [cmdBytes_eq, slice_append, slice_of_length_le]
  · simp [cmdBytes_eq, List.drop_append, hfront, hcode]

/-- What `unpack_cmd_packet` returns for an encoded command. -/
theorem unpackCmdPacket_cmdBytes {mid : ℤ} {payload : Bytes} (h : CmdFits mid payload)
    {code : ℕ} (hcode : code < 128) (seqCount : ℤ) :
    unpackCmdPacket (cmdBytes mid code payload seqCount) = .ok {
      toCcsdsPrimaryHeader := .ofWords mid (49152 + seqCount % 16384) ((1 + payload.length : ℕ) : ℤ)
      funcCode := code
      checksum := (cmdChecksum mid code payload seqCount).toNat
      payload := payload } := by
  obtain ⟨hc, hk, hp⟩ := slice_cmdBytes mid code payload seqCount
  have hheader : headerAt (cmdBytes mid code payload seqCount) =
      .ofWords mid (49152 + seqCount % 16384) ((1 + payload.length : ℕ) : ℤ) := by
    rw [cmdBytes_eq, headerAt_primaryBytes h.1 seqCount (by have := h.2; omega),
      show 8 + payload.length - 7 = 1 + payload.length by omega]
  have hfc : unpackUnsigned (beBytes 1 code) % 128 = (code : ℤ) := by
    rw [unpackUnsigned, ofBE_beBytes_of_lt (by omega)]
    omega
  have hsum : unpackUnsigned [cmdChecksum mid code payload seqCount] =
      (cmdChecksum mid code payload seqCount).toNat := by simp [unpackUnsigned, ofBE]
  rw [unpackCmdPacket_ok (by simp), hheader, hc, hk, hp, hfc, hsum]

/-- Decoding undoes encoding for commands, and encoding fails exactly outside the format. -/
theorem packCmdPacket_codec (mid funcCode seqCount : ℤ) (payload : Bytes)
    (hcode : 0 ≤ funcCode ∧ funcCode ≤ 127) :
    (packCmdPacket mid funcCode payload seqCount = .error .structError ↔
      ¬ (0 ≤ mid ∧ mid ≤ 65535) ∨ 65534 < payload.length) ∧
    ((0 ≤ mid ∧ mid ≤ 65535) → payload.length ≤ 65534 →
      ∃ packet info, packCmdPacket mid funcCode payload seqCount = .ok packet ∧
        packet.length = 8 + payload.length ∧
        xorAll packet = 0xFF ∧
        unpackCmdPacket packet = .ok info ∧
        info.funcCode = funcCode ∧
        info.seqCount = seqCount % 2 ^ 14 ∧
        info.payload = payload ∧
        info.seqFlags = 3 ∧
        info.dataLength = (packet.length : ℤ) - 7 ∧
        packet[7]?.map (fun b => (b.toNat : ℤ)) = some info.checksum ∧
        info.streamId = mid) := by
  refine ⟨?_, ?_⟩
  · rw [packCmdPacket_eq_error_iff, CmdFits, not_and_or, not_le (a := payload.length)]
  · intro hmid hlen
    have h : CmdFits mid payload := ⟨hmid, hlen⟩
    have hmod : (funcCode % 128).toNat < 128 := by omega
    have hseq : (49152 + seqCount % 16384) % 16384 = seqCount % 16384 := by omega
    refine ⟨_, _, packCmdPacket_ok h funcCode seqCount, cmdBytes_length _ _ _ _,
      xorAll_cmdBytes _ _ _ _, unpackCmdPacket_cmdBytes h hmod seqCount, ?_, hseq, rfl, ?_, ?_, ?_,
      CcsdsPrimaryHeader.streamId_ofWords hmid.1 (by omega) _ _⟩
    · change ((funcCode % 128).toNat : ℤ) = funcCode
      omega
    · change (49152 + seqCount % 16384) / 16384 % 4 = 3
      omega
    · rw [cmdBytes_length]
      change ((1 + payload.length : ℕ) : ℤ) = _
      push_cast
      ring
    · rw [cmdBytes_eq]
      simp [List.getElem?_append]

theorem packCmdPacket_codec_open : ∃ packet info,
    packCmdPacket 0x1890 5 [0xCA, 0xFE] 20000 = .ok packet ∧ unpackCmdPacket packet = .ok info ∧
      info.funcCode = 5 ∧ info.seqCount = 3616 ∧ info.payload = [0xCA, 0xFE] := by
  obtain ⟨packet, info, hpack, _, _, hunpack, hcode, hseq, hpayload, _⟩ :=
    (packCmdPacket_codec 0x1890 5 20000 [0xCA, 0xFE] (by decide)).2 (by decide) (by decide)
  exact ⟨packet, info, hpack, hunpack, hcode, hseq.trans (by decide), hpayload⟩

/-- A valid command packet that carries exactly the given command. -/
structure CarriesCommand (packet : Bytes) (mid funcCode : ℤ) (payload : Bytes) : Prop where
  length : packet.length = 8 + payload.length
  checksum : xorAll packet = 0xFF
  decoded : ∃ info, unpackCmdPacket packet = .ok info ∧ info.streamId = mid ∧
    info.funcCode = funcCode ∧ info.payload = payload

theorem carriesCommand_cmdBytes {mid : ℤ} {payload : Bytes} (h : CmdFits mid payload) {funcCode : ℤ}
    (hcode : 0 ≤ funcCode ∧ funcCode ≤ 127) (seqCount : ℤ) :
    CarriesCommand (cmdBytes mid (funcCode % 128).toNat payload seqCount) mid funcCode payload where
  length := cmdBytes_length _ _ _ _
  checksum := xorAll_cmdBytes _ _ _ _
  decoded := by
    have hmod : (funcCode % 128).toNat < 128 := by omega
    have hback : (((funcCode % 128).toNat : ℕ) : ℤ) = funcCode := by omega
    have hmid := h.1
    exact ⟨_, unpackCmdPacket_cmdBytes h hmod seqCount,
      CcsdsPrimaryHeader.streamId_ofWords hmid.1 (by omega) _ _, hback, rfl⟩

/-! ### Telemetry packets -/

@[simp] theorem tlmBytes_length (mid : ℤ) (payload : Bytes) (seqCount seconds subseconds : ℤ) :
    (tlmBytes mid payload seqCount seconds subseconds).length = 16 + payload.length := by
  simp [tlmBytes]
  omega

theorem tlmBytes_eq (mid : ℤ) (payload : Bytes) (seqCount seconds subseconds : ℤ) :
    tlmBytes mid payload seqCount seconds subseconds =
      primaryBytes mid seqCount (16 + payload.length) ++
        (beBytes 4 (seconds % 4294967296).toNat ++ (beBytes 2 (subseconds % 65536).toNat ++
          (List.replicate 4 0 ++ payload))) := by
  simp [tlmBytes]

theorem slice_tlmBytes (mid : ℤ) (payload : Bytes) (seqCount seconds subseconds : ℤ) :
    slice 6 10 (tlmBytes mid payload seqCount seconds subseconds) =
        beBytes 4 (seconds % 4294967296).toNat ∧
      slice 10 12 (tlmBytes mid payload seqCount seconds subseconds) =
        beBytes 2 (subseconds % 65536).toNat ∧
      slice 12 16 (tlmBytes mid payload seqCount seconds subseconds) = List.replicate 4 0 ∧
      (tlmBytes mid payload seqCount seconds subseconds).drop 16 = payload := by
  have hfront : (primaryBytes mid seqCount (16 + payload.length)).drop 16 = [] :=
    List.drop_eq_nil_of_le (by simp)
  have hsec : (beBytes 4 (seconds % 4294967296).toNat).drop 10 = [] :=
    List.drop_eq_nil_of_le (by simp)
  have hsub : (beBytes 2 (subseconds % 65536).toNat).drop 6 = [] :=
    List.drop_eq_nil_of_le (by simp)
  refine ⟨?_, ?_, ?_, ?_⟩
  · simp [tlmBytes_eq, slice_append, slice_of_length_le, slice_zero_of_length_le]
  · simp [tlmBytes_eq, slice_append, slice_of_length_le, slice_zero_of_length_le]
  · simp [tlmBytes_eq, slice_append, slice_of_length_le]
  · simp [tlmBytes_eq, List.drop_append, hfront, hsec, hsub]

/-- What `unpack_tlm_packet` returns for an encoded telemetry packet. -/
theorem unpackTlmPacket_tlmBytes {mid : ℤ} {payload : Bytes} (h : TlmFits mid payload)
    (seqCount seconds subseconds : ℤ) :
    unpackTlmPacket (tlmBytes mid payload seqCount seconds subseconds) = .ok {
      toCcsdsPrimaryHeader := .ofWords mid (49152 + seqCount % 16384) ((9 + payload.length : ℕ) : ℤ)
      seconds := seconds % 4294967296
      subseconds := subseconds % 65536
      payload := payload } := by
  obtain ⟨hs, hu, _, hp⟩ := slice_tlmBytes mid payload seqCount seconds subseconds
  have hheader : headerAt (tlmBytes mid payload seqCount seconds subseconds) =
      .ofWords mid (49152 + seqCount % 16384) ((9 + payload.length : ℕ) : ℤ) := by
    rw [tlmBytes_eq, headerAt_primaryBytes h.1 seqCount (by have := h.2; omega),
      show 16 + payload.length - 7 = 9 + payload.length by omega]
  rw [unpackTlmPacket_ok (by simp), hheader, hs, hu, hp,
    unpackUnsigned_beBytes (by omega) (by omega), unpackUnsigned_beBytes (by omega) (by omega)]

/-- Decoding undoes encoding for telemetry, and encoding fails exactly outside the format. -/
theorem packTelemetryPacket_codec (now mid seqCount seconds subseconds : ℤ) (payload : Bytes) :
    (packTelemetryPacket now mid payload seqCount (some seconds) subseconds = .error .structError ↔
      ¬ (0 ≤ mid ∧ mid ≤ 65535) ∨ 65526 < payload.length) ∧
    ((0 ≤ mid ∧ mid ≤ 65535) → payload.length ≤ 65526 →
      ∃ packet info,
        packTelemetryPacket now mid payload seqCount (some seconds) subseconds = .ok packet ∧
        packet.length = 16 + payload.length ∧
        slice 12 16 packet = [0, 0, 0, 0] ∧
        unpackTlmPacket packet = .ok info ∧
        info.payload = payload ∧
        info.seqCount = seqCount % 2 ^ 14 ∧
        info.seconds = seconds % 2 ^ 32 ∧
        info.subseconds = subseconds % 2 ^ 16 ∧
        info.seqFlags = 3 ∧
        info.dataLength = (packet.length : ℤ) - 7 ∧
        info.streamId = mid) := by
  refine ⟨?_, ?_⟩
  · rw [packTelemetryPacket_eq_error_iff, TlmFits, not_and_or, not_le (a := payload.length)]
  · intro hmid hlen
    have h : TlmFits mid payload := ⟨hmid, hlen⟩
    have hseq : (49152 + seqCount % 16384) % 16384 = seqCount % 16384 := by omega
    refine ⟨_, _, packTelemetryPacket_ok h now seqCount (some seconds) subseconds,
      tlmBytes_length _ _ _ _ _, (slice_tlmBytes _ _ _ _ _).2.2.1,
      unpackTlmPacket_tlmBytes h seqCount seconds subseconds, rfl, hseq, rfl, rfl, ?_, ?_,
      CcsdsPrimaryHeader.streamId_ofWords hmid.1 (by omega) _ _⟩
    · change (49152 + seqCount % 16384) / 16384 % 4 = 3
      omega
    · rw [tlmBytes_length]
      change ((9 + payload.length : ℕ) : ℤ) = _
      push_cast
      ring

theorem packTelemetryPacket_codec_wraps : ∃ packet info,
    packTelemetryPacket 0 0x0882 [1] (-1) (some (-1)) 65537 = .ok packet ∧
      unpackTlmPacket packet = .ok info ∧ info.seqCount = 16383 ∧
      info.seconds = 4294967295 ∧ info.subseconds = 1 := by
  obtain ⟨packet, info, hpack, _, _, hunpack, _, hseq, hsec, hsub, _⟩ :=
    (packTelemetryPacket_codec 0 0x0882 (-1) (-1) 65537 [1]).2 (by decide) (by decide)
  exact ⟨packet, info, hpack, hunpack, hseq.trans (by decide), hsec.trans (by decide),
    hsub.trans (by decide)⟩

/-! ### The image of the encoders -/

/-- Standalone sequence flags and a length field that matches the string. -/
structure StandaloneFrame (d : Bytes) : Prop where
  flags : d.getD 2 0 >>> 6 = 3
  dataLength : ofBE (slice 4 6 d) = d.length - 7

/-- The byte strings `pack_cmd_packet` can return. -/
structure CmdImage (d : Bytes) : Prop extends StandaloneFrame d where
  length_ge : 8 ≤ d.length
  length_le : d.length ≤ 65542
  code : d.getD 6 0 < 128
  checksum : xorAll d = 0xFF

/-- The byte strings `pack_telemetry_packet` can return. -/
structure TlmImage (d : Bytes) : Prop extends StandaloneFrame d where
  length_ge : 16 ≤ d.length
  length_le : d.length ≤ 65542
  spare : slice 12 16 d = [0, 0, 0, 0]

theorem slice_succ {d : Bytes} {i : ℕ} (h : i < d.length) : slice i (i + 1) d = [d.getD i 0] := by
  rw [slice, List.drop_take, Nat.add_sub_cancel_left, List.drop_eq_getElem_cons h,
    List.getD_eq_getElem?_getD, List.getElem?_eq_getElem h]
  rfl

/-- The second word in terms of its first byte. -/
theorem ofBE_slice_sequence {d : Bytes} (h : 4 ≤ d.length) :
    ofBE (slice 2 4 d) = (d.getD 2 0).toNat * 256 + (d.getD 3 0).toNat := by
  rw [← slice_append_slice (show 2 ≤ 3 by decide) (show 3 ≤ 4 by decide),
    slice_succ (by omega), slice_succ (by omega), ofBE_concat]
  simp [ofBE]

/-- A flag byte of `11` puts the sequence word in the last quarter. -/
theorem StandaloneFrame.sequence_eq {d : Bytes} (h : StandaloneFrame d) (hlen : 4 ≤ d.length) :
    unpackUnsigned (slice 2 4 d) = 49152 + unpackUnsigned (slice 2 4 d) % 16384 := by
  have hflags := congrArg UInt8.toNat h.flags
  have hb := (d.getD 2 0).toNat_lt
  have hc := (d.getD 3 0).toNat_lt
  rw [UInt8.toNat_shiftRight, Nat.shiftRight_eq_div_pow] at hflags
  have hquarter : (d.getD 2 0).toNat / 64 = 3 := hflags
  rw [unpackUnsigned, ofBE_slice_sequence hlen]
  omega

/-- Rebuilding the primary header from its first word and count gives its six bytes back. -/
theorem StandaloneFrame.primaryBytes_eq {d : Bytes} (h : StandaloneFrame d) (hlen : 6 ≤ d.length) :
    primaryBytes (unpackUnsigned (slice 0 2 d)) (headerAt d).seqCount d.length = slice 0 6 d := by
  have hcount : (headerAt d).seqCount % 16384 = unpackUnsigned (slice 2 4 d) % 16384 :=
    Int.emod_emod_of_dvd _ (dvd_refl _)
  rw [primaryBytes, hcount, ← h.sequence_eq (by omega), ← h.dataLength]
  exact beBytes_words hlen

theorem standaloneFrame_primaryBytes (mid seqCount : ℤ) {totalLength : ℕ} {rest : Bytes}
    (hrest : 6 + rest.length = totalLength) (hlen : totalLength ≤ 65542) :
    StandaloneFrame (primaryBytes mid seqCount totalLength ++ rest) := by
  obtain ⟨_, hs, hl⟩ := slice_primaryBytes mid seqCount totalLength rest
  have htotal : (primaryBytes mid seqCount totalLength ++ rest).length = totalLength := by
    rw [List.length_append, primaryBytes_length, hrest]
  refine ⟨?_, by rw [hl, ofBE_beBytes_of_lt (by omega), htotal]⟩
  have hword := ofBE_slice_sequence (d := primaryBytes mid seqCount totalLength ++ rest) (by omega)
  have hb := ((primaryBytes mid seqCount totalLength ++ rest).getD 2 0).toNat_lt
  have hc := ((primaryBytes mid seqCount totalLength ++ rest).getD 3 0).toNat_lt
  rw [hs, ofBE_beBytes_of_lt (by omega)] at hword
  apply UInt8.toNat_inj.mp
  rw [UInt8.toNat_shiftRight, Nat.shiftRight_eq_div_pow]
  change _ / 64 = 3
  omega

theorem cmdImage_cmdBytes {mid : ℤ} {payload : Bytes} (h : CmdFits mid payload) {code : ℕ}
    (hcode : code < 128) (seqCount : ℤ) : CmdImage (cmdBytes mid code payload seqCount) where
  toStandaloneFrame := by
    rw [cmdBytes_eq]
    exact standaloneFrame_primaryBytes mid seqCount (by simp; omega) (by have := h.2; omega)
  length_ge := by simp
  length_le := by have := h.2; simp; omega
  code := by
    have hbyte : [(cmdBytes mid code payload seqCount).getD 6 0] = beBytes 1 code := by
      rw [← slice_succ (by simp; omega), (slice_cmdBytes mid code payload seqCount).1]
    rw [List.singleton_inj.mp hbyte, UInt8.lt_iff_toNat_lt, UInt8.toNat_ofNat']
    change code % 256 < 128
    omega
  checksum := xorAll_cmdBytes mid code payload seqCount

theorem tlmImage_tlmBytes {mid : ℤ} {payload : Bytes} (h : TlmFits mid payload)
    (seqCount seconds subseconds : ℤ) :
    TlmImage (tlmBytes mid payload seqCount seconds subseconds) where
  toStandaloneFrame := by
    rw [tlmBytes_eq]
    exact standaloneFrame_primaryBytes mid seqCount (by simp; omega) (by have := h.2; omega)
  length_ge := by simp
  length_le := by have := h.2; simp; omega
  spare := (slice_tlmBytes mid payload seqCount seconds subseconds).2.2.1

/-- Re-encoding what `unpack_cmd_packet` reads from an image string builds that string. -/
theorem CmdImage.repack {d : Bytes} (h : CmdImage d) :
    ∃ info, unpackCmdPacket d = .ok info ∧
      packCmdPacket (unpackUnsigned (slice 0 2 d)) info.funcCode info.payload info.seqCount =
        .ok d := by
  have hge := h.length_ge
  have hle := h.length_le
  have hfits : CmdFits (unpackUnsigned (slice 0 2 d)) (d.drop 8) := by
    have hword := unpackUnsigned_word (show 2 ≤ d.length by omega) (show 2 - 0 = 2 from rfl)
    refine ⟨⟨hword.1, by omega⟩, ?_⟩
    rw [List.length_drop]
    omega
  refine ⟨_, unpackCmdPacket_ok hge, ?_⟩
  rw [packCmdPacket_ok hfits]
  have hcode : (unpackUnsigned (slice 6 7 d) % 128 % 128).toNat = ofBE (slice 6 7 d) := by
    have hb := UInt8.lt_iff_toNat_lt.mp h.code
    rw [unpackUnsigned, slice_succ (by omega)]
    simp only [ofBE, List.foldl_cons, List.foldl_nil]
    change (d.getD 6 0).toNat < 128 at hb
    omega
  have htotal : 8 + (d.drop 8).length = d.length := by rw [List.length_drop]; omega
  have hfront : primaryBytes (unpackUnsigned (slice 0 2 d)) (headerAt d).seqCount d.length ++
      beBytes 1 (ofBE (slice 6 7 d)) = slice 0 7 d := by
    have hlen : (slice 6 7 d).length = 1 := slice_length_of_le (by omega) 6
    rw [h.primaryBytes_eq (by omega), beBytes_ofBE_of_length hlen,
      slice_append_slice (by decide) (by decide)]
  -- the image condition on the checksum is the encoder's choice of the byte
  have hsplit : slice 0 7 d ++ d.getD 7 0 :: d.drop 8 = d := by
    have hseven := slice_succ (show 7 < d.length by omega)
    rw [← List.singleton_append, ← hseven, ← List.append_assoc,
      slice_append_slice (by decide) (by decide), slice_zero_left, List.take_append_drop]
  have hsum := h.checksum
  rw [← hsplit, xorAll_eq_iff] at hsum
  rw [hcode, cmdBytes, htotal, hfront, ← hsum, hsplit]

/-- Re-encoding what `unpack_tlm_packet` reads from an image string builds that string. -/
theorem TlmImage.repack {d : Bytes} (h : TlmImage d) (now : ℤ) :
    ∃ info, unpackTlmPacket d = .ok info ∧
      packTelemetryPacket now (unpackUnsigned (slice 0 2 d)) info.payload info.seqCount
        (some info.seconds) info.subseconds = .ok d := by
  have hge := h.length_ge
  have hle := h.length_le
  have hsecLen : (slice 6 10 d).length = 4 := slice_length_of_le (by omega) 6
  have hsubLen : (slice 10 12 d).length = 2 := slice_length_of_le (by omega) 10
  have hfits : TlmFits (unpackUnsigned (slice 0 2 d)) (d.drop 16) := by
    have hword := unpackUnsigned_word (show 2 ≤ d.length by omega) (show 2 - 0 = 2 from rfl)
    refine ⟨⟨hword.1, by omega⟩, ?_⟩
    rw [List.length_drop]
    omega
  refine ⟨_, unpackTlmPacket_ok hge, ?_⟩
  rw [packTelemetryPacket_ok hfits]
  have hsec : unpackUnsigned (slice 6 10 d) % 4294967296 = unpackUnsigned (slice 6 10 d) :=
    Int.emod_eq_of_lt (unpackUnsigned_nonneg _) (by simpa using unpackUnsigned_lt hsecLen)
  have hsubWord := unpackUnsigned_word (show 12 ≤ d.length by omega) (show 12 - 10 = 2 from rfl)
  have hsub : unpackUnsigned (slice 10 12 d) % 65536 = unpackUnsigned (slice 10 12 d) :=
    Int.emod_eq_of_lt hsubWord.1 hsubWord.2
  have htotal : 16 + (d.drop 16).length = d.length := by rw [List.length_drop]; omega
  have hspare : List.replicate 4 0 = slice 12 16 d := by rw [h.spare]; rfl
  rw [tlmBytes, htotal, h.primaryBytes_eq (by omega), Option.getD_some, hsec, hsub,
    beBytes_unpackUnsigned hsecLen, beBytes_unpackUnsigned hsubLen,
    slice_append_slice (by decide) (by decide), slice_append_slice (by decide) (by decide), hspare,
    slice_append_slice (by decide) (by decide), slice_zero_left, List.take_append_drop]

/-- The exact image of both encoders, on which re-encoding undoes decoding. -/
theorem encoders_image (d : Bytes) :
    ((∃ mid funcCode seqCount payload, packCmdPacket mid funcCode payload seqCount = .ok d) ↔
      8 ≤ d.length ∧ d.length ≤ 65542 ∧ d.getD 2 0 >>> 6 = 3 ∧
        ofBE (slice 4 6 d) = d.length - 7 ∧ d.getD 6 0 < 128 ∧ xorAll d = 0xFF) ∧
    ((∃ now mid seqCount seconds subseconds payload,
        packTelemetryPacket now mid payload seqCount seconds subseconds = .ok d) ↔
      16 ≤ d.length ∧ d.length ≤ 65542 ∧ d.getD 2 0 >>> 6 = 3 ∧
        ofBE (slice 4 6 d) = d.length - 7 ∧ slice 12 16 d = [0, 0, 0, 0]) ∧
    ((∃ mid funcCode seqCount payload, packCmdPacket mid funcCode payload seqCount = .ok d) →
      ∃ info, unpackCmdPacket d = .ok info ∧
        packCmdPacket (ofBE (slice 0 2 d)) info.funcCode info.payload info.seqCount = .ok d) ∧
    ((∃ now mid seqCount seconds subseconds payload,
        packTelemetryPacket now mid payload seqCount seconds subseconds = .ok d) →
      ∃ info, unpackTlmPacket d = .ok info ∧ ∀ now,
        packTelemetryPacket now (ofBE (slice 0 2 d)) info.payload info.seqCount
          (some info.seconds) info.subseconds = .ok d) := by
  have hcmd : ∀ mid funcCode seqCount payload,
      packCmdPacket mid funcCode payload seqCount = .ok d → CmdImage d := by
    intro mid funcCode seqCount payload hpack
    obtain ⟨hfits, rfl⟩ := packCmdPacket_eq_ok_iff.mp hpack
    exact cmdImage_cmdBytes hfits (by omega) seqCount
  have htlm : ∀ now mid seqCount seconds subseconds payload,
      packTelemetryPacket now mid payload seqCount seconds subseconds = .ok d → TlmImage d := by
    intro now mid seqCount seconds subseconds payload hpack
    obtain ⟨hfits, rfl⟩ := packTelemetryPacket_eq_ok_iff.mp hpack
    exact tlmImage_tlmBytes hfits seqCount _ subseconds
  refine ⟨⟨?_, ?_⟩, ⟨?_, ?_⟩, ?_, ?_⟩
  · rintro ⟨mid, funcCode, seqCount, payload, hpack⟩
    have h := hcmd _ _ _ _ hpack
    exact ⟨h.length_ge, h.length_le, h.flags, h.dataLength, h.code, h.checksum⟩
  · rintro ⟨hge, hle, hflags, hlen, hcode, hsum⟩
    obtain ⟨info, _, hpack⟩ := CmdImage.repack ⟨⟨hflags, hlen⟩, hge, hle, hcode, hsum⟩
    exact ⟨_, _, _, _, hpack⟩
  · rintro ⟨now, mid, seqCount, seconds, subseconds, payload, hpack⟩
    have h := htlm _ _ _ _ _ _ hpack
    exact ⟨h.length_ge, h.length_le, h.flags, h.dataLength, h.spare⟩
  · rintro ⟨hge, hle, hflags, hlen, hspare⟩
    obtain ⟨info, _, hpack⟩ := TlmImage.repack ⟨⟨hflags, hlen⟩, hge, hle, hspare⟩ 0
    exact ⟨_, _, _, _, _, _, hpack⟩
  · rintro ⟨mid, funcCode, seqCount, payload, hpack⟩
    exact (hcmd _ _ _ _ hpack).repack
  · rintro ⟨now, mid, seqCount, seconds, subseconds, payload, hpack⟩
    have h := htlm _ _ _ _ _ _ hpack
    refine ⟨_, unpackTlmPacket_ok h.length_ge, fun now => ?_⟩
    obtain ⟨info, hinfo, hrepack⟩ := h.repack now
    rw [unpackTlmPacket_ok h.length_ge] at hinfo
    cases hinfo
    exact hrepack

end CfsBridge.CcsdsUtils
