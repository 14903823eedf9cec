import CfsBridge.Dispatcher
import CfsBridge.Parser

/-!
# The destination in the enable command

`enable_telemetry_output` writes an address into the 16-byte `dest_IP` field of
TO_LAB. The flight side reads the field up to its first NUL. What it reads is
the address, cut to the 15 characters that leave room for that NUL.
-/
namespace CfsBridge.EnableOutput
open Bytes Python CcsdsUtils MissionRegistry Dispatcher
open CfsBridge.Parser (toChar map_toChar_asciiBytes)

/-- Text that `encode("ascii")` accepts. -/
def IsAscii (s : String) : Prop := ∀ c ∈ s.toList, c.toNat < 128

/-- Text without a NUL character. -/
def NulFree (s : String) : Prop := ∀ c ∈ s.toList, c.toNat ≠ 0

/-- The C string in a field: the bytes before its first NUL. -/
def cString (field : Bytes) : Bytes := field.takeWhile fun b => b ≠ 0

/-- Bytes read as the characters they encode. -/
def text (bs : Bytes) : String := String.ofList (bs.map toChar)

/-- The payload of the enable command. -/
def destinationField (destIp : String) : Bytes := ljust 16 0 ((asciiBytes destIp).take 15)

theorem encodeAscii_ok {s : String} (h : IsAscii s) : encodeAscii s = .ok (asciiBytes s) := by
  have hall : (s.toList.all fun c => c.toNat < 128) = true :=
    List.all_eq_true.mpr fun c hc => decide_eq_true (h c hc)
  rw [encodeAscii, if_pos hall]

theorem encodeAscii_error {s : String} (h : ¬ IsAscii s) :
    encodeAscii s = .error .unicodeEncodeError := by
  have hall : ¬ (s.toList.all fun c => c.toNat < 128) = true :=
    fun hall => h fun c hc => of_decide_eq_true (List.all_eq_true.mp hall c hc)
  rw [encodeAscii, if_neg hall]

/-! ### The field -/

section Field
variable {destIp : String}

theorem destinationField_eq (destIp : String) : ∃ k, destinationField destIp =
    (asciiBytes destIp).take 15 ++ List.replicate (k + 1) 0 := by
  have hlen : ((asciiBytes destIp).take 15).length ≤ 15 := List.length_take_le _ _
  refine ⟨15 - ((asciiBytes destIp).take 15).length, ?_⟩
  rw [destinationField, ljust]
  congr 2
  omega

theorem destinationField_length (destIp : String) : (destinationField destIp).length = 16 := by
  have hlen : ((asciiBytes destIp).take 15).length ≤ 15 := List.length_take_le _ _
  rw [destinationField, ljust, List.length_append, List.length_replicate]
  omega

/-- The last byte of the field is a NUL, however long the address. -/
theorem destinationField_last (destIp : String) : (destinationField destIp).getLast? = some 0 := by
  obtain ⟨k, hk⟩ := destinationField_eq destIp
  rw [hk, List.replicate_succ', ← List.append_assoc, List.getLast?_concat]

theorem cString_append_nul {bs : Bytes} (h : ∀ b ∈ bs, b ≠ 0) (k : ℕ) :
    cString (bs ++ List.replicate (k + 1) 0) = bs := by
  induction bs with
  | nil => simp [cString, List.replicate_succ]
  | cons b bs ih =>
    have hb : b ≠ 0 := h b List.mem_cons_self
    have htail := ih fun c hc => h c (List.mem_cons_of_mem b hc)
    rw [cString] at htail ⊢
    rw [List.cons_append, List.takeWhile_cons_of_pos (by simpa using hb), htail]

/-- An address that the encoder accepts is never cut at a NUL of its own. -/
theorem asciiBytes_ne_zero (hascii : IsAscii destIp) (hnul : NulFree destIp) :
    ∀ b ∈ asciiBytes destIp, b ≠ 0 := by
  intro b hb
  obtain ⟨c, hc, rfl⟩ := List.mem_map.mp hb
  have hlt := hascii c hc
  have hne := hnul c hc
  intro hzero
  have hnat := congrArg UInt8.toNat hzero
  simp only [UInt8.toNat_ofNat', UInt8.toNat_zero] at hnat
  omega

/-- The flight side reads the first 15 characters of the address. -/
theorem text_cString_destinationField (hascii : IsAscii destIp) (hnul : NulFree destIp) :
    text (cString (destinationField destIp)) = String.ofList (destIp.toList.take 15) := by
  obtain ⟨k, hk⟩ := destinationField_eq destIp
  have hne : ∀ b ∈ (asciiBytes destIp).take 15, b ≠ 0 :=
    fun b hb => asciiBytes_ne_zero hascii hnul b (List.mem_of_mem_take hb)
  have hback := map_toChar_asciiBytes fun c hc => (hascii c hc).trans (by decide)
  rw [hk, cString_append_nul hne, text, List.map_take, hback]

theorem text_cString_of_length_le (hascii : IsAscii destIp) (hnul : NulFree destIp)
    (hlen : destIp.length ≤ 15) : text (cString (destinationField destIp)) = destIp := by
  have htake : destIp.toList.take 15 = destIp.toList :=
    List.take_of_length_le (by rwa [String.length_toList])
  rw [text_cString_destinationField hascii hnul, htake, String.ofList_toList]

end Field

/-! ### The command -/

/-- A call that hands `packet` to `sendto`, whatever becomes of it: the number
is used up, and on success the packet is transmitted and recorded. -/
def HandsOver (s : CommandDispatcher) (mid funcCode : ℤ) (payload packet : Bytes)
    (call : Except PyException ℕ → Except PyException ℕ × CommandDispatcher) : Prop :=
  let seq := (s.seqCounts mid).getD 0
  let counted := { s with
    seqCounts := Function.update s.seqCounts mid (some ((seq + 1) % 2 ^ 14)) }
  packCmdPacket mid funcCode payload seq = .ok packet ∧
    (∀ n, call (.ok n) = (.ok n, { counted with
      transmitted := s.transmitted ++ [packet]
      history := s.history ++ [recordOf mid funcCode payload seq n] })) ∧
    ∀ e, call (.error e) = (.error e, counted)

theorem handsOver_send {mid : ℤ} {payload : Bytes} (h : CmdFits mid payload) (funcCode : ℤ)
    (s : CommandDispatcher) :
    HandsOver s mid funcCode payload
      (cmdBytes mid (funcCode % 128).toNat payload ((s.seqCounts mid).getD 0))
      fun sendto => s.send mid funcCode payload sendto := by
  refine ⟨packCmdPacket_ok h _ _, ?_, ?_⟩
  · intro n
    simp only [CommandDispatcher.send_eq, if_pos h]
    rfl
  · intro e
    simp only [CommandDispatcher.send_eq, if_pos h]
    rfl

theorem enableTelemetryOutput_ascii {destIp : String} (h : IsAscii destIp)
    (sendto : Except PyException ℕ) (s : CommandDispatcher) :
    s.enableTelemetryOutput destIp sendto =
      s.send Mid.toLabCmd Fc.toLabOutputEnable (destinationField destIp) sendto := by
  rw [CommandDispatcher.enableTelemetryOutput, encodeAscii_ok h]
  rfl

theorem payload_enableTelemetryOutput {destIp : String} (h : IsAscii destIp) :
    (Op.enableTelemetryOutput destIp).payload = .ok (destinationField destIp) := by
  rw [Op.payload, encodeAscii_ok h]
  rfl

/-- From every dispatcher state an address outside ASCII changes nothing, and
any other one without a NUL leaves in a valid enable command from which its
first 15 characters are read back. So short addresses are recovered exactly,
and different ones have different payloads. -/
theorem enableTelemetryOutput_carries (s : CommandDispatcher) (destIp : String) :
    (¬ IsAscii destIp → ∀ sendto,
      s.enableTelemetryOutput destIp sendto = (.error .unicodeEncodeError, s)) ∧
    (IsAscii destIp → NulFree destIp → ∃ payload packet,
      HandsOver s 0x1880 6 payload packet (fun sendto => s.enableTelemetryOutput destIp sendto) ∧
      packet.length = 24 ∧ CarriesCommand packet 0x1880 6 payload ∧
      payload.length = 16 ∧ payload.getLast? = some 0 ∧
      text (cString payload) = String.ofList (destIp.toList.take 15) ∧
      (destIp.length ≤ 15 → text (cString payload) = destIp) ∧
      ∀ other, IsAscii other → NulFree other → destIp.length ≤ 15 → other.length ≤ 15 →
        other ≠ destIp → (Op.enableTelemetryOutput other).payload ≠ .ok payload) := by
  constructor
  · intro hascii sendto
    rw [CommandDispatcher.enableTelemetryOutput, encodeAscii_error hascii]
  · intro hascii hnul
    have hlen := destinationField_length destIp
    have hfits : CmdFits 0x1880 (destinationField destIp) := ⟨by decide, by omega⟩
    have hcarries := carriesCommand_cmdBytes hfits (show 0 ≤ (6 : ℤ) ∧ (6 : ℤ) ≤ 127 by decide)
      ((s.seqCounts 0x1880).getD 0)
    refine ⟨destinationField destIp, _, ?_, ?_, hcarries, hlen, destinationField_last destIp,
      text_cString_destinationField hascii hnul, text_cString_of_length_le hascii hnul, ?_⟩
    · simp only [enableTelemetryOutput_ascii hascii]
      exact handsOver_send hfits 6 s
    · rw [hcarries.length, hlen]
    · intro other hascii' hnul' hshort hshort' hne hpayload
      rw [payload_enableTelemetryOutput hascii', Except.ok.injEq] at hpayload
      apply hne
      calc other
        _ = text (cString (destinationField other)) :=
            (text_cString_of_length_le hascii' hnul' hshort').symm
        _ = text (cString (destinationField destIp)) := by rw [hpayload]
        _ = destIp := text_cString_of_length_le hascii hnul hshort

end CfsBridge.EnableOutput
