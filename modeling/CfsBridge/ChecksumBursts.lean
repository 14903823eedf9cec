import CfsBridge.Bits
import CfsBridge.CcsdsCodec

/-!
# Burst errors under the command checksum

A transmission error that stays within eight consecutive bits changes at most
one bit in each column of the packet. The exclusive or of all bytes therefore
changes with it, wherever the burst starts.
-/
namespace CfsBridge.ChecksumBursts
open Bytes Python CcsdsUtils

/-- A different string of the same length, equal outside the eight bits from `a` on. -/
structure Burst (p q : Bytes) (a : ℕ) : Prop where
  length : q.length = p.length
  ne : q ≠ p
  within : ∀ k < 8 * p.length, bit p k ≠ bit q k → a ≤ k ∧ k < a + 8

theorem Burst.xorAll_ne {p q : Bytes} {a : ℕ} (h : Burst p q a) : xorAll q ≠ xorAll p := by
  obtain ⟨k, hk⟩ := exists_bit_ne h.length h.ne
  have hset (l : ℕ) : bit (difference p q) l = true ↔ bit p l ≠ bit q l := by
    rw [bit_difference h.length, Bool.xor_iff_ne]
  have hburst (l : ℕ) (hl : bit (difference p q) l = true) : a ≤ l ∧ l < a + 8 := by
    have hdiff := (hset l).mp hl
    apply h.within l _ hdiff
    by_contra hend
    apply hdiff
    rw [bit_of_length_le (by omega), bit_of_length_le (by rw [h.length]; omega)]
  have hne := xorAll_ne_zero_of_burst ((hset k).mpr hk) hburst
  intro heq
  apply hne
  rw [xorAll_difference h.length, heq, UInt8.xor_self]

/-- The checksum is zero exactly for the strings whose bytes add up to `0xFF`. -/
theorem computeChecksum_eq_zero_iff (bs : Bytes) : computeChecksum bs = 0 ↔ xorAll bs = 0xFF := by
  rw [computeChecksum_eq, UInt8.xor_eq_zero_iff, eq_comm]

/-- Every packet of the encoder has byte sum `0xFF`, and no burst within eight
bits leaves a string with that sum valid. -/
theorem computeChecksum_detects_burst :
    (∀ mid funcCode seqCount payload packet,
      packCmdPacket mid funcCode payload seqCount = .ok packet → xorAll packet = 0xFF) ∧
    ∀ (p q : Bytes) (a : ℕ), xorAll p = 0xFF → Burst p q a →
      computeChecksum q ≠ 0 ∧ xorAll q ≠ 0xFF := by
  constructor
  · intro mid funcCode seqCount payload packet hpack
    obtain ⟨hfits, rfl⟩ := packCmdPacket_eq_ok_iff.mp hpack
    exact xorAll_cmdBytes _ _ _ _
  · intro p q a hp hburst
    have hsum : xorAll q ≠ 0xFF := hp ▸ hburst.xorAll_ne
    exact ⟨fun hzero => hsum ((computeChecksum_eq_zero_iff q).mp hzero), hsum⟩

/-- Four bits on each side of the boundary before the checksum byte. -/
theorem computeChecksum_detects_burst_straddling :
    let p := cmdBytes 0x1882 0 [] 0
    let q := p.take 6 ++ [0x0F, p.getD 7 0 ^^^ 0xF0]
    Burst p q 52 ∧ computeChecksum q ≠ 0 := by
  have hburst : Burst (cmdBytes 0x1882 0 [] 0)
      ((cmdBytes 0x1882 0 [] 0).take 6 ++ [0x0F, (cmdBytes 0x1882 0 [] 0).getD 7 0 ^^^ 0xF0]) 52 := by
    constructor
    · decide +kernel
    · decide +kernel
    · decide +kernel
  exact ⟨hburst, (computeChecksum_detects_burst.2 _ _ 52 (xorAll_cmdBytes _ _ _ _) hburst).1⟩

end CfsBridge.ChecksumBursts
