import CfsBridge.CcsdsUtils

/-!
# The primary header

Three 16-bit words and the seven fields in them. Packing reduces every field to
its width and fails only on the length field, which has no mask. Unpacking reads
all 48 bits, so six bytes and the headers whose fields fit are the same thing.
-/
namespace CfsBridge.CcsdsUtils
open Bytes Python

/-! ### Three words on the wire -/

theorem slice_words {a b c : Bytes} (ha : a.length = 2) (hb : b.length = 2) (hc : c.length = 2)
    (rest : Bytes) :
    slice 0 2 (a ++ b ++ c ++ rest) = a ∧ slice 2 4 (a ++ b ++ c ++ rest) = b ∧
      slice 4 6 (a ++ b ++ c ++ rest) = c := by
  simp [slice_append, slice_of_length_le, slice_zero_of_length_le, ha, hb, hc]

/-- A string that starts with three words has the header these words spell. -/
theorem headerAt_words {w s l : ℤ} (hw : 0 ≤ w ∧ w < 65536) (hs : 0 ≤ s ∧ s < 65536)
    (hl : 0 ≤ l ∧ l < 65536) (rest : Bytes) :
    headerAt (beBytes 2 w.toNat ++ beBytes 2 s.toNat ++ beBytes 2 l.toNat ++ rest) =
      .ofWords w s l := by
  obtain ⟨h0, h2, h4⟩ := slice_words (beBytes_length 2 w.toNat) (beBytes_length 2 s.toNat)
    (beBytes_length 2 l.toNat) rest
  rw [headerAt, h0, h2, h4, unpackUnsigned_beBytes hw.1 hw.2, unpackUnsigned_beBytes hs.1 hs.2,
    unpackUnsigned_beBytes hl.1 hl.2]

/-- The three words of a string are its first six bytes. -/
theorem beBytes_words {data : Bytes} (h : 6 ≤ data.length) :
    beBytes 2 (unpackUnsigned (slice 0 2 data)).toNat ++
        beBytes 2 (unpackUnsigned (slice 2 4 data)).toNat ++
      beBytes 2 (unpackUnsigned (slice 4 6 data)).toNat = slice 0 6 data := by
  have hw : (slice 0 2 data).length = 2 := slice_length_of_le (by omega) 0
  have hs : (slice 2 4 data).length = 2 := slice_length_of_le (by omega) 2
  have hl : (slice 4 6 data).length = 2 := slice_length_of_le h 4
  rw [beBytes_unpackUnsigned hw, beBytes_unpackUnsigned hs, beBytes_unpackUnsigned hl,
    slice_append_slice (by decide) (by decide), slice_append_slice (by decide) (by decide)]

namespace CcsdsPrimaryHeader

/-- The length field fits its word. -/
def LengthFits (h : CcsdsPrimaryHeader) : Prop := 0 ≤ h.dataLength ∧ h.dataLength ≤ 65535

/-- Every masked field modulo its width. -/
def reduced (h : CcsdsPrimaryHeader) : CcsdsPrimaryHeader where
  version := h.version % 2 ^ 3
  pktType := h.pktType % 2
  secHdrFlag := h.secHdrFlag % 2
  apid := h.apid % 2 ^ 11
  seqFlags := h.seqFlags % 2 ^ 2
  seqCount := h.seqCount % 2 ^ 14
  dataLength := h.dataLength

/-! ### The two masked words -/

theorem sequence_eq (h : CcsdsPrimaryHeader) :
    h.sequence = h.seqFlags % 4 * 16384 + h.seqCount % 16384 := by
  rw [sequence, land_0x03, land_0x3FFF, Words.lor_shiftLeft (by omega) (by omega) (by omega)]
  norm_num

theorem streamId_mem (h : CcsdsPrimaryHeader) : 0 ≤ h.streamId ∧ h.streamId < 65536 := by
  rw [streamId_eq]
  omega

theorem sequence_mem (h : CcsdsPrimaryHeader) : 0 ≤ h.sequence ∧ h.sequence < 65536 := by
  rw [sequence_eq]
  omega

/-- The two sequence fields lose nothing of their word. -/
theorem sequence_ofWords {s : ℤ} (h0 : 0 ≤ s) (hlt : s < 65536) (w l : ℤ) :
    (ofWords w s l).sequence = s := by
  rw [sequence_eq]
  simp only [ofWords]
  omega

/-- The words of a header spell its fields, each within its own width. -/
theorem ofWords_streamId_sequence (h : CcsdsPrimaryHeader) :
    ofWords h.streamId h.sequence h.dataLength = h.reduced := by
  rw [streamId_eq, sequence_eq]
  simp only [ofWords, reduced, mk.injEq, and_true]
  omega

/-! ### Packing -/

theorem pack_ok {h : CcsdsPrimaryHeader} (hl : h.LengthFits) :
    h.pack = .ok (beBytes 2 h.streamId.toNat ++ beBytes 2 h.sequence.toNat ++
      beBytes 2 h.dataLength.toNat) :=
  packHHH_of_mem h.streamId_mem h.sequence_mem ⟨hl.1, by have := hl.2; omega⟩

theorem pack_error {h : CcsdsPrimaryHeader} (hl : ¬ h.LengthFits) :
    h.pack = .error .structError := by
  apply packHHH_of_not_mem h.sequence_mem
  intro hmem
  exact hl ⟨hmem.2.1, by have := hmem.2.2; omega⟩

theorem pack_eq_error_iff (h : CcsdsPrimaryHeader) :
    h.pack = .error .structError ↔ ¬ h.LengthFits := by
  by_cases hl : h.LengthFits
  · simp [pack_ok hl, hl]
  · simp [pack_error hl, hl]

theorem length_of_pack {h : CcsdsPrimaryHeader} {data : Bytes} (hpack : h.pack = .ok data) :
    data.length = 6 := by
  by_cases hl : h.LengthFits
  · rw [pack_ok hl] at hpack
    cases hpack
    simp
  · rw [pack_error hl] at hpack
    cases hpack

/-- Unpacking returns what packing kept of each field. -/
theorem unpack_of_pack {h : CcsdsPrimaryHeader} {data : Bytes} (hpack : h.pack = .ok data) :
    unpack data = .ok h.reduced := by
  have hlen := length_of_pack hpack
  by_cases hl : h.LengthFits
  · rw [pack_ok hl] at hpack
    have hheader := headerAt_words h.streamId_mem h.sequence_mem
      ⟨hl.1, show h.dataLength < 65536 by have := hl.2; omega⟩ []
    rw [List.append_nil, Except.ok.inj hpack, ofWords_streamId_sequence] at hheader
    rw [unpack_ok (by omega), ← hheader]
    rfl
  · rw [pack_error hl] at hpack
    cases hpack

/-- Packing an unpacked header gives its six bytes back. -/
theorem pack_headerAt {data : Bytes} (h : 6 ≤ data.length) :
    (headerAt data).pack = .ok (data.take 6) := by
  have hword := unpackUnsigned_word (show 2 ≤ data.length by omega) (show 2 - 0 = 2 from rfl)
  have hseq := unpackUnsigned_word (show 4 ≤ data.length by omega) (show 4 - 2 = 2 from rfl)
  have hlen := unpackUnsigned_word h (show 6 - 4 = 2 from rfl)
  have hfits : (headerAt data).LengthFits := ⟨hlen.1, Int.le_of_lt_add_one hlen.2⟩
  rw [pack_ok hfits, headerAt, streamId_ofWords hword.1 hword.2, sequence_ofWords hseq.1 hseq.2,
    ← slice_zero_left, ← beBytes_words h]
  rfl

/-- Unpacking and packing undo each other: on bytes always, on headers up to the
width of each field, so that no field reaches another one. Packing fails only
when the length field does not fit. -/
theorem pack_unpack_bijection :
    (∀ data : Bytes, 6 ≤ data.length →
      ∃ h, unpack data = .ok h ∧ h.pack = .ok (data.take 6)) ∧
    (∀ h : CcsdsPrimaryHeader,
      (h.pack = .error .structError ↔ ¬ (0 ≤ h.dataLength ∧ h.dataLength ≤ 65535)) ∧
      (0 ≤ h.dataLength ∧ h.dataLength ≤ 65535 →
        ∃ data, h.pack = .ok data ∧ data.length = 6 ∧ unpack data = .ok h.reduced)) ∧
    ∀ data : Bytes, data.length = 6 →
      ∃! h : CcsdsPrimaryHeader, h.pack = .ok data ∧ h.reduced = h := by
  refine ⟨?_, ?_, ?_⟩
  · intro data hlen
    exact ⟨headerAt data, unpack_ok hlen, pack_headerAt hlen⟩
  · intro h
    refine ⟨pack_eq_error_iff h, ?_⟩
    intro hl
    have hpack := pack_ok hl
    exact ⟨_, hpack, length_of_pack hpack, unpack_of_pack hpack⟩
  · intro data hlen
    have hpack := pack_headerAt hlen.ge
    rw [List.take_of_length_le hlen.le] at hpack
    refine ⟨headerAt data, ⟨hpack, ?_⟩, ?_⟩
    · have hback := unpack_of_pack hpack
      rw [unpack_ok hlen.ge] at hback
      exact (Except.ok.inj hback).symm
    · rintro h ⟨hh, hreduced⟩
      have hback := unpack_of_pack hh
      rw [unpack_ok hlen.ge, hreduced] at hback
      exact (Except.ok.inj hback).symm

end CcsdsPrimaryHeader
end CfsBridge.CcsdsUtils
