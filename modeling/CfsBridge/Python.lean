import CfsBridge.Bytes
import CfsBridge.Ieee
import Mathlib.Data.List.DropRight
import Mathlib.Data.List.Infix
import Mathlib.Tactic

/-!
# Python runtime

The part of the Python standard library that the ground software computes
with: exceptions, `struct`, `bytes.hex`, and the string methods applied to
decoded text. Integers are unbounded and every fallible call returns `Except`.
-/
namespace CfsBridge.Python
open Bytes

inductive PyException
  | structError
  | valueError (message : String)
  | keyError (key : String)
  | overflowError
  | unicodeEncodeError
  | osError
  deriving DecidableEq, Repr

@[simp] theorem ok_bind {ε α β : Type} (x : α) (f : α → Except ε β) :
    (Except.ok x >>= f) = f x := rfl

/-! ### struct -/

/-- One unsigned big-endian field of `w` bytes (`B`, `!H`, `!I`). -/
def packUnsigned (w : ℕ) (x : ℤ) : Except PyException Bytes :=
  if 0 ≤ x ∧ x < 256 ^ w then .ok (beBytes w x.toNat) else .error .structError

def unpackUnsigned (bs : Bytes) : ℤ := ofBE bs

/-- `struct.pack('!HHH', a, b, c)`. -/
def packHHH (a b c : ℤ) : Except PyException Bytes := do
  let x ← packUnsigned 2 a
  let y ← packUnsigned 2 b
  let z ← packUnsigned 2 c
  return x ++ y ++ z

/-- `struct.pack('BB', a, b)`. -/
def packBB (a b : ℤ) : Except PyException Bytes := do
  let x ← packUnsigned 1 a
  let y ← packUnsigned 1 b
  return x ++ y

/-- `struct.pack('!IH', a, b)`. -/
def packIH (a b : ℤ) : Except PyException Bytes := do
  let x ← packUnsigned 4 a
  let y ← packUnsigned 2 b
  return x ++ y

/-- `struct.unpack('!HHH', data)`, which insists on the exact size. -/
def unpackHHH (data : Bytes) : Except PyException (ℤ × ℤ × ℤ) :=
  if data.length = 6 then
    .ok (unpackUnsigned (slice 0 2 data), unpackUnsigned (slice 2 4 data),
      unpackUnsigned (slice 4 6 data))
  else .error .structError

def unpackH (data : Bytes) : Except PyException ℤ :=
  if data.length = 2 then .ok (unpackUnsigned data) else .error .structError

def unpackBB (data : Bytes) : Except PyException (ℤ × ℤ) :=
  if data.length = 2 then
    .ok (unpackUnsigned (slice 0 1 data), unpackUnsigned (slice 1 2 data))
  else .error .structError

def unpackIH (data : Bytes) : Except PyException (ℤ × ℤ) :=
  if data.length = 6 then
    .ok (unpackUnsigned (slice 0 4 data), unpackUnsigned (slice 4 6 data))
  else .error .structError

/-- `struct.pack('!f', value)` of a Python float, which is a double. -/
def packFloat (value : Ieee.Binary64) : Except PyException Bytes :=
  match Ieee.narrow value with
  | some b => .ok (beBytes 4 b.toNat)
  | none => .error .overflowError

/-- `struct.unpack('<f', data)`, the pattern widened to a double. -/
def unpackFloatLE (data : Bytes) : Except PyException Ieee.Binary32 :=
  if data.length = 4 then .ok (Ieee.Binary32.quiet (BitVec.ofNat 32 (ofLE data)))
  else .error .structError

theorem packUnsigned_of_mem {w : ℕ} {x : ℤ} (h0 : 0 ≤ x) (hlt : x < 256 ^ w) :
    packUnsigned w x = .ok (beBytes w x.toNat) := if_pos ⟨h0, hlt⟩

theorem packUnsigned_of_not_mem {w : ℕ} {x : ℤ} (h : ¬ (0 ≤ x ∧ x < 256 ^ w)) :
    packUnsigned w x = .error .structError := if_neg h

theorem packHHH_of_mem {a b c : ℤ} (ha : 0 ≤ a ∧ a < 65536) (hb : 0 ≤ b ∧ b < 65536)
    (hc : 0 ≤ c ∧ c < 65536) :
    packHHH a b c = .ok (beBytes 2 a.toNat ++ beBytes 2 b.toNat ++ beBytes 2 c.toNat) := by
  unfold packHHH
  rw [packUnsigned_of_mem ha.1 ha.2, packUnsigned_of_mem hb.1 hb.2, packUnsigned_of_mem hc.1 hc.2]
  rfl

/-- With a middle word that fits, the call fails exactly when an outer one does not. -/
theorem packHHH_of_not_mem {a b c : ℤ} (hb : 0 ≤ b ∧ b < 65536)
    (h : ¬ ((0 ≤ a ∧ a < 65536) ∧ 0 ≤ c ∧ c < 65536)) :
    packHHH a b c = .error .structError := by
  unfold packHHH
  by_cases ha : 0 ≤ a ∧ a < 65536
  · have hc : ¬ (0 ≤ c ∧ c < 256 ^ 2) := fun hc => h ⟨ha, hc⟩
    rw [packUnsigned_of_mem ha.1 ha.2, packUnsigned_of_mem hb.1 hb.2, packUnsigned_of_not_mem hc]
    rfl
  · have ha' : ¬ (0 ≤ a ∧ a < 256 ^ 2) := ha
    rw [packUnsigned_of_not_mem ha']
    rfl

theorem packBB_of_mem {a b : ℤ} (ha : 0 ≤ a ∧ a < 256) (hb : 0 ≤ b ∧ b < 256) :
    packBB a b = .ok (beBytes 1 a.toNat ++ beBytes 1 b.toNat) := by
  unfold packBB
  rw [packUnsigned_of_mem ha.1 (by simpa using ha.2), packUnsigned_of_mem hb.1 (by simpa using hb.2)]
  rfl

theorem packIH_of_mem {a b : ℤ} (ha : 0 ≤ a ∧ a < 2 ^ 32) (hb : 0 ≤ b ∧ b < 65536) :
    packIH a b = .ok (beBytes 4 a.toNat ++ beBytes 2 b.toNat) := by
  unfold packIH
  rw [packUnsigned_of_mem ha.1 (by simpa using ha.2), packUnsigned_of_mem hb.1 (by simpa using hb.2)]
  rfl

theorem unpackUnsigned_beBytes {w : ℕ} {x : ℤ} (h0 : 0 ≤ x) (hlt : x < 256 ^ w) :
    unpackUnsigned (beBytes w x.toNat) = x := by
  have hnat : x.toNat < 256 ^ w := by zify [Int.toNat_of_nonneg h0]; exact_mod_cast hlt
  rw [unpackUnsigned, ofBE_beBytes_of_lt hnat, Int.toNat_of_nonneg h0]

theorem unpackUnsigned_nonneg (bs : Bytes) : 0 ≤ unpackUnsigned bs := Int.natCast_nonneg _

theorem unpackUnsigned_lt {w : ℕ} {bs : Bytes} (h : bs.length = w) :
    unpackUnsigned bs < 256 ^ w := by
  have hlt := ofBE_lt bs
  rw [h] at hlt
  unfold unpackUnsigned
  exact_mod_cast hlt

/-- A 16-bit word of a string. -/
theorem unpackUnsigned_word {a b : ℕ} {bs : Bytes} (hb : b ≤ bs.length) (hw : b - a = 2) :
    0 ≤ unpackUnsigned (slice a b bs) ∧ unpackUnsigned (slice a b bs) < 65536 := by
  have hlen : (slice a b bs).length = 2 := by rw [slice_length_of_le hb, hw]
  exact ⟨unpackUnsigned_nonneg _, by simpa using unpackUnsigned_lt hlen⟩

theorem beBytes_unpackUnsigned {w : ℕ} {bs : Bytes} (h : bs.length = w) :
    beBytes w (unpackUnsigned bs).toNat = bs := by
  rw [unpackUnsigned, Int.toNat_natCast, beBytes_ofBE_of_length h]

theorem packFloat_length {value : Ieee.Binary64} {bs : Bytes} (h : packFloat value = .ok bs) :
    bs.length = 4 := by
  unfold packFloat at h
  split at h
  · cases h
    exact beBytes_length 4 _
  · cases h

/-! ### hexadecimal text -/

def hexPair (b : UInt8) : List Char :=
  [Nat.digitChar (b.toNat / 16), Nat.digitChar (b.toNat % 16)]

/-- `data.hex()`. -/
def hex (data : Bytes) : String := String.ofList (data.flatMap hexPair)

/-- Hexadecimal text is made of digits. -/
theorem mem_hex {data : Bytes} {c : Char} (h : c ∈ (hex data).toList) :
    ∃ n, n < 16 ∧ c = Nat.digitChar n := by
  rw [hex, String.toList_ofList] at h
  obtain ⟨b, _, hpair⟩ := List.mem_flatMap.mp h
  have hb := b.toNat_lt
  rw [hexPair, List.mem_pair] at hpair
  obtain hc | hc := hpair
  · exact ⟨_, by omega, hc⟩
  · exact ⟨_, by omega, hc⟩

def hexValue (c : Char) : Option ℕ :=
  if '0' ≤ c ∧ c ≤ '9' then some (c.toNat - 48)
  else if 'a' ≤ c ∧ c ≤ 'f' then some (c.toNat - 87)
  else none

def unhexChars : List Char → Option Bytes
  | [] => some []
  | [_] => none
  | high :: low :: rest => do
    let h ← hexValue high
    let l ← hexValue low
    let bs ← unhexChars rest
    return UInt8.ofNat (16 * h + l) :: bs

/-- The bytes a string of digit pairs spells. -/
def unhex (s : String) : Option Bytes := unhexChars s.toList

theorem hexValue_digitChar {n : ℕ} (h : n < 16) : hexValue (Nat.digitChar n) = some n := by
  interval_cases n <;> decide

theorem unhexChars_flatMap (data : Bytes) : unhexChars (data.flatMap hexPair) = some data := by
  induction data with
  | nil => rfl
  | cons b bs ih =>
    have hb := b.toNat_lt
    have hjoin : UInt8.ofNat (16 * (b.toNat / 16) + b.toNat % 16) = b := by
      rw [Nat.div_add_mod, UInt8.ofNat_toNat]
    rw [List.flatMap_cons, hexPair, List.cons_append, List.cons_append, List.nil_append, unhexChars,
      hexValue_digitChar (by omega), hexValue_digitChar (by omega), ih]
    simp only [Option.bind_eq_bind, Option.bind_some, hjoin]
    rfl

@[simp] theorem unhex_hex (data : Bytes) : unhex (hex data) = some data := by
  simp [unhex, hex, unhexChars_flatMap]

/-- `f"0x{n:04X}"`. -/
def hex04X (n : ℕ) : String :=
  let digits := (Nat.toDigits 16 n).map Char.toUpper
  String.ofList (['0', 'x'] ++ List.replicate (4 - digits.length) '0' ++ digits)

/-! ### lists -/

/-- A slice index of a list of `length` entries; a negative one counts from the end. -/
def sliceIndex (i : ℤ) (length : ℕ) : ℕ := (if i < 0 then i + length else i).toNat

/-- `xs[start:]`. -/
def sliceFrom {α : Type} (start : ℤ) (xs : List α) : List α :=
  xs.drop (sliceIndex start xs.length)

/-- `xs[start:stop]`. -/
def sliceBetween {α : Type} (start stop : ℤ) (xs : List α) : List α :=
  (xs.take (sliceIndex stop xs.length)).drop (sliceIndex start xs.length)

/-- Minus zero is zero: the slice that should keep nothing keeps everything. -/
theorem sliceFrom_neg {α : Type} (count : ℕ) (xs : List α) :
    sliceFrom (-count) xs = if count = 0 then xs else xs.rtake count := by
  unfold sliceFrom sliceIndex List.rtake
  by_cases hzero : count = 0
  · simp [hzero]
  · have hneg : (-count : ℤ) < 0 := by omega
    have hstart : (-count + xs.length : ℤ).toNat = xs.length - count := by omega
    rw [if_pos hneg, if_neg hzero, hstart]

theorem sliceIndex_of_nonneg {i : ℤ} (h : 0 ≤ i) (length : ℕ) : sliceIndex i length = i.toNat := by
  rw [sliceIndex, if_neg (by omega)]

/-! ### text -/

/-- The characters `str.strip` removes. -/
def isSpace (c : Char) : Bool :=
  (9 ≤ c.toNat && c.toNat ≤ 13) || (28 ≤ c.toNat && c.toNat ≤ 32) ||
    [0x85, 0xA0, 0x1680, 0x2028, 0x2029, 0x202F, 0x205F, 0x3000].contains c.toNat ||
    (0x2000 ≤ c.toNat && c.toNat ≤ 0x200A)

/-- `s.strip()`. -/
def strip (s : List Char) : List Char := (s.dropWhile isSpace).rdropWhile isSpace

/-- `s.upper()` of an ASCII string. -/
def upper (s : String) : String := String.ofList (s.toList.map Char.toUpper)

/-- The code points of a text, one byte each. -/
def asciiBytes (s : String) : Bytes := s.toList.map fun c => UInt8.ofNat c.toNat

/-- `s.encode("ascii")`. -/
def encodeAscii (s : String) : Except PyException Bytes :=
  if s.toList.all fun c => c.toNat < 128 then .ok (asciiBytes s) else .error .unicodeEncodeError

/-- `data.ljust(w, fill)`. -/
def ljust (w : ℕ) (fill : UInt8) (data : Bytes) : Bytes :=
  data ++ List.replicate (w - data.length) fill

/-- `needle in s`. -/
def contains (needle s : String) : Bool := decide (needle.toList <:+: s.toList)

end CfsBridge.Python
