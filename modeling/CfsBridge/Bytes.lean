import Mathlib.Data.Nat.ModEq
import Mathlib.Tactic

/-!
# Byte strings

Fixed-width big- and little-endian numerals, exclusive-or folds and slices of
lists of bytes. A width is always explicit: a numeral that does
not fit is reduced modulo `256 ^ w`, so each round trip is an equation and the
range check stays with the caller.
-/
namespace CfsBridge

abbrev Bytes := List UInt8

namespace Bytes

/-- The `w` big-endian bytes of `n`, most significant first. -/
def beBytes : ℕ → ℕ → Bytes
  | 0, _ => []
  | w + 1, n => beBytes w (n / 256) ++ [UInt8.ofNat n]

/-- The number spelled by big-endian bytes. -/
def ofBE (bs : Bytes) : ℕ := bs.foldl (fun acc b => acc * 256 + b.toNat) 0

def leBytes (w n : ℕ) : Bytes := (beBytes w n).reverse

def ofLE (bs : Bytes) : ℕ := ofBE bs.reverse

@[simp] theorem beBytes_length (w n : ℕ) : (beBytes w n).length = w := by
  induction w generalizing n with
  | zero => rfl
  | succ w ih => simp [beBytes, ih]

@[simp] theorem leBytes_length (w n : ℕ) : (leBytes w n).length = w := by simp [leBytes]

@[simp] theorem ofBE_nil : ofBE [] = 0 := rfl

theorem ofBE_concat (bs : Bytes) (b : UInt8) : ofBE (bs ++ [b]) = ofBE bs * 256 + b.toNat := by
  simp [ofBE, List.foldl_append]

/-- Reading back a numeral gives it modulo the room it was written in. -/
theorem ofBE_beBytes (w n : ℕ) : ofBE (beBytes w n) = n % 256 ^ w := by
  induction w generalizing n with
  | zero => simp [beBytes, Nat.mod_one]
  | succ w ih =>
    have hb : (UInt8.ofNat n).toNat = n % 256 := by simp
    rw [beBytes, ofBE_concat, ih, hb, pow_succ', Nat.mod_mul]
    ring

theorem ofBE_beBytes_of_lt {w n : ℕ} (h : n < 256 ^ w) : ofBE (beBytes w n) = n := by
  rw [ofBE_beBytes, Nat.mod_eq_of_lt h]

theorem ofBE_lt (bs : Bytes) : ofBE bs < 256 ^ bs.length := by
  induction bs using List.reverseRecOn with
  | nil => simp
  | append_singleton bs b ih =>
    have hb : b.toNat < 256 := b.toNat_lt
    rw [ofBE_concat, List.length_append, List.length_singleton, pow_succ]
    omega

/-- A numeral is the only byte string of its width with its value. -/
theorem beBytes_ofBE (bs : Bytes) : beBytes bs.length (ofBE bs) = bs := by
  induction bs using List.reverseRecOn with
  | nil => rfl
  | append_singleton bs b ih =>
    have hb : b.toNat < 256 := b.toNat_lt
    have hdiv : (ofBE bs * 256 + b.toNat) / 256 = ofBE bs := by omega
    have hlow : UInt8.ofNat (ofBE bs * 256 + b.toNat) = b := by
      apply UInt8.toNat_inj.mp
      simp only [UInt8.toNat_ofNat']
      omega
    rw [ofBE_concat, List.length_append, List.length_singleton, beBytes, hdiv, ih, hlow]

theorem beBytes_ofBE_of_length {w : ℕ} {bs : Bytes} (h : bs.length = w) :
    beBytes w (ofBE bs) = bs := h ▸ beBytes_ofBE bs

theorem ofBE_injective_of_length {as bs : Bytes} (hl : as.length = bs.length)
    (h : ofBE as = ofBE bs) : as = bs := by
  rw [← beBytes_ofBE as, hl, h, beBytes_ofBE]

theorem ofLE_leBytes (w n : ℕ) : ofLE (leBytes w n) = n % 256 ^ w := by
  simp [ofLE, leBytes, ofBE_beBytes]

theorem ofLE_lt (bs : Bytes) : ofLE bs < 256 ^ bs.length := by
  simpa [ofLE] using ofBE_lt bs.reverse

/-- The exclusive or of all bytes. -/
def xorAll (bs : Bytes) : UInt8 := bs.foldl (· ^^^ ·) 0

theorem foldl_xor (seed : UInt8) (bs : Bytes) :
    bs.foldl (· ^^^ ·) seed = seed ^^^ xorAll bs := by
  induction bs generalizing seed with
  | nil => simp [xorAll]
  | cons b bs ih =>
    have hb : xorAll (b :: bs) = b ^^^ xorAll bs := by
      rw [xorAll, List.foldl_cons, UInt8.zero_xor, ih]
    rw [List.foldl_cons, ih, hb, UInt8.xor_assoc]

@[simp] theorem xorAll_cons (b : UInt8) (bs : Bytes) : xorAll (b :: bs) = b ^^^ xorAll bs := by
  rw [xorAll, List.foldl_cons, foldl_xor, UInt8.zero_xor]

@[simp] theorem xorAll_append (as bs : Bytes) : xorAll (as ++ bs) = xorAll as ^^^ xorAll bs := by
  rw [xorAll, List.foldl_append, foldl_xor, foldl_xor, UInt8.zero_xor]

theorem xor_cancel (a b c : UInt8) : a ^^^ (c ^^^ b) ^^^ (a ^^^ b) = c := by
  have hswap : a ^^^ (c ^^^ b) = c ^^^ (a ^^^ b) := by
    rw [← UInt8.xor_assoc, UInt8.xor_comm a c, UInt8.xor_assoc]
  rw [hswap, UInt8.xor_assoc, UInt8.xor_self, UInt8.xor_zero]

/-- The exclusive or of a string determines each of its bytes from the others. -/
theorem xorAll_eq_iff (as bs : Bytes) (c k : UInt8) :
    xorAll (as ++ c :: bs) = k ↔ c = k ^^^ xorAll (as ++ 0 :: bs) := by
  simp only [xorAll_append, xorAll_cons, UInt8.zero_xor]
  constructor
  · rintro rfl
    exact (xor_cancel _ _ _).symm
  · rintro rfl
    rw [UInt8.xor_assoc, UInt8.xor_assoc, UInt8.xor_self, UInt8.xor_zero, UInt8.xor_comm k,
      ← UInt8.xor_assoc, UInt8.xor_self, UInt8.zero_xor]

/-- The bytes from `a` up to, not including, `b`; shorter when the string ends. -/
def slice (a b : ℕ) (bs : Bytes) : Bytes := (bs.take b).drop a

theorem slice_length (a b : ℕ) (bs : Bytes) : (slice a b bs).length = min b bs.length - a := by
  simp [slice]

theorem slice_length_of_le {b : ℕ} {bs : Bytes} (h : b ≤ bs.length) (a : ℕ) :
    (slice a b bs).length = b - a := by rw [slice_length, min_eq_left h]

theorem slice_zero_left (b : ℕ) (bs : Bytes) : slice 0 b bs = bs.take b := List.drop_zero

@[simp] theorem slice_zero_right (a : ℕ) (bs : Bytes) : slice a 0 bs = [] := by simp [slice]

@[simp] theorem slice_cons (b : ℕ) (x : UInt8) (bs : Bytes) :
    slice 0 (b + 1) (x :: bs) = x :: slice 0 b bs := by simp [slice]

theorem slice_of_length_le {a : ℕ} {bs : Bytes} (h : bs.length ≤ a) (b : ℕ) :
    slice a b bs = [] := by
  apply List.drop_eq_nil_of_le
  rw [List.length_take]
  omega

theorem slice_zero_of_length_le {b : ℕ} {bs : Bytes} (h : bs.length ≤ b) : slice 0 b bs = bs := by
  simp [slice, List.take_of_length_le h]

theorem slice_append (a b : ℕ) (as bs : Bytes) :
    slice a b (as ++ bs) = slice a b as ++ slice (a - as.length) (b - as.length) bs := by
  rw [slice, List.take_append, List.drop_append, slice, slice, List.length_take]
  rcases le_total b as.length with hb | hb
  · simp [Nat.sub_eq_zero_of_le hb]
  · rw [min_eq_right hb]

/-- A slice that ends inside a first part only sees that part. -/
theorem slice_append_of_le {b : ℕ} {as : Bytes} (h : b ≤ as.length) (a : ℕ) (bs : Bytes) :
    slice a b (as ++ bs) = slice a b as := by
  simp [slice, List.take_append_of_le_length h]

/-- Consecutive slices tile the string. -/
theorem slice_append_slice {a b c : ℕ} (hab : a ≤ b) (hbc : b ≤ c) (bs : Bytes) :
    slice a b bs ++ slice b c bs = slice a c bs := by
  simp only [slice, List.drop_take]
  have hsplit : c - a = (b - a) + (c - b) := by omega
  have hdrop : bs.drop b = (bs.drop a).drop (b - a) := by rw [List.drop_drop]; congr 1; omega
  rw [hsplit, List.take_add, hdrop]

theorem slice_slice {a b c d : ℕ} (h : a + d ≤ b) (bs : Bytes) :
    slice c d (slice a b bs) = slice (a + c) (a + d) bs := by
  simp only [slice, List.take_drop, List.drop_drop, List.take_take, min_eq_left h]

end Bytes
end CfsBridge
