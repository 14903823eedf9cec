import Mathlib.Data.Int.Bitwise
import Mathlib.Tactic

/-!
# Bit fields of unbounded integers

Masking, shifting and joining of two's-complement integers of any size, as a
language without machine words computes them. A mask of ones is a remainder, a
right shift is a quotient, and a disjoint `or` is a sum, so field arithmetic
ends in linear integer goals.
-/
namespace CfsBridge.Words

lemma ldiff_ones (m w : ℕ) : Nat.ldiff (2 ^ w - 1) m = 2 ^ w - (m % 2 ^ w + 1) := by
  have hlt : m % 2 ^ w < 2 ^ w := Nat.mod_lt _ (Nat.two_pow_pos w)
  apply Nat.eq_of_testBit_eq
  intro i
  rw [Nat.testBit_ldiff, Nat.testBit_two_pow_sub_succ hlt, Nat.testBit_two_pow_sub_one,
    Nat.testBit_mod_two_pow]
  by_cases hi : i < w <;> simp [hi]

/-- A mask of `w` ones keeps the residue modulo `2 ^ w`, also of a negative number. -/
theorem land_ones (x : ℤ) (w : ℕ) : Int.land x (2 ^ w - 1) = x % 2 ^ w := by
  have hpos : 0 < 2 ^ w := Nat.two_pow_pos w
  have hmask : (2 ^ w - 1 : ℤ) = Int.ofNat (2 ^ w - 1) := by
    rw [Int.ofNat_eq_natCast, Nat.cast_sub hpos]
    push_cast
    ring
  rw [hmask]
  cases x with
  | ofNat m =>
    change ((m &&& (2 ^ w - 1) : ℕ) : ℤ) = _
    rw [Nat.and_two_pow_sub_one_eq_mod]
    simp
  | negSucc m =>
    have hlt : m % 2 ^ w < 2 ^ w := Nat.mod_lt _ hpos
    change ((Nat.ldiff (2 ^ w - 1) m : ℕ) : ℤ) = _
    rw [ldiff_ones, Int.negSucc_emod _ (by positivity), Nat.cast_sub hlt]
    push_cast
    ring

/-- Joining a field below a shifted one adds them. -/
theorem lor_shiftLeft {a b : ℤ} {w : ℕ} (ha : 0 ≤ a) (hb : 0 ≤ b) (hlt : b < 2 ^ w) :
    Int.lor (a <<< w) b = a * 2 ^ w + b := by
  obtain ⟨m, rfl⟩ := Int.eq_ofNat_of_zero_le ha
  obtain ⟨n, rfl⟩ := Int.eq_ofNat_of_zero_le hb
  have hn : n < 2 ^ w := by exact_mod_cast hlt
  have hshift : ((m : ℤ) <<< w) = ((m <<< w : ℕ) : ℤ) := by
    rw [Int.shiftLeft_eq, Nat.shiftLeft_eq]
    push_cast
    ring
  rw [hshift]
  change ((m <<< w ||| n : ℕ) : ℤ) = _
  rw [← Nat.shiftLeft_add_eq_or_of_lt hn, Nat.shiftLeft_eq]
  push_cast
  ring

/-- A number with `w` low zero bits and one that fits in them share no bit. -/
theorem lor_eq_add {a b : ℤ} (w : ℕ) (ha : 0 ≤ a) (hb : 0 ≤ b) (hlow : a % 2 ^ w = 0)
    (hlt : b < 2 ^ w) : Int.lor a b = a + b := by
  have hpos : (0 : ℤ) < 2 ^ w := by positivity
  have hsplit : a / 2 ^ w * 2 ^ w = a := Int.ediv_mul_cancel (Int.dvd_of_emod_eq_zero hlow)
  have h := lor_shiftLeft (Int.ediv_nonneg ha hpos.le) hb hlt
  rwa [Int.shiftLeft_eq, hsplit] at h

end CfsBridge.Words
