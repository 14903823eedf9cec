import CfsBridge.Bytes
import Mathlib.Tactic

/-!
# Bits of a byte string

The bits of a byte string in transmission order, and the bitwise difference of
two strings of one length. The exclusive or of all bytes reads the string by
columns: its bit `i` sees one bit of every byte, so a column with a single set
bit cannot cancel.
-/
namespace CfsBridge.Bytes

/-- Bit `k` of a byte string, the most significant bit of each byte first. -/
def bit (bs : Bytes) (k : ℕ) : Bool := (bs.getD (k / 8) 0).toNat.testBit (7 - k % 8)

theorem bit_of_length_le {bs : Bytes} {k : ℕ} (h : 8 * bs.length ≤ k) : bit bs k = false := by
  have hend : bs.length ≤ k / 8 := by omega
  simp [bit, List.getD_eq_getElem?_getD, List.getElem?_eq_none hend]

/-- The bytes of two strings, exclusive-or by position. -/
def difference (p q : Bytes) : Bytes := List.zipWith (· ^^^ ·) p q

theorem getD_difference {p q : Bytes} (hlen : q.length = p.length) (j : ℕ) :
    (difference p q).getD j 0 = p.getD j 0 ^^^ q.getD j 0 := by
  induction p generalizing q j with
  | nil =>
    have hq : q = [] := List.eq_nil_of_length_eq_zero hlen
    subst hq
    simp [difference]
  | cons a p ih =>
    cases q with
    | nil => cases hlen
    | cons b q =>
      cases j with
      | zero => rfl
      | succ j => exact ih (Nat.succ.inj hlen) j

theorem bit_difference {p q : Bytes} (hlen : q.length = p.length) (k : ℕ) :
    bit (difference p q) k = (bit p k ^^ bit q k) := by
  rw [bit, getD_difference hlen, UInt8.toNat_xor, Nat.testBit_xor]
  rfl

theorem xorAll_difference {p q : Bytes} (hlen : q.length = p.length) :
    xorAll (difference p q) = xorAll p ^^^ xorAll q := by
  induction p generalizing q with
  | nil =>
    have hq : q = [] := List.eq_nil_of_length_eq_zero hlen
    subst hq
    rfl
  | cons a p ih =>
    cases q with
    | nil => cases hlen
    | cons b q =>
      have htail : xorAll (difference p q) = xorAll p ^^^ xorAll q := ih (Nat.succ.inj hlen)
      calc xorAll (difference (a :: p) (b :: q))
        _ = a ^^^ b ^^^ xorAll (difference p q) := xorAll_cons _ _
        _ = a ^^^ b ^^^ (xorAll p ^^^ xorAll q) := by rw [htail]
        _ = xorAll (a :: p) ^^^ xorAll (b :: q) := by rw [xorAll_cons, xorAll_cons]; ac_rfl

/-- Different strings of one length differ in some bit. -/
theorem exists_bit_ne {p q : Bytes} (hlen : q.length = p.length) (hne : q ≠ p) :
    ∃ k, bit p k ≠ bit q k := by
  by_contra hsame
  push Not at hsame
  apply hne
  apply List.ext_getElem hlen
  intro j hq hp
  apply UInt8.toNat_inj.mp
  apply Nat.eq_of_testBit_eq
  intro i
  by_cases hi : i < 8
  · have hbit := hsame (8 * j + (7 - i))
    have hdiv : (8 * j + (7 - i)) / 8 = j := by omega
    have hmod : 7 - (8 * j + (7 - i)) % 8 = i := by omega
    simp only [bit, hdiv, hmod, List.getD_eq_getElem?_getD, List.getElem?_eq_getElem hp,
      List.getElem?_eq_getElem hq, Option.getD_some] at hbit
    exact hbit.symm
  · have hhigh (b : UInt8) : b.toNat.testBit i = false := by
      apply Nat.testBit_lt_two_pow
      calc b.toNat
        _ < 2 ^ 8 := b.toNat_lt
        _ ≤ 2 ^ i := Nat.pow_le_pow_right (by omega) (by omega)
    rw [hhigh, hhigh]

/-- A column in which at most one byte has its bit set passes that bit on. -/
theorem testBit_xorAll {bs : Bytes} {i j : ℕ}
    (h : ∀ l, l ≠ j → (bs.getD l 0).toNat.testBit i = false) :
    (xorAll bs).toNat.testBit i = (bs.getD j 0).toNat.testBit i := by
  induction bs generalizing j with
  | nil => rfl
  | cons b bs ih =>
    rw [xorAll_cons, UInt8.toNat_xor, Nat.testBit_xor]
    cases j with
    | zero =>
      have htail : (xorAll bs).toNat.testBit i = (bs.getD 0 0).toNat.testBit i :=
        ih fun l _ => h (l + 1) (Nat.succ_ne_zero l)
      have hfirst : (bs.getD 0 0).toNat.testBit i = false := h 1 Nat.one_ne_zero
      rw [htail, hfirst, Bool.xor_false]
      rfl
    | succ j =>
      have hhead : b.toNat.testBit i = false := h 0 (Nat.succ_ne_zero j).symm
      have htail : (xorAll bs).toNat.testBit i = (bs.getD j 0).toNat.testBit i :=
        ih fun l hl => h (l + 1) fun heq => hl (Nat.succ.inj heq)
      rw [hhead, htail, Bool.false_xor]
      rfl

/-- Set bits within eight consecutive positions fall in different columns. -/
theorem xorAll_ne_zero_of_burst {bs : Bytes} {a k : ℕ} (hk : bit bs k = true)
    (hburst : ∀ l, bit bs l = true → a ≤ l ∧ l < a + 8) : xorAll bs ≠ 0 := by
  intro hzero
  have halone (j : ℕ) (hj : j ≠ k / 8) : (bs.getD j 0).toNat.testBit (7 - k % 8) = false := by
    by_contra hset
    have hdiv : (8 * j + k % 8) / 8 = j := by omega
    have hmod : (8 * j + k % 8) % 8 = k % 8 := by omega
    have hbit : bit bs (8 * j + k % 8) = true := by
      rw [bit, hdiv, hmod]
      exact Bool.not_eq_false _ ▸ hset
    have hin := hburst _ hbit
    have hink := hburst k hk
    omega
  have hcolumn := testBit_xorAll halone
  rw [hzero] at hcolumn
  rw [bit, ← hcolumn] at hk
  simp at hk

end CfsBridge.Bytes
