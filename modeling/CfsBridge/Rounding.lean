import CfsBridge.Ieee

/-!
# Rounding to single precision is monotone

The conversion of a double to a single never reverses the order of two values,
so it keeps a value between two singles between them, and the doubles that a
comparison of their singles tells apart are separated by one double.
-/
namespace CfsBridge.Ieee
open Format

/-! ### Integers -/

/-- `n` is an integer nearest to `x`, the even one of two. -/
def RoundsTo (x : ℚ) (n : ℕ) : Prop := |x - n| < 1 / 2 ∨ (|x - n| = 1 / 2 ∧ Even n)

theorem RoundsTo.dist_le {x : ℚ} {n : ℕ} (h : RoundsTo x n) : |x - n| ≤ 1 / 2 := by
  cases h with
  | inl hlt => exact hlt.le
  | inr htie => exact htie.1.le

theorem RoundsTo.mono {x y : ℚ} {n k : ℕ} (hx : RoundsTo x n) (hy : RoundsTo y k) (h : x ≤ y) :
    n ≤ k := by
  by_contra hlt
  have hstep : (k : ℚ) + 1 ≤ n := by exact_mod_cast Nat.succ_le_of_lt (not_le.mp hlt)
  have hlow := (abs_le.mp hx.dist_le).1
  have hhigh := (abs_le.mp hy.dist_le).2
  -- `x` and `y` both lie halfway between `k` and `n`, which cannot both be even
  have hn : (n : ℚ) = k + 1 := by linarith
  have hxtie : |x - n| = 1 / 2 := by
    rw [show x - n = -(1 / 2) by linarith, abs_neg, abs_of_pos (by norm_num)]
  have hytie : |y - k| = 1 / 2 := by
    rw [show y - k = 1 / 2 by linarith, abs_of_pos (by norm_num)]
  have hneven := (hx.resolve_left (by rw [hxtie]; exact lt_irrefl _)).2
  have hkeven := (hy.resolve_left (by rw [hytie]; exact lt_irrefl _)).2
  have hsucc : n = k + 1 := by exact_mod_cast hn
  rw [hsucc] at hneven
  exact Nat.not_even_iff_odd.mpr hkeven.add_one hneven

theorem roundsTo_roundHalfEven (n : ℕ) {d : ℕ} (hd : 0 < d) :
    RoundsTo ((n : ℚ) / d) (roundHalfEven n d) := by
  have hdpos : (0 : ℚ) < d := by exact_mod_cast hd
  have hsplit : (n : ℚ) = d * (n / d : ℕ) + (n % d : ℕ) := by
    exact_mod_cast (Nat.div_add_mod n d).symm
  have hmod : ((n % d : ℕ) : ℚ) < d := by exact_mod_cast Nat.mod_lt n hd
  have hnonneg : (0 : ℚ) ≤ (n % d : ℕ) := Nat.cast_nonneg _
  have hquotient : (n : ℚ) / d = (n / d : ℕ) + (n % d : ℕ) / d := by
    rw [hsplit]
    field_simp
  unfold roundHalfEven RoundsTo
  rw [hquotient]
  split_ifs with hdown
  · rw [add_sub_cancel_left, abs_of_nonneg (div_nonneg hnonneg hdpos.le)]
    cases hdown with
    | inl hlt =>
      left
      rw [div_lt_div_iff₀ hdpos two_pos]
      have hlt' : (2 : ℚ) * (n % d : ℕ) < d := by exact_mod_cast hlt
      linarith
    | inr htie =>
      right
      refine ⟨?_, Nat.even_iff.mpr htie.2⟩
      rw [div_eq_div_iff hdpos.ne' two_ne_zero]
      have htie' : (2 : ℚ) * (n % d : ℕ) = d := by exact_mod_cast htie.1
      linarith
  · rw [not_or, not_and] at hdown
    have hup : (d : ℚ) ≤ 2 * (n % d : ℕ) := by exact_mod_cast not_lt.mp hdown.1
    have hrest : ((n / d : ℕ) : ℚ) + (n % d : ℕ) / d - ((n / d + 1 : ℕ) : ℚ) =
        -((d - (n % d : ℕ)) / d) := by
      push_cast
      field_simp
      ring
    rw [hrest, abs_neg, abs_of_nonneg (div_nonneg (by linarith) hdpos.le)]
    by_cases htie : 2 * (n % d) = d
    · right
      have htie' : (2 : ℚ) * (n % d : ℕ) = d := by exact_mod_cast htie
      refine ⟨?_, ?_⟩
      · rw [div_eq_div_iff hdpos.ne' two_ne_zero]
        linarith
      · have hodd := hdown.2 htie
        rw [Nat.even_iff]
        omega
    · left
      have hne : (2 : ℚ) * (n % d : ℕ) ≠ d := by exact_mod_cast htie
      rw [div_lt_div_iff₀ hdpos two_pos]
      have hlt := lt_of_le_of_ne hup hne.symm
      linarith

theorem roundsTo_roundScaled (significand : ℕ) (power : ℤ) :
    RoundsTo (scale significand power) (roundScaled significand power) := by
  cases power with
  | ofNat k =>
    left
    rw [scale_ofNat, roundScaled, sub_self, abs_zero]
    norm_num
  | negSucc k =>
    have hrounds := roundsTo_roundHalfEven significand (Nat.two_pow_pos (k + 1))
    rw [scale_negSucc, roundScaled]
    exact_mod_cast hrounds

theorem roundScaled_mono {m m' : ℕ} {r r' : ℤ} (h : scale m r ≤ scale m' r') :
    roundScaled m r ≤ roundScaled m' r' :=
  (roundsTo_roundScaled m r).mono (roundsTo_roundScaled m' r') h

/-- Rounding does not fall below an integer bound. -/
theorem le_roundScaled {m : ℕ} {r : ℤ} {n : ℕ} (h : (n : ℚ) ≤ scale m r) : n ≤ roundScaled m r := by
  have hone : scale n 0 = n := by rw [scale_eq, zpow_zero, mul_one]
  have hmono : roundScaled n 0 ≤ roundScaled m r := roundScaled_mono (by rwa [hone])
  rwa [roundScaled_of_eq hone] at hmono

/-! ### Patterns -/

/-- The magnitude of a finite pattern. -/
def Format.magnitude (f : Format) (bits : ℕ) : ℚ := scale (f.parts bits).1 (f.parts bits).2

theorem scale_eq_zero_iff {m : ℕ} {p : ℤ} : scale m p = 0 ↔ m = 0 := by
  have hpow : (2 : ℚ) ^ p ≠ 0 := by positivity
  rw [scale_eq, mul_eq_zero, or_iff_left hpow, Nat.cast_eq_zero]

/-- The leading bit of a larger value is not lower. -/
theorem log2_add_le {m m' : ℕ} {p p' : ℤ} (hm : m ≠ 0) (h : scale m p ≤ scale m' p') :
    (Nat.log2 m : ℤ) + p ≤ Nat.log2 m' + p' := by
  have hlow := two_zpow_le_scale (Nat.log2_self_le hm) p
  have hhigh := scale_lt_two_zpow (show m' < 2 ^ (Nat.log2 m' + 1) from Nat.lt_log2_self) p'
  have hexp := (zpow_lt_zpow_iff_right₀ one_lt_two).mp ((hlow.trans h).trans_lt hhigh)
  push_cast at hexp
  omega

/-- A larger magnitude has a larger pattern. -/
theorem nearestBinary32_mono {m m' : ℕ} {p p' : ℤ} (h : scale m p ≤ scale m' p') :
    nearestBinary32 m p ≤ nearestBinary32 m' p' := by
  by_cases hm : m = 0
  · rw [nearestBinary32, if_pos hm]
    exact Nat.zero_le _
  have hpos : 0 < scale m p :=
    lt_of_le_of_ne (scale_nonneg m p) (Ne.symm (mt scale_eq_zero_iff.mp hm))
  have hm' : m' ≠ 0 := mt scale_eq_zero_iff.mpr (hpos.trans_le h).ne'
  have hlead := log2_add_le hm h
  rw [nearestBinary32, nearestBinary32, if_neg hm, if_neg hm']
  dsimp only
  generalize hq : max ((Nat.log2 m : ℤ) + p - 23) (-149) = quantum
  generalize hq' : max ((Nat.log2 m' : ℤ) + p' - 23) (-149) = quantum'
  by_cases hsame : quantum = quantum'
  · subst hsame
    refine Nat.add_le_add_left (roundScaled_mono ?_) _
    rw [scale_sub, scale_sub]
    gcongr
  · -- the larger value starts a binade, so its integer has all 24 bits
    have hlt : quantum < quantum' := by omega
    have hround : roundScaled m (p - quantum) ≤ 2 ^ 24 := by
      apply roundScaled_le
      have hhigh := scale_lt_two_zpow (show m < 2 ^ (Nat.log2 m + 1) from Nat.lt_log2_self) p
      rw [scale_sub, div_le_iff₀ (by positivity)]
      calc scale m p
        _ ≤ 2 ^ ((Nat.log2 m + 1 : ℕ) + p : ℤ) := hhigh.le
        _ ≤ 2 ^ ((24 : ℕ) + quantum : ℤ) := by
            apply zpow_le_zpow_right₀ one_le_two
            push_cast
            omega
        _ = ((2 ^ 24 : ℕ) : ℚ) * 2 ^ quantum := by
            rw [zpow_add₀ two_ne_zero, zpow_natCast]
            norm_num
    have hround' : 2 ^ 23 ≤ roundScaled m' (p' - quantum') := by
      apply le_roundScaled
      have hlow := two_zpow_le_scale (Nat.log2_self_le hm') p'
      rw [scale_sub, le_div_iff₀ (by positivity)]
      calc ((2 ^ 23 : ℕ) : ℚ) * 2 ^ quantum'
        _ = 2 ^ ((23 : ℕ) + quantum' : ℤ) := by
            rw [zpow_add₀ two_ne_zero, zpow_natCast]
            norm_num
        _ = 2 ^ ((Nat.log2 m' : ℤ) + p') := by
            congr 1
            push_cast
            omega
        _ ≤ scale m' p' := hlow
    have hstep : (quantum + 149).toNat + 1 ≤ (quantum' + 149).toNat := by omega
    calc (quantum + 149).toNat * 2 ^ 23 + roundScaled m (p - quantum)
      _ ≤ (quantum + 149).toNat * 2 ^ 23 + 2 ^ 24 := Nat.add_le_add_left hround _
      _ = ((quantum + 149).toNat + 1) * 2 ^ 23 + 2 ^ 23 := by ring
      _ ≤ (quantum' + 149).toNat * 2 ^ 23 + roundScaled m' (p' - quantum') :=
          Nat.add_le_add (Nat.mul_le_mul_right _ hstep) hround'

/-- The magnitude of an unsigned pattern grows with the pattern. -/
theorem Format.magnitude_mono {f : Format} {a b : ℕ} (hab : a ≤ b)
    (hb : b < 2 ^ (f.fractionBits + f.exponentBits)) : f.magnitude a ≤ f.magnitude b := by
  have hexponent {n : ℕ} (hn : n < 2 ^ (f.fractionBits + f.exponentBits)) :
      f.exponent n = n / 2 ^ f.fractionBits := by
    rw [exponent, Nat.mod_eq_of_lt]
    exact Nat.div_lt_of_lt_mul (by rwa [← pow_add])
  have ha := hexponent (hab.trans_lt hb)
  have hle : f.exponent a ≤ f.exponent b := by
    rw [ha, hexponent hb]
    exact Nat.div_le_div_right hab
  have hsplit (n : ℕ) : 2 ^ f.fractionBits * (n / 2 ^ f.fractionBits) + f.fraction n = n :=
    Nat.div_add_mod n _
  have hfraction := f.fraction_lt a
  unfold magnitude
  rcases hle.eq_or_lt with hsame | hlt
  · have hle' : f.fraction a ≤ f.fraction b := by
      have hquotient : a / 2 ^ f.fractionBits = b / 2 ^ f.fractionBits := by
        rw [← ha, hsame, hexponent hb]
      have hsplita := hsplit a
      have hsplitb := hsplit b
      rw [hquotient] at hsplita
      omega
    have hle'' : (f.fraction a : ℚ) ≤ f.fraction b := by exact_mod_cast hle'
    unfold parts
    rw [hsame]
    split_ifs
    · rw [scale_eq, scale_eq]
      gcongr
    · rw [scale_eq, scale_eq]
      push_cast
      gcongr
  · -- `b` is normal and lies in a later binade
    have hb0 : f.exponent b ≠ 0 := by omega
    have hbparts : f.parts b = (2 ^ f.fractionBits + f.fraction b,
        (f.exponent b : ℤ) - f.bias - f.fractionBits) := by
      unfold parts
      rw [if_neg hb0]
    have hlow : (2 : ℚ) ^ ((f.fractionBits : ℤ) + (f.exponent b - f.bias - f.fractionBits)) ≤
        scale (f.parts b).1 (f.parts b).2 := by
      rw [hbparts]
      exact two_zpow_le_scale (Nat.le_add_right _ _) _
    refine le_trans ?_ hlow
    by_cases ha0 : f.exponent a = 0
    · rw [parts, if_pos ha0]
      refine (scale_lt_two_zpow hfraction _).le.trans (zpow_le_zpow_right₀ one_le_two ?_)
      omega
    · rw [parts, if_neg ha0]
      have hsignificand : 2 ^ f.fractionBits + f.fraction a < 2 ^ (f.fractionBits + 1) := by
        rw [pow_succ]
        omega
      refine (scale_lt_two_zpow hsignificand _).le.trans (zpow_le_zpow_right₀ one_le_two ?_)
      push_cast
      omega

/-! ### The conversion -/

/-- The sign bit leaves the other fields alone. -/
theorem binary32_parts_sign {bits : ℕ} (h : bits < 2 ^ 31) (sign : Bool) :
    binary32.parts ((if sign then 2 ^ 31 else 0) + bits) = binary32.parts bits ∧
      binary32.exponent ((if sign then 2 ^ 31 else 0) + bits) = binary32.exponent bits ∧
      binary32.negative ((if sign then 2 ^ 31 else 0) + bits) = sign := by
  have hfraction (n : ℕ) : binary32.fraction n = n % 2 ^ 23 := rfl
  have hexponent (n : ℕ) : binary32.exponent n = n / 2 ^ 23 % 2 ^ 8 := rfl
  have hnegative (n : ℕ) : binary32.negative n = decide (n / 2 ^ 31 % 2 = 1) := rfl
  have hfields : binary32.fraction ((if sign then 2 ^ 31 else 0) + bits) = binary32.fraction bits ∧
      binary32.exponent ((if sign then 2 ^ 31 else 0) + bits) = binary32.exponent bits := by
    rw [hfraction, hfraction, hexponent, hexponent]
    cases sign with
    | true =>
      rw [if_pos rfl]
      omega
    | false =>
      rw [if_neg Bool.false_ne_true]
      omega
  refine ⟨?_, hfields.2, ?_⟩
  · rw [parts, parts, hfields.1, hfields.2]
  · rw [hnegative]
    cases sign with
    | true =>
      rw [if_pos rfl]
      exact decide_eq_true (by omega)
    | false =>
      rw [if_neg Bool.false_ne_true]
      exact decide_eq_false (by omega)

/-- The rounded pattern of a finite double, without its sign. -/
def roundedBits (x : Binary64) : ℕ :=
  nearestBinary32 (binary64.parts x.toNat).1 (binary64.parts x.toNat).2

/-- The converted single has the sign of the double and the rounded magnitude. -/
theorem value_narrow {x : Binary64} {q : ℚ} (hx : x.value = some (ExtRat.finite q)) {b : Binary32}
    (hb : narrow x = some b) : roundedBits x < 0x7F800000 ∧
      b.value = some (ExtRat.finite (if binary64.negative x.toNat then
        -binary32.magnitude (roundedBits x) else binary32.magnitude (roundedBits x))) := by
  have hexp : binary64.exponent x.toNat ≠ 2047 := (value_eq_finite_iff.mp hx).1
  rw [narrow, if_neg hexp] at hb
  dsimp only at hb
  by_cases hlt : roundedBits x < 0x7F800000
  · rw [show nearestBinary32 _ _ = roundedBits x from rfl, if_pos hlt, Option.some_inj] at hb
    obtain ⟨hparts, hexponent, hnegative⟩ := binary32_parts_sign
      (show roundedBits x < 2 ^ 31 by omega) (binary64.negative x.toNat)
    have hbits : b.toNat = (if binary64.negative x.toNat then 2 ^ 31 else 0) + roundedBits x := by
      rw [← hb, BitVec.toNat_ofNat, Nat.mod_eq_of_lt]
      split_ifs <;> omega
    have hfinite : binary32.exponent (roundedBits x) ≠ 2 ^ 8 - 1 := by
      change roundedBits x / 2 ^ 23 % 2 ^ 8 ≠ 2 ^ 8 - 1
      omega
    refine ⟨hlt, value_eq_finite_iff.mpr ?_⟩
    rw [hbits, hparts, hexponent, hnegative]
    exact ⟨hfinite, rfl⟩
  · rw [show nearestBinary32 _ _ = roundedBits x from rfl, if_neg hlt] at hb
    cases hb

theorem Format.magnitude_nonneg (f : Format) (bits : ℕ) : 0 ≤ f.magnitude bits :=
  scale_nonneg _ _

/-- The magnitudes of two doubles decide about the magnitudes they are rounded to. -/
theorem magnitude_roundedBits_mono {x y : Binary64}
    (h : binary64.magnitude x.toNat ≤ binary64.magnitude y.toNat)
    (hy : roundedBits y < 0x7F800000) :
    binary32.magnitude (roundedBits x) ≤ binary32.magnitude (roundedBits y) := by
  refine magnitude_mono (nearestBinary32_mono h) (hy.trans ?_)
  decide

/-- Rounding keeps the order of values. -/
theorem narrow_mono {x y : Binary64} {p q : ℚ} (hx : x.value = some (ExtRat.finite p))
    (hy : y.value = some (ExtRat.finite q)) (h : p ≤ q) {a b : Binary32} (ha : narrow x = some a)
    (hb : narrow y = some b) : ∃ p' q', a.value = some (ExtRat.finite p') ∧
      b.value = some (ExtRat.finite q') ∧ p' ≤ q' := by
  obtain ⟨hxlt, havalue⟩ := value_narrow hx ha
  obtain ⟨hylt, hbvalue⟩ := value_narrow hy hb
  refine ⟨_, _, havalue, hbvalue, ?_⟩
  have hxvalue : (if binary64.negative x.toNat then -binary64.magnitude x.toNat
      else binary64.magnitude x.toNat) = p := (value_eq_finite_iff.mp hx).2
  have hyvalue : (if binary64.negative y.toNat then -binary64.magnitude y.toNat
      else binary64.magnitude y.toNat) = q := (value_eq_finite_iff.mp hy).2
  have hxnonneg := magnitude_nonneg binary32 (roundedBits x)
  have hynonneg := magnitude_nonneg binary32 (roundedBits y)
  rw [← hxvalue, ← hyvalue] at h
  cases hxneg : binary64.negative x.toNat with
  | true =>
    cases hyneg : binary64.negative y.toNat with
    | true =>
      simp only [hxneg, hyneg, if_true, neg_le_neg_iff] at h ⊢
      exact magnitude_roundedBits_mono h hxlt
    | false =>
      simp only [if_true, Bool.false_eq_true, if_false]
      linarith
  | false =>
    cases hyneg : binary64.negative y.toNat with
    | true =>
      -- both values are zeros
      simp only [hxneg, hyneg, if_true, Bool.false_eq_true, if_false] at h ⊢
      have hx0 := magnitude_nonneg binary64 x.toNat
      have hy0 := magnitude_nonneg binary64 y.toNat
      have hzero (z : Binary64) (hz : binary64.magnitude z.toNat = 0) :
          binary32.magnitude (roundedBits z) = 0 := by
        rw [roundedBits, nearestBinary32, if_pos (scale_eq_zero_iff.mp hz)]
        decide
      rw [hzero x (by linarith), hzero y (by linarith)]
      norm_num
    | false =>
      simp only [hxneg, hyneg, Bool.false_eq_true, if_false] at h ⊢
      exact magnitude_roundedBits_mono h hylt

/-- A value between two singles is rounded to one between them. -/
theorem narrow_between {x lower upper : Binary64} {lo hi q : ℚ} (hlower : lower.IsSingle lo)
    (hupper : upper.IsSingle hi) (hx : x.value = some (ExtRat.finite q)) (hlo : lo ≤ q)
    (hhi : q ≤ hi) {b : Binary32} (hb : narrow x = some b) :
    ∃ q', b.value = some (ExtRat.finite q') ∧ lo ≤ q' ∧ q' ≤ hi := by
  obtain ⟨blo, hblo, hlovalue⟩ := narrow_exact hlower
  obtain ⟨bhi, hbhi, hhivalue⟩ := narrow_exact hupper
  obtain ⟨lo', q', hlo', hq', hle⟩ := narrow_mono hlower.value hx hlo hblo hb
  obtain ⟨q'', hi', hq'', hhi', hle'⟩ := narrow_mono hx hupper.value hhi hb hbhi
  rw [hlovalue, Option.some_inj, ExtRat.finite_inj] at hlo'
  rw [hhivalue, Option.some_inj, ExtRat.finite_inj] at hhi'
  rw [hq', Option.some_inj, ExtRat.finite_inj] at hq''
  exact ⟨q', hq', hlo' ▸ hle, by rw [hhi', hq'']; exact hle'⟩

/-! ### Where a comparison switches -/

/-- The value of a finite double whose sign bit is clear. -/
theorem magnitude_eq_of_nonneg {x : Binary64} {q : ℚ} (hx : x.value = some (ExtRat.finite q))
    (hsign : binary64.negative x.toNat = false) : binary64.magnitude x.toNat = q := by
  have hvalue : (if binary64.negative x.toNat then -binary64.magnitude x.toNat
      else binary64.magnitude x.toNat) = q := (value_eq_finite_iff.mp hx).2
  rwa [hsign, if_neg Bool.false_ne_true] at hvalue

theorem negative_eq_false_iff {x : Binary64} :
    binary64.negative x.toNat = false ↔ x.toNat < 2 ^ 63 := by
  have hlt : x.toNat < 2 ^ 64 := x.isLt
  change decide (x.toNat / 2 ^ 63 % 2 = 1) = false ↔ _
  rw [decide_eq_false_iff_not]
  omega

theorem sign_eq_false_of_pos {x : Binary64} {q : ℚ} (hx : x.value = some (ExtRat.finite q))
    (hq : 0 < q) : binary64.negative x.toNat = false := by
  by_contra hneg
  have hvalue : (if binary64.negative x.toNat then -binary64.magnitude x.toNat
      else binary64.magnitude x.toNat) = q := (value_eq_finite_iff.mp hx).2
  rw [if_pos (Bool.eq_true_of_not_eq_false hneg)] at hvalue
  have hnonneg := magnitude_nonneg binary64 x.toNat
  linarith

/-- A non-negative double has a smaller pattern than every double above it. -/
theorem toNat_lt_of_value_lt {x y : Binary64} {p q : ℚ} (hx : x.value = some (ExtRat.finite p))
    (hy : y.value = some (ExtRat.finite q)) (hsign : binary64.negative x.toNat = false)
    (h : p < q) : x.toNat < y.toNat := by
  by_contra hle
  have hlt := negative_eq_false_iff.mp hsign
  have hsign' : binary64.negative y.toNat = false := negative_eq_false_iff.mpr (by omega)
  have hmono : binary64.magnitude y.toNat ≤ binary64.magnitude x.toNat :=
    magnitude_mono (not_lt.mp hle) hlt
  rw [magnitude_eq_of_nonneg hx hsign, magnitude_eq_of_nonneg hy hsign'] at hmono
  exact absurd hmono (not_le.mpr h)

/-- The double `cut` is the last one whose single is not above `limit`. -/
structure CutsAt (cut : Binary64) (τ limit : ℚ) : Prop where
  value : cut.value = some (ExtRat.finite τ)
  sign : binary64.negative cut.toNat = false
  below : ∃ b q, narrow cut = some b ∧ b.value = some (ExtRat.finite q) ∧ q ≤ limit
  above : ∃ p b q, Binary64.value (cut + 1) = some (ExtRat.finite p) ∧
    narrow (cut + 1) = some b ∧ b.value = some (ExtRat.finite q) ∧ limit < q

/-- The comparison of the single with the limit is a comparison of the double with the cut. -/
theorem CutsAt.exceeds_iff {cut : Binary64} {τ limit : ℚ} (h : CutsAt cut τ limit) {x : Binary64}
    {q : ℚ} (hx : x.value = some (ExtRat.finite q)) {r : Binary32} (hr : narrow x = some r) :
    r.Exceeds limit ↔ τ < q := by
  constructor
  · intro hexceeds
    by_contra hle
    obtain ⟨b, _, hb, hbvalue, hbelow⟩ := h.below
    obtain ⟨_, _, hr', hb', hmono⟩ := narrow_mono hx h.value (not_lt.mp hle) hr hb
    rw [hbvalue, Option.some_inj, ExtRat.finite_inj] at hb'
    rw [Binary32.exceeds_iff_lt hr'] at hexceeds
    linarith
  · intro hlt
    obtain ⟨p, b, _, hp, hb, hbvalue, habove⟩ := h.above
    have hcut := negative_eq_false_iff.mp h.sign
    -- no double lies between the cut and its successor
    have hstep := toNat_lt_of_value_lt h.value hx h.sign hlt
    have hsucc : BitVec.toNat (cut + 1) = cut.toNat + 1 := by
      rw [BitVec.toNat_add]
      exact Nat.mod_eq_of_lt (by omega : cut.toNat + 1 < 2 ^ 64)
    have hle : p ≤ q := by
      by_contra hgt
      have hnonneg : 0 ≤ τ := by
        rw [← magnitude_eq_of_nonneg h.value h.sign]
        exact magnitude_nonneg _ _
      have hxsign := sign_eq_false_of_pos hx (hnonneg.trans_lt hlt)
      have hback := toNat_lt_of_value_lt hx hp hxsign (not_le.mp hgt)
      rw [hsucc] at hback
      omega
    obtain ⟨_, _, hb', hr', hmono⟩ := narrow_mono hp hx hle hb hr
    rw [hbvalue, Option.some_inj, ExtRat.finite_inj] at hb'
    rw [Binary32.exceeds_iff_lt hr']
    linarith

end CfsBridge.Ieee
