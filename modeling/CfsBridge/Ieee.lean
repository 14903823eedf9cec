import Mathlib.Algebra.Order.Ring.Rat
import Mathlib.Data.Rat.Defs
import Mathlib.Order.WithBot
import Mathlib.Tactic

/-!
# IEEE 754 interchange patterns

A float is kept as its bit pattern, so a NaN keeps its sign and payload and a
copy is bit for bit. The value of a pattern is an exact rational, an infinity,
or nothing for a NaN. Comparisons go through values: a NaN exceeds nothing and
nothing exceeds a NaN, and the two zeros are equal.
-/
namespace CfsBridge.Ieee

/-- Rationals with both infinities. -/
abbrev ExtRat := WithBot (WithTop ℚ)

def ExtRat.finite (q : ℚ) : ExtRat := ((q : WithTop ℚ) : WithBot (WithTop ℚ))

@[simp] theorem ExtRat.finite_inj {p q : ℚ} : ExtRat.finite p = ExtRat.finite q ↔ p = q := by
  simp [ExtRat.finite]

theorem ExtRat.bot_ne_finite (q : ℚ) : (⊥ : ExtRat) ≠ ExtRat.finite q := by simp [ExtRat.finite]

theorem ExtRat.top_ne_finite (q : ℚ) : (⊤ : ExtRat) ≠ ExtRat.finite q :=
  fun h => WithTop.top_ne_coe (WithBot.coe_injective h)

theorem ExtRat.finite_le_finite {p q : ℚ} : ExtRat.finite p ≤ ExtRat.finite q ↔ p ≤ q := by
  simp [ExtRat.finite]

theorem ExtRat.finite_mono : Monotone ExtRat.finite := fun _ _ => ExtRat.finite_le_finite.mpr

/-- Between two finite values there are only finite ones. -/
theorem ExtRat.exists_finite {x : ExtRat} {lo hi : ℚ} (hlo : ExtRat.finite lo ≤ x)
    (hhi : x ≤ ExtRat.finite hi) : ∃ q, x = ExtRat.finite q ∧ lo ≤ q ∧ q ≤ hi := by
  cases x using WithBot.recBotCoe with
  | bot => exact absurd (le_bot_iff.mp hlo).symm (ExtRat.bot_ne_finite lo)
  | coe y =>
    cases y using WithTop.recTopCoe with
    | top => exact absurd (top_le_iff.mp hhi).symm (ExtRat.top_ne_finite hi)
    | coe q => exact ⟨q, rfl, ExtRat.finite_le_finite.mp hlo, ExtRat.finite_le_finite.mp hhi⟩

structure Format where
  exponentBits : ℕ
  fractionBits : ℕ

def binary32 : Format := ⟨8, 23⟩

def binary64 : Format := ⟨11, 52⟩

namespace Format

def bias (f : Format) : ℕ := 2 ^ (f.exponentBits - 1) - 1

def fraction (f : Format) (bits : ℕ) : ℕ := bits % 2 ^ f.fractionBits

def exponent (f : Format) (bits : ℕ) : ℕ := bits / 2 ^ f.fractionBits % 2 ^ f.exponentBits

def negative (f : Format) (bits : ℕ) : Bool :=
  decide (bits / 2 ^ (f.fractionBits + f.exponentBits) % 2 = 1)

/-- Significand and power of two of a finite pattern; exponent zero is subnormal. -/
def parts (f : Format) (bits : ℕ) : ℕ × ℤ :=
  if f.exponent bits = 0 then (f.fraction bits, 1 - f.bias - f.fractionBits)
  else (2 ^ f.fractionBits + f.fraction bits, f.exponent bits - f.bias - f.fractionBits)

/-- `significand * 2 ^ power`, by cases so that it evaluates. -/
def scale (significand : ℕ) : ℤ → ℚ
  | .ofNat k => (significand * 2 ^ k : ℕ)
  | .negSucc k => mkRat significand (2 ^ (k + 1))

/-- The value of a pattern, `none` for a NaN. -/
def value (f : Format) (bits : ℕ) : Option ExtRat :=
  if f.exponent bits = 2 ^ f.exponentBits - 1 then
    if f.fraction bits = 0 then some (if f.negative bits then ⊥ else ((⊤ : WithTop ℚ) : ExtRat))
    else none
  else
    let magnitude := scale (f.parts bits).1 (f.parts bits).2
    some (ExtRat.finite (if f.negative bits then -magnitude else magnitude))

end Format

abbrev Binary32 := BitVec 32

abbrev Binary64 := BitVec 64

def Binary32.value (b : Binary32) : Option ExtRat := binary32.value b.toNat

def Binary64.value (b : Binary64) : Option ExtRat := binary64.value b.toNat

/-- The comparison `a < b` of two doubles. -/
def Binary64.lt (a b : Binary64) : Bool :=
  match a.value, b.value with
  | some x, some y => decide (x < y)
  | _, _ => false

/-- The C and IEEE comparison `a > b`. -/
def Binary32.gt (a b : Binary32) : Bool :=
  match a.value, b.value with
  | some x, some y => decide (y < x)
  | _, _ => false

/-- The decoded value of `b` is above `limit`. -/
def Binary32.Exceeds (b : Binary32) (limit : ℚ) : Prop :=
  ∃ v, b.value = some v ∧ ExtRat.finite limit < v

theorem Binary32.gt_iff_exceeds {b limit : Binary32} {q : ℚ}
    (h : limit.value = some (ExtRat.finite q)) : b.gt limit = true ↔ b.Exceeds q := by
  unfold Binary32.gt Binary32.Exceeds
  rw [h]
  cases b.value with
  | none => simp
  | some v => simp

theorem Binary32.not_exceeds_of_nan {b : Binary32} (h : b.value = none) (limit : ℚ) :
    ¬ b.Exceeds limit := by
  rintro ⟨v, hv, _⟩
  rw [h] at hv
  cases hv

theorem Binary32.exceeds_iff_lt {b : Binary32} {q : ℚ} (h : b.value = some (ExtRat.finite q))
    (limit : ℚ) : b.Exceeds limit ↔ limit < q := by
  simp [Binary32.Exceeds, h, ExtRat.finite]

theorem Binary32.Exceeds.mono {b : Binary32} {p q : ℚ} (hpq : p ≤ q) (h : b.Exceeds q) :
    b.Exceeds p := by
  obtain ⟨v, hv, hlt⟩ := h
  refine ⟨v, hv, lt_of_le_of_lt ?_ hlt⟩
  simpa [ExtRat.finite] using hpq

/-! ### Quiet NaNs -/

/-- A NaN whose fraction has its top bit clear. -/
def Binary32.signalling (b : Binary32) : Bool := b.value.isNone && !b.getLsbD 22

/-- The widening of a single to a double, kept as the single that the double
stands for. Setting the top bit of the fraction makes a signalling NaN quiet;
every other pattern keeps its bits. -/
def Binary32.quiet (b : Binary32) : Binary32 :=
  if b.signalling then b ||| 0x00400000#32 else b

theorem Binary32.quiet_of_value {b : Binary32} {v : ExtRat} (h : b.value = some v) :
    b.quiet = b := by
  rw [Binary32.quiet, Binary32.signalling, h]
  rfl

theorem Binary32.value_eq_none_iff {b : Binary32} :
    b.value = none ↔ binary32.exponent b.toNat = 255 ∧ binary32.fraction b.toNat ≠ 0 := by
  have hmax : 2 ^ binary32.exponentBits - 1 = 255 := rfl
  rw [Binary32.value, Format.value, hmax]
  split_ifs with hexp hfraction <;> simp [*]

/-- A NaN stays a NaN. -/
theorem Binary32.value_or_quietBit {b : Binary32} (h : b.value = none) :
    (b ||| 0x00400000#32).value = none := by
  obtain ⟨hexp, -⟩ := value_eq_none_iff.mp h
  have hor : (b ||| 0x00400000#32).toNat = b.toNat ||| 2 ^ 22 := BitVec.toNat_or b _
  have hexponent : (b.toNat ||| 2 ^ 22) / 2 ^ 23 = b.toNat / 2 ^ 23 := by
    rw [← Nat.shiftRight_eq_div_pow, Nat.shiftRight_or_distrib, Nat.shiftRight_eq_div_pow]
    exact Nat.or_zero _
  have hfraction : (b.toNat ||| 2 ^ 22) % 2 ^ 23 = b.toNat % 2 ^ 23 ||| 2 ^ 22 :=
    Nat.or_mod_two_pow
  rw [value_eq_none_iff, hor]
  constructor
  · rw [Format.exponent] at hexp ⊢
    exact (congrArg (· % 2 ^ 8) hexponent).trans hexp
  · intro hzero
    have hbit : b.toNat % 2 ^ 23 ||| 2 ^ 22 = 0 := hfraction.symm.trans hzero
    rw [Nat.or_eq_zero_iff] at hbit
    exact absurd hbit.2 (by decide)

@[simp] theorem Binary32.value_quiet (b : Binary32) : b.quiet.value = b.value := by
  unfold Binary32.quiet
  split_ifs with h
  · rw [Binary32.signalling, Bool.and_eq_true, Option.isNone_iff_eq_none] at h
    rw [h.1, value_or_quietBit h.1]
  · rfl

@[simp] theorem Binary32.quiet_exceeds {b : Binary32} {limit : ℚ} :
    b.quiet.Exceeds limit ↔ b.Exceeds limit := by
  rw [Binary32.Exceeds, value_quiet, Binary32.Exceeds]

/-! ### Rounding -/

/-- The quotient `n / d` rounded to nearest, ties to even. -/
def roundHalfEven (n d : ℕ) : ℕ :=
  if 2 * (n % d) < d ∨ (2 * (n % d) = d ∧ n / d % 2 = 0) then n / d else n / d + 1

/-- `significand * 2 ^ power` rounded to an integer. -/
def roundScaled (significand : ℕ) : ℤ → ℕ
  | .ofNat k => significand * 2 ^ k
  | .negSucc k => roundHalfEven significand (2 ^ (k + 1))

/-- The unsigned binary32 pattern nearest to `significand * 2 ^ power`. The
rounded significand is added to the exponent field, so a carry out of the
fraction moves to the next binade by itself. -/
def nearestBinary32 (significand : ℕ) (power : ℤ) : ℕ :=
  if significand = 0 then 0
  else
    let quantum := max ((Nat.log2 significand : ℤ) + power - 23) (-149)
    (quantum + 149).toNat * 2 ^ 23 + roundScaled significand (power - quantum)

/-- Conversion of a double to single precision; `none` when a finite value
rounds past the largest single. A NaN keeps its sign and upper payload and is quiet. -/
def narrow (x : Binary64) : Option Binary32 :=
  let sign := if binary64.negative x.toNat then 2 ^ 31 else 0
  if binary64.exponent x.toNat = 2047 then
    if binary64.fraction x.toNat = 0 then some (BitVec.ofNat 32 (sign + 0x7F800000))
    else some (BitVec.ofNat 32 (sign + 0x7FC00000 + binary64.fraction x.toNat / 2 ^ 29 % 2 ^ 22))
  else
    let bits := nearestBinary32 (binary64.parts x.toNat).1 (binary64.parts x.toNat).2
    if bits < 0x7F800000 then some (BitVec.ofNat 32 (sign + bits)) else none

/-- The text of a float with one decimal place, as `.1f` formats it. -/
def Binary32.fixed1 (b : Binary32) : String :=
  let sign := if binary32.negative b.toNat then "-" else ""
  if binary32.exponent b.toNat = 255 then
    if binary32.fraction b.toNat = 0 then sign ++ "inf" else "nan"
  else
    let p := binary32.parts b.toNat
    let tenths := roundScaled (p.1 * 10) p.2
    sign ++ toString (tenths / 10) ++ "." ++ toString (tenths % 10)

/-! ### Exact conversion -/

section Exact
open Format

theorem Format.scale_ofNat (significand k : ℕ) :
    scale significand (.ofNat k) = ((significand * 2 ^ k : ℕ) : ℚ) := by simp [scale]

theorem Format.scale_negSucc (significand k : ℕ) :
    scale significand (.negSucc k) = (significand : ℚ) / 2 ^ (k + 1) := by
  rw [scale, Rat.mkRat_eq_div]
  push_cast
  rfl

theorem Format.scale_eq (significand : ℕ) (power : ℤ) :
    scale significand power = significand * (2 : ℚ) ^ power := by
  cases power with
  | ofNat k => simp [scale]
  | negSucc k => rw [scale_negSucc, zpow_negSucc, div_eq_mul_inv]

/-- Rounding keeps an integer. -/
theorem roundScaled_of_eq {significand : ℕ} {power : ℤ} {n : ℕ}
    (h : scale significand power = n) : roundScaled significand power = n := by
  cases power with
  | ofNat k =>
    rw [scale_ofNat] at h
    exact_mod_cast h
  | negSucc k =>
    have hpos : (0 : ℚ) < 2 ^ (k + 1) := by positivity
    rw [scale_negSucc, div_eq_iff hpos.ne'] at h
    have hnat : significand = n * 2 ^ (k + 1) := by exact_mod_cast h
    rw [roundScaled, roundHalfEven, hnat, Nat.mul_mod_left, Nat.mul_div_cancel _ (by positivity),
      if_pos (.inl (by positivity))]

/-- A significand with bit `w` set has at least that bit's value. -/
theorem Format.two_zpow_le_scale {k w : ℕ} (h : 2 ^ w ≤ k) (r : ℤ) :
    (2 : ℚ) ^ ((w : ℤ) + r) ≤ scale k r := by
  have hk : (2 : ℚ) ^ w ≤ k := by exact_mod_cast h
  rw [scale_eq, zpow_add₀ two_ne_zero, zpow_natCast]
  gcongr

/-- A significand of `w` bits stays below the value of the next bit. -/
theorem Format.scale_lt_two_zpow {k w : ℕ} (h : k < 2 ^ w) (r : ℤ) :
    scale k r < (2 : ℚ) ^ ((w : ℤ) + r) := by
  have hk : (k : ℚ) < 2 ^ w := by exact_mod_cast h
  rw [scale_eq, zpow_add₀ two_ne_zero, zpow_natCast]
  gcongr

/-- The position of the leading bit is the same for every way to write a value. -/
theorem log2_add_lt {m k : ℕ} {p r : ℤ} (hm : m ≠ 0) (h : scale m p = scale k r) {w : ℕ}
    (hk : k < 2 ^ w) : (Nat.log2 m : ℤ) + p < w + r := by
  have hlow := two_zpow_le_scale (Nat.log2_self_le hm) p
  have hhigh := scale_lt_two_zpow hk r
  rw [h] at hlow
  exact (zpow_lt_zpow_iff_right₀ one_lt_two).mp (hlow.trans_lt hhigh)

theorem le_log2_add {m k : ℕ} {p r : ℤ} (h : scale m p = scale k r) {w : ℕ}
    (hk : 2 ^ w ≤ k) : (w : ℤ) + r ≤ Nat.log2 m + p := by
  have hlow := two_zpow_le_scale hk r
  have hhigh := scale_lt_two_zpow (show m < 2 ^ (Nat.log2 m + 1) from Nat.lt_log2_self) p
  rw [← h] at hlow
  have hexp := (zpow_lt_zpow_iff_right₀ one_lt_two).mp (hlow.trans_lt hhigh)
  push_cast at hexp
  omega

/-- A value on a grid is an integer on it. -/
theorem roundScaled_sub {m k : ℕ} {p r : ℤ} (h : scale m p = scale k r) :
    roundScaled m (p - r) = k := by
  refine roundScaled_of_eq ?_
  rw [scale_eq, scale_eq] at h
  rw [scale_eq, zpow_sub₀ two_ne_zero, ← mul_div_assoc, h, mul_div_cancel_right₀]
  positivity

/-- A value that a single has is converted to that single. -/
theorem nearestBinary32_exact {m bits : ℕ} {p : ℤ} (hm : m ≠ 0)
    (h : scale m p = scale (binary32.parts bits).1 (binary32.parts bits).2) :
    nearestBinary32 m p = binary32.exponent bits * 2 ^ 23 + binary32.fraction bits := by
  have hfraction : binary32.fraction bits < 2 ^ 23 := Nat.mod_lt _ (by decide)
  rw [nearestBinary32, if_neg hm]
  by_cases hexp : binary32.exponent bits = 0
  · have hparts : binary32.parts bits = (binary32.fraction bits, -149) := by
      rw [parts, if_pos hexp]
      rfl
    rw [hparts] at h
    dsimp only at h ⊢
    have hlt := log2_add_lt hm h hfraction
    have hquantum : max ((Nat.log2 m : ℤ) + p - 23) (-149) = -149 := by omega
    rw [hquantum, roundScaled_sub h, hexp]
    simp
  · have hparts : binary32.parts bits = (2 ^ 23 + binary32.fraction bits,
        (binary32.exponent bits : ℤ) - 150) := by
      rw [parts, if_neg hexp]
      congr 1
      change (binary32.exponent bits : ℤ) - 127 - 23 = _
      ring
    rw [hparts] at h
    dsimp only at h ⊢
    have hlt := log2_add_lt hm h (w := 24) (by omega)
    have hle := le_log2_add h (w := 23) (by omega)
    have hquantum : max ((Nat.log2 m : ℤ) + p - 23) (-149) = (binary32.exponent bits : ℤ) - 150 := by
      push_cast at hlt hle
      omega
    have hshift : ((binary32.exponent bits : ℤ) - 150 + 149).toNat = binary32.exponent bits - 1 := by
      omega
    rw [hquantum, roundScaled_sub h, hshift]
    obtain ⟨e, he⟩ := Nat.exists_eq_succ_of_ne_zero hexp
    rw [he]
    simp
    ring

theorem Format.scale_nonneg (significand : ℕ) (power : ℤ) : 0 ≤ scale significand power := by
  rw [scale_eq]
  positivity

/-- The value of a finite pattern. -/
theorem Format.value_eq_finite_iff {f : Format} {bits : ℕ} {q : ℚ} :
    f.value bits = some (ExtRat.finite q) ↔ f.exponent bits ≠ 2 ^ f.exponentBits - 1 ∧
      (if f.negative bits then -scale (f.parts bits).1 (f.parts bits).2
        else scale (f.parts bits).1 (f.parts bits).2) = q := by
  unfold value
  split_ifs with hexp <;> simp [hexp, ExtRat.bot_ne_finite, ExtRat.top_ne_finite]

/-- The sign and the magnitude of a pattern that is not zero. -/
theorem Format.magnitude_of_value {f : Format} {bits : ℕ} {q : ℚ} (hq : q ≠ 0)
    (h : f.value bits = some (ExtRat.finite q)) :
    f.negative bits = decide (q < 0) ∧ scale (f.parts bits).1 (f.parts bits).2 = |q| := by
  obtain ⟨-, rfl⟩ := value_eq_finite_iff.mp h
  have hnonneg := scale_nonneg (f.parts bits).1 (f.parts bits).2
  by_cases hneg : f.negative bits = true
  · rw [if_pos hneg] at hq ⊢
    have hpos : 0 < scale (f.parts bits).1 (f.parts bits).2 :=
      lt_of_le_of_ne hnonneg fun h0 => hq (by rw [← h0, neg_zero])
    exact ⟨by rw [hneg, decide_eq_true (by linarith)], by rw [abs_neg, abs_of_nonneg hnonneg]⟩
  · rw [if_neg hneg]
    exact ⟨by rw [decide_eq_false (not_lt.mpr hnonneg)]; simpa using hneg,
      (abs_of_nonneg hnonneg).symm⟩

/-- The fields of a single make up its bits. -/
theorem binary32_fields (b : Binary32) :
    (if binary32.negative b.toNat then 2 ^ 31 else 0) +
      (binary32.exponent b.toNat * 2 ^ 23 + binary32.fraction b.toNat) = b.toNat := by
  have hlt := b.isLt
  have hfraction : binary32.fraction b.toNat = b.toNat % 2 ^ 23 := rfl
  have hexponent : binary32.exponent b.toNat = b.toNat / 2 ^ 23 % 2 ^ 8 := rfl
  have hnegative : binary32.negative b.toNat = decide (b.toNat / 2 ^ 31 % 2 = 1) := rfl
  by_cases h : b.toNat / 2 ^ 31 % 2 = 1
  · rw [hnegative, decide_eq_true h, if_pos rfl]
    omega
  · rw [hnegative, decide_eq_false h, if_neg Bool.false_ne_true]
    omega

/-- A finite double whose value a single has. -/
structure Binary64.IsSingle (x : Binary64) (q : ℚ) : Prop where
  value : x.value = some (ExtRat.finite q)
  single : ∃ b : Binary32, b.value = some (ExtRat.finite q)

/-- The conversion of such a double keeps its value. -/
theorem narrow_exact {x : Binary64} {q : ℚ} (h : x.IsSingle q) :
    ∃ b, narrow x = some b ∧ b.value = some (ExtRat.finite q) := by
  obtain ⟨hx, b, hb⟩ := h
  have hexp : binary64.exponent x.toNat ≠ 2047 := (value_eq_finite_iff.mp hx).1
  rw [narrow, if_neg hexp]
  by_cases hq : q = 0
  · have hzero : (binary64.parts x.toNat).1 = 0 := by
      have hscale := (value_eq_finite_iff.mp hx).2
      rw [hq, scale_eq] at hscale
      have hpow : (2 : ℚ) ^ (binary64.parts x.toNat).2 ≠ 0 := by positivity
      split_ifs at hscale <;> simpa [hpow] using hscale
    have hnearest : nearestBinary32 (binary64.parts x.toNat).1 (binary64.parts x.toNat).2 = 0 := by
      rw [nearestBinary32, if_pos hzero]
    rw [hnearest, hq]
    refine ⟨_, if_pos (by decide), ?_⟩
    cases binary64.negative x.toNat <;> decide
  · obtain ⟨hsignx, hmagx⟩ := magnitude_of_value hq hx
    obtain ⟨hsignb, hmagb⟩ := magnitude_of_value hq hb
    have hm : (binary64.parts x.toNat).1 ≠ 0 := by
      intro h0
      rw [h0, scale_eq, Nat.cast_zero, zero_mul] at hmagx
      exact hq (abs_eq_zero.mp hmagx.symm)
    have hnearest := nearestBinary32_exact hm (hmagx.trans hmagb.symm)
    have hfields := binary32_fields b
    have hfraction : binary32.fraction b.toNat < 2 ^ 23 := Nat.mod_lt _ (by decide)
    have hfinite : binary32.exponent b.toNat ≠ 255 := (value_eq_finite_iff.mp hb).1
    have hexplt : binary32.exponent b.toNat < 256 := Nat.mod_lt _ (by decide)
    refine ⟨b, ?_, hb⟩
    rw [hnearest, if_pos (by omega), hsignx.trans hsignb.symm, hfields, BitVec.ofNat_toNat,
      BitVec.setWidth_eq]

end Exact

/-! ### Range -/

section Range
open Format

/-- Rounding does not pass an integer bound. -/
theorem roundScaled_le {significand : ℕ} {power : ℤ} {n : ℕ} (h : scale significand power ≤ n) :
    roundScaled significand power ≤ n := by
  cases power with
  | ofNat k =>
    rw [scale_ofNat] at h
    exact_mod_cast h
  | negSucc k =>
    have hpos : (0 : ℚ) < 2 ^ (k + 1) := by positivity
    rw [scale_negSucc, div_le_iff₀ hpos] at h
    have hnat : significand ≤ n * 2 ^ (k + 1) := by exact_mod_cast h
    have hquotient : significand / 2 ^ (k + 1) ≤ n :=
      Nat.div_le_of_le_mul (by rwa [Nat.mul_comm] at hnat)
    rw [roundScaled, roundHalfEven]
    split_ifs with hdown
    · exact hquotient
    · -- rounding up happens strictly below the bound
      by_contra hover
      have heq : significand / 2 ^ (k + 1) = n := by omega
      have hsplit := Nat.div_add_mod significand (2 ^ (k + 1))
      rw [heq, Nat.mul_comm] at hsplit
      have hexact : significand % 2 ^ (k + 1) = 0 := by omega
      exact hdown (.inl (by rw [hexact]; positivity))

/-- The largest finite single. -/
def maxBinary32 : ℚ := (2 ^ 24 - 1) * 2 ^ 104

theorem Format.scale_sub (significand : ℕ) (p r : ℤ) :
    scale significand (p - r) = scale significand p / 2 ^ r := by
  rw [scale_eq, scale_eq, zpow_sub₀ two_ne_zero, mul_div_assoc]

/-- A magnitude up to the largest single rounds to a finite pattern. -/
theorem nearestBinary32_lt {m : ℕ} {p : ℤ} (h : scale m p ≤ maxBinary32) :
    nearestBinary32 m p < 0x7F800000 := by
  by_cases hm : m = 0
  · rw [nearestBinary32, if_pos hm]
    decide
  have hlead : (Nat.log2 m : ℤ) + p < 128 := by
    have hlt : (2 : ℚ) ^ ((Nat.log2 m : ℤ) + p) < 2 ^ (128 : ℤ) := by
      calc (2 : ℚ) ^ ((Nat.log2 m : ℤ) + p)
        _ ≤ scale m p := two_zpow_le_scale (Nat.log2_self_le hm) p
        _ ≤ maxBinary32 := h
        _ < 2 ^ (128 : ℤ) := by norm_num [maxBinary32]
    exact (zpow_lt_zpow_iff_right₀ one_lt_two).mp hlt
  rw [nearestBinary32, if_neg hm]
  dsimp only
  by_cases htop : max ((Nat.log2 m : ℤ) + p - 23) (-149) = 104
  · have hround : roundScaled m (p - 104) ≤ 2 ^ 24 - 1 := by
      apply roundScaled_le
      rw [scale_sub, div_le_iff₀ (by positivity)]
      calc scale m p
        _ ≤ maxBinary32 := h
        _ = ((2 ^ 24 - 1 : ℕ) : ℚ) * 2 ^ (104 : ℤ) := by norm_num [maxBinary32]
    rw [htop]
    have hquantum : ((104 : ℤ) + 149).toNat = 253 := rfl
    omega
  · have hround : roundScaled m (p - max ((Nat.log2 m : ℤ) + p - 23) (-149)) ≤ 2 ^ 24 := by
      apply roundScaled_le
      have hhigh := scale_lt_two_zpow (show m < 2 ^ (Nat.log2 m + 1) from Nat.lt_log2_self) p
      rw [scale_sub, div_le_iff₀ (by positivity)]
      calc scale m p
        _ ≤ 2 ^ ((Nat.log2 m + 1 : ℕ) + p : ℤ) := hhigh.le
        _ ≤ 2 ^ ((24 : ℕ) + max ((Nat.log2 m : ℤ) + p - 23) (-149) : ℤ) := by
            apply zpow_le_zpow_right₀ one_le_two
            push_cast
            omega
        _ = ((2 ^ 24 : ℕ) : ℚ) * 2 ^ max ((Nat.log2 m : ℤ) + p - 23) (-149) := by
            rw [zpow_add₀ two_ne_zero, zpow_natCast]
            norm_num
    have hquantum : (max ((Nat.log2 m : ℤ) + p - 23) (-149) + 149).toNat ≤ 252 := by omega
    calc _ ≤ 252 * 2 ^ 23 + 2 ^ 24 := Nat.add_le_add (Nat.mul_le_mul_right _ hquantum) hround
      _ < 0x7F800000 := by decide

/-- A double no larger than the largest single converts to one. -/
theorem narrow_isSome {x : Binary64} {q : ℚ} (h : x.value = some (ExtRat.finite q))
    (hq : |q| ≤ maxBinary32) : (narrow x).isSome = true := by
  obtain ⟨hexp, hvalue⟩ := value_eq_finite_iff.mp h
  have hscale : scale (binary64.parts x.toNat).1 (binary64.parts x.toNat).2 ≤ maxBinary32 := by
    rw [← abs_of_nonneg (scale_nonneg _ _)]
    split_ifs at hvalue
    · rwa [← hvalue, abs_neg] at hq
    · rwa [← hvalue] at hq
  have hexp' : binary64.exponent x.toNat ≠ 2047 := hexp
  rw [narrow, if_neg hexp']
  dsimp only
  rw [if_pos (nearestBinary32_lt hscale)]
  rfl

theorem Format.fraction_lt (f : Format) (bits : ℕ) : f.fraction bits < 2 ^ f.fractionBits :=
  Nat.mod_lt _ (Nat.two_pow_pos _)

/-- Of two patterns with one value, neither has the larger power of two. -/
theorem Format.parts_power_le {f : Format} {a b : ℕ} (ha : (f.parts a).1 ≠ 0)
    (h : scale (f.parts a).1 (f.parts a).2 = scale (f.parts b).1 (f.parts b).2) :
    (f.parts b).2 ≤ (f.parts a).2 := by
  have hfa := fraction_lt f a
  by_cases hb : f.exponent b = 0
  · simp only [parts, if_pos hb]
    split_ifs with hexp
    · exact le_refl _
    · dsimp only
      omega
  · have hnormal : 2 ^ f.fractionBits ≤ (f.parts b).1 := by
      rw [parts, if_neg hb]
      exact Nat.le_add_right _ _
    have hlead := le_log2_add h hnormal
    have hwidth : (f.parts a).1 < 2 ^ (f.fractionBits + 1) := by
      rw [parts, pow_succ]
      split_ifs
      · dsimp only
        omega
      · dsimp only
        omega
    have hlog : Nat.log2 (f.parts a).1 < f.fractionBits + 1 := (Nat.log2_lt ha).mpr hwidth
    omega

/-- A positive value determines the fields of its pattern. -/
theorem Format.parts_inj {f : Format} {a b : ℕ} (ha : (f.parts a).1 ≠ 0)
    (h : scale (f.parts a).1 (f.parts a).2 = scale (f.parts b).1 (f.parts b).2) :
    f.exponent a = f.exponent b ∧ f.fraction a = f.fraction b := by
  have hfa := fraction_lt f a
  have hfb := fraction_lt f b
  have hb : (f.parts b).1 ≠ 0 := by
    intro h0
    rw [h0, scale_eq, scale_eq, Nat.cast_zero, zero_mul] at h
    have hpow : (2 : ℚ) ^ (f.parts a).2 ≠ 0 := by positivity
    simp [ha, hpow] at h
  have hpower : (f.parts a).2 = (f.parts b).2 :=
    le_antisymm (parts_power_le hb h.symm) (parts_power_le ha h)
  have hsignificand : (f.parts a).1 = (f.parts b).1 := by
    have hpow : (2 : ℚ) ^ (f.parts b).2 ≠ 0 := by positivity
    rw [hpower, scale_eq, scale_eq] at h
    exact_mod_cast mul_right_cancel₀ hpow h
  simp only [parts] at hpower hsignificand
  split_ifs at hpower hsignificand with hea heb heb
  · exact ⟨hea.trans heb.symm, hsignificand⟩
  · dsimp only at hsignificand
    omega
  · dsimp only at hsignificand
    omega
  · dsimp only at hpower hsignificand
    exact ⟨by omega, by omega⟩

/-- Two doubles with one value that is not zero are the same double. -/
theorem Binary64.eq_of_value {x y : Binary64} {q : ℚ} (hq : q ≠ 0)
    (hx : x.value = some (ExtRat.finite q)) (hy : y.value = some (ExtRat.finite q)) : x = y := by
  obtain ⟨hsignx, hmagx⟩ := magnitude_of_value hq hx
  obtain ⟨hsigny, hmagy⟩ := magnitude_of_value hq hy
  have hne : (binary64.parts x.toNat).1 ≠ 0 := by
    intro h0
    rw [h0, scale_eq, Nat.cast_zero, zero_mul] at hmagx
    exact hq (abs_eq_zero.mp hmagx.symm)
  obtain ⟨hexp, hfrac⟩ := parts_inj hne (hmagx.trans hmagy.symm)
  have hsign := hsignx.trans hsigny.symm
  apply BitVec.eq_of_toNat_eq
  have hxlt := x.isLt
  have hylt := y.isLt
  have hexp' : x.toNat / 2 ^ 52 % 2 ^ 11 = y.toNat / 2 ^ 52 % 2 ^ 11 := hexp
  have hfrac' : x.toNat % 2 ^ 52 = y.toNat % 2 ^ 52 := hfrac
  have hsign' : x.toNat / 2 ^ 63 % 2 = 1 ↔ y.toNat / 2 ^ 63 % 2 = 1 := decide_eq_decide.mp hsign
  omega

end Range

example : Binary32.value 0x43160000#32 = some (ExtRat.finite 150) := by decide

example : narrow 0x4062C00000000000#64 = some 0x43160000#32 := by decide

end CfsBridge.Ieee
