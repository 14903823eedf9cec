import CfsBridge.SendFailures

/-!
# Runs of a sensor

The reading of a sensor stays in the range of its class, whatever is assigned
to it. The nested `min` and `max` name the bound first, so a comparison with a
NaN keeps the bound. A reading in the range always fits a single, so every
`send` gets as far as its `sendto`, with a packet that carries the reading.
-/
namespace CfsBridge.Sensors
open Bytes Python CcsdsUtils
open Ieee (Binary64 ExtRat maxBinary32)

/-- A double that lies in the given range. -/
def Within (lo hi : ℚ) (v : Binary64) : Prop :=
  ∃ q, v.value = some (ExtRat.finite q) ∧ lo ≤ q ∧ q ≤ hi

/-- A class whose default lies in its range, and the range in that of a single. -/
structure SensorClass.WellFormed (c : SensorClass) (lo hi : ℚ) : Prop where
  minValue : c.minValue.value = some (ExtRat.finite lo)
  maxValue : c.maxValue.value = some (ExtRat.finite hi)
  default : Within lo hi c.default
  lo_ge : -maxBinary32 ≤ lo
  hi_le : hi ≤ maxBinary32
  mid : 0 ≤ c.mid ∧ c.mid ≤ 65535
  funcCode : 0 ≤ c.funcCode ∧ c.funcCode ≤ 127

/-! ### Clamping -/

theorem lt_of_nan_left {a b : Binary64} (ha : a.value = none) : a.lt b = false := by
  simp [Binary64.lt, ha]

namespace SensorClass

/-- A NaN does not replace the bound that it is compared with. -/
theorem clamp_nan (c : SensorClass) {v : Binary64} (hv : v.value = none) :
    c.clamp v = pyMax c.minValue c.maxValue := by
  rw [clamp, pyMin, lt_of_nan_left hv]
  rfl

/-- The setter stores a bound, or a value strictly between the bounds. -/
theorem clamp_cases (c : SensorClass) (v : Binary64) :
    c.clamp v = c.minValue ∨ (c.minValue.lt c.maxValue = true ∧ c.clamp v = c.maxValue) ∨
      (c.minValue.lt v = true ∧ v.lt c.maxValue = true ∧ c.clamp v = v) := by
  unfold clamp pyMax pyMin
  by_cases hmax : v.lt c.maxValue = true
  · rw [if_pos hmax]
    by_cases hmin : c.minValue.lt v = true
    · exact .inr (.inr ⟨hmin, hmax, if_pos hmin⟩)
    · exact .inl (if_neg hmin)
  · rw [if_neg hmax]
    by_cases hmin : c.minValue.lt c.maxValue = true
    · exact .inr (.inl ⟨hmin, if_pos hmin⟩)
    · exact .inl (if_neg hmin)

/-- Storing a stored value again changes no bit of it. -/
theorem clamp_clamp (c : SensorClass) (v : Binary64) : c.clamp (c.clamp v) = c.clamp v := by
  have hmin (a : Binary64) : pyMin a a = a := ite_self a
  have hmax (a : Binary64) : pyMax a a = a := ite_self a
  cases clamp_cases c v with
  | inl hlow =>
    rw [hlow, clamp]
    by_cases hlt : c.minValue.lt c.maxValue = true
    · rw [pyMin, if_pos hlt, hmax]
    · rw [pyMin, if_neg hlt, pyMax, if_neg hlt]
  | inr hrest =>
    cases hrest with
    | inl hhigh => rw [hhigh.2, clamp, hmin, pyMax, if_pos hhigh.1]
    | inr hbetween => rw [hbetween.2.2, hbetween.2.2]

end SensorClass

namespace SensorClass.WellFormed
variable {c : SensorClass} {lo hi : ℚ} {v : Binary64}

theorem lo_le_hi (h : c.WellFormed lo hi) : lo ≤ hi := by
  obtain ⟨q, _, hlo, hhi⟩ := h.default
  exact hlo.trans hhi

theorem value_clamp (h : c.WellFormed lo hi) {x : ExtRat} (hv : v.value = some x) :
    (c.clamp v).value = some (max (ExtRat.finite lo) (min (ExtRat.finite hi) x)) :=
  value_pyMax h.minValue (value_pyMin h.maxValue hv)

/-- Every assignment stores a value of the range. -/
theorem within_clamp (h : c.WellFormed lo hi) (v : Binary64) : Within lo hi (c.clamp v) := by
  have hrange := ExtRat.finite_le_finite.mpr h.lo_le_hi
  cases hv : v.value with
  | none =>
    rw [clamp_nan c hv]
    refine ⟨hi, ?_, h.lo_le_hi, le_refl hi⟩
    rw [value_pyMax h.minValue h.maxValue, max_eq_right hrange]
  | some x =>
    obtain ⟨q, hq, hlo, hhi⟩ := ExtRat.exists_finite (le_max_left _ _)
      (max_le hrange (min_le_left (ExtRat.finite hi) x))
    exact ⟨q, by rw [h.value_clamp hv, hq], hlo, hhi⟩

/-- A value of the range is stored as it is. -/
theorem value_clamp_of_within (h : c.WellFormed lo hi) {q : ℚ}
    (hv : v.value = some (ExtRat.finite q)) (hlo : lo ≤ q) (hhi : q ≤ hi) :
    (c.clamp v).value = some (ExtRat.finite q) := by
  rw [h.value_clamp hv, min_eq_right (ExtRat.finite_le_finite.mpr hhi),
    max_eq_right (ExtRat.finite_le_finite.mpr hlo)]

/-- Only a zero can change its sign, when a bound is the other zero. -/
theorem clamp_eq_self (h : c.WellFormed lo hi) {q : ℚ} (hv : v.value = some (ExtRat.finite q))
    (hlo : lo ≤ q) (hhi : q ≤ hi) : c.clamp v = v ∨ q = 0 ∧ (q = lo ∨ q = hi) := by
  have hstored := h.value_clamp_of_within hv hlo hhi
  by_cases hq : q = 0
  · cases clamp_cases c v with
    | inl hlow =>
      rw [hlow, h.minValue, Option.some_inj, ExtRat.finite_inj] at hstored
      exact .inr ⟨hq, .inl hstored.symm⟩
    | inr hrest =>
      cases hrest with
      | inl hhigh =>
        rw [hhigh.2, h.maxValue, Option.some_inj, ExtRat.finite_inj] at hstored
        exact .inr ⟨hq, .inr hstored.symm⟩
      | inr hbetween => exact .inl hbetween.2.2
  · exact .inl (Ieee.Binary64.eq_of_value hq hstored hv)

theorem clamp_mono (h : c.WellFormed lo hi) {w : Binary64} {x y : ExtRat} (hv : v.value = some x)
    (hw : w.value = some y) (hle : x ≤ y) :
    ∃ x' y', (c.clamp v).value = some x' ∧ (c.clamp w).value = some y' ∧ x' ≤ y' :=
  ⟨_, _, h.value_clamp hv, h.value_clamp hw, max_le_max_left _ (min_le_min_left _ hle)⟩

end SensorClass.WellFormed

/-! ### Sending -/

/-- A call that hands one packet to `sendto`, whatever becomes of it: the
packet carries the current reading, and the number is used up. -/
def HandsOver (c : SensorClass) (s : BaseSensor)
    (call : Except PyException ℕ → Except PyException ℕ × BaseSensor) : Prop :=
  ∃ payload packet, packFloat s.value = .ok payload ∧ payload.length = 4 ∧
    packCmdPacket c.mid c.funcCode payload s.seqCount = .ok packet ∧ packet.length = 12 ∧
    CarriesCommand packet c.mid c.funcCode payload ∧
    (∀ n, call (.ok n) = (.ok n, { s with
      seqCount := (s.seqCount + 1) % 2 ^ 14
      transmitted := s.transmitted ++ [packet] })) ∧
    ∀ e, call (.error e) = (.error e, { s with seqCount := (s.seqCount + 1) % 2 ^ 14 })

section Send
variable {c : SensorClass} {lo hi : ℚ}

/-- A reading of the range has a serialisation of four bytes. -/
theorem SensorClass.WellFormed.packFloat_ok (h : c.WellFormed lo hi) {v : Binary64}
    (hv : Within lo hi v) : ∃ payload, packFloat v = .ok payload ∧ payload.length = 4 := by
  obtain ⟨q, hvalue, hlo, hhi⟩ := hv
  have habs : |q| ≤ maxBinary32 := abs_le.mpr ⟨h.lo_ge.trans hlo, hhi.trans h.hi_le⟩
  obtain ⟨b, hb⟩ := Option.isSome_iff_exists.mp (Ieee.narrow_isSome hvalue habs)
  exact ⟨beBytes 4 b.toNat, by rw [packFloat, hb], beBytes_length 4 _⟩

theorem SensorClass.WellFormed.handsOver_send (h : c.WellFormed lo hi) {s : BaseSensor}
    (hs : Within lo hi s.value) : HandsOver c s fun sendto => s.send c sendto := by
  obtain ⟨payload, hpayload, hlen⟩ := h.packFloat_ok hs
  have hfits : CmdFits c.mid payload := (cmdFits_of_packFloat c.mid hpayload).mpr h.mid
  have hpacket := carriesCommand_cmdBytes hfits h.funcCode s.seqCount
  refine ⟨payload, _, hpayload, hlen, packCmdPacket_ok hfits _ _, ?_, hpacket, ?_, ?_⟩
  · rw [hpacket.length, hlen]
  · intro n
    simp only [BaseSensor.send_eq, hpayload, if_pos h.mid]
    rfl
  · intro e
    simp only [BaseSensor.send_eq, hpayload, if_pos h.mid]
    rfl

end Send

/-! ### Runs -/

section Run
variable {c : SensorClass} {lo hi : ℚ}

/-- One call keeps the reading in the range. -/
theorem within_call (h : c.WellFormed lo hi) {s : BaseSensor} (hs : Within lo hi s.value)
    (turn : SensorTurn) : Within lo hi (s.call c turn).value := by
  obtain ⟨op, sendto⟩ := turn
  cases op with
  | setValue newValue => exact h.within_clamp newValue
  | send =>
    have hsame : (s.call c ⟨.send, sendto⟩).value = s.value := SendFailures.value_send c sendto s
    rwa [hsame]
  | updateAndSend newValue =>
    have hstored : (s.call c ⟨.updateAndSend newValue, sendto⟩).value = c.clamp newValue :=
      SendFailures.value_send c sendto (s.setValue c newValue)
    rw [hstored]
    exact h.within_clamp newValue

theorem within_run (h : c.WellFormed lo hi) (turns : List SensorTurn) :
    Within lo hi (BaseSensor.run c turns).value := by
  induction turns using List.reverseRecOn with
  | nil => exact h.default
  | append_singleton turns turn ih =>
    rw [BaseSensor.run, List.foldl_append]
    exact within_call h ih turn

end Run

/-- Over every run a sensor holds a value of its range and a 14-bit counter, and
each call that sends hands over a packet that carries the current value.
Assignments keep what lies in the range, settle at once and keep the order. -/
theorem sensor_invariant {c : SensorClass} {lo hi : ℚ} (h : c.WellFormed lo hi) :
    (∀ turns, let s := BaseSensor.run c turns
      Within lo hi s.value ∧ (0 ≤ s.seqCount ∧ s.seqCount ≤ 16383) ∧
        HandsOver c s (fun sendto => s.send c sendto) ∧
        ∀ newValue, HandsOver c (s.setValue c newValue)
          fun sendto => s.updateAndSend c newValue sendto) ∧
    (∀ (v : Binary64) (q : ℚ), v.value = some (ExtRat.finite q) → lo ≤ q → q ≤ hi →
      (c.clamp v).value = some (ExtRat.finite q) ∧
        (c.clamp v = v ∨ q = 0 ∧ (q = lo ∨ q = hi))) ∧
    (∀ v, c.clamp (c.clamp v) = c.clamp v) ∧
    ∀ (v w : Binary64) (x y : ExtRat), v.value = some x → w.value = some y → x ≤ y →
      ∃ x' y', (c.clamp v).value = some x' ∧ (c.clamp w).value = some y' ∧ x' ≤ y' := by
  refine ⟨?_, ?_, SensorClass.clamp_clamp c, fun _ _ _ _ => h.clamp_mono⟩
  · intro turns s
    have hcount : s.seqCount =
        ((SendFailures.attemptsFrom c c.default turns).length : ℤ) % 16384 :=
      (SendFailures.sensorAttempted_run c turns).seqCount
    refine ⟨within_run h turns, ⟨by omega, by omega⟩, h.handsOver_send (within_run h turns), ?_⟩
    intro newValue
    exact h.handsOver_send (h.within_clamp newValue)
  · intro v q hv hlo hhi
    exact ⟨h.value_clamp_of_within hv hlo hhi, h.clamp_eq_self hv hlo hhi⟩

theorem radiationSensor_wellFormed : radiationSensor.WellFormed 0 1000 where
  minValue := by decide +kernel
  maxValue := by decide
  default := ⟨50, by decide, by norm_num, by norm_num⟩
  lo_ge := by norm_num [maxBinary32]
  hi_le := by norm_num [maxBinary32]
  mid := by decide
  funcCode := by decide

theorem thermalSensor_wellFormed : thermalSensor.WellFormed (-40) 85 where
  minValue := by decide
  maxValue := by decide
  default := ⟨20, by decide, by norm_num, by norm_num⟩
  lo_ge := by norm_num [maxBinary32]
  hi_le := by norm_num [maxBinary32]
  mid := by decide
  funcCode := by decide

/-- A NaN drives the radiation sensor to its upper bound, and the send that
follows fails after its packet is built. -/
theorem sensor_invariant_nan :
    let s := BaseSensor.run radiationSensor
      [⟨.updateAndSend 0x7FF8000000000000#64, .error .osError⟩]
    s.value = radiationSensor.maxValue ∧ s.seqCount = 1 ∧ Within 0 1000 s.value := by
  intro s
  have hwithin := ((sensor_invariant radiationSensor_wellFormed).1
    [⟨.updateAndSend 0x7FF8000000000000#64, .error .osError⟩]).1
  exact ⟨by decide +kernel, by decide +kernel, hwithin⟩

end CfsBridge.Sensors
