import CfsBridge.CcsdsCodec
import CfsBridge.MissionRegistry

/-!
# Sensor simulators

`BaseSensor` keeps one reading, clamped to the range of its class, and sends it
as a command with a sequence counter of its own. The two shipped sensors are
two such classes.
-/
namespace CfsBridge.Sensors
open Bytes Python CcsdsUtils MissionRegistry
open Ieee (Binary64 ExtRat)

/-- Python's `min(a, b)`: the first unless the second is strictly below it. -/
def pyMin (a b : Binary64) : Binary64 := if b.lt a then b else a

/-- Python's `max(a, b)`: the first unless the second is strictly above it. -/
def pyMax (a b : Binary64) : Binary64 := if a.lt b then b else a

/-- The attributes that a subclass of `BaseSensor` defines. -/
structure SensorClass where
  mid : ℤ
  funcCode : ℤ
  minValue : Binary64
  maxValue : Binary64
  default : Binary64

def radiationSensor : SensorClass where
  mid := Mid.radiationApp
  funcCode := Fc.sendData
  minValue := 0x0000000000000000#64
  maxValue := 0x408F400000000000#64
  default := 0x4049000000000000#64

def thermalSensor : SensorClass where
  mid := Mid.thermalApp
  funcCode := Fc.sendData
  minValue := 0xC044000000000000#64
  maxValue := 0x4055400000000000#64
  default := 0x4034000000000000#64

/-- What the setter of `value` stores. -/
def SensorClass.clamp (c : SensorClass) (newValue : Binary64) : Binary64 :=
  pyMax c.minValue (pyMin c.maxValue newValue)

/-- A sensor object. `transmitted` is the trace of packets that `sendto` took. -/
structure BaseSensor where
  value : Binary64
  seqCount : ℤ
  transmitted : List Bytes

namespace BaseSensor

def init (c : SensorClass) : BaseSensor where
  value := c.default
  seqCount := 0
  transmitted := []

def setValue (c : SensorClass) (newValue : Binary64) (s : BaseSensor) : BaseSensor :=
  { s with value := c.clamp newValue }

def packPayload (s : BaseSensor) : Except PyException Bytes := packFloat s.value

/-- `send`, with the outcome of its `sendto`. -/
def send (c : SensorClass) (sendto : Except PyException ℕ) (s : BaseSensor) :
    Except PyException ℕ × BaseSensor :=
  match s.packPayload with
  | .error e => (.error e, s)
  | .ok payload =>
    match packCmdPacket c.mid c.funcCode payload s.seqCount with
    | .error e => (.error e, s)
    | .ok packet =>
      let s := { s with seqCount := Int.land (s.seqCount + 1) 0x3FFF }
      match sendto with
      | .error e => (.error e, s)
      | .ok bytesSent => (.ok bytesSent, { s with transmitted := s.transmitted ++ [packet] })

def updateAndSend (c : SensorClass) (newValue : Binary64) (sendto : Except PyException ℕ)
    (s : BaseSensor) : Except PyException ℕ × BaseSensor := (s.setValue c newValue).send c sendto

end BaseSensor

/-! ### Runs -/

inductive SensorOp
  | setValue (newValue : Binary64)
  | send
  | updateAndSend (newValue : Binary64)

/-- One call, with the outcome of the `sendto` it may reach. -/
structure SensorTurn where
  op : SensorOp
  sendto : Except PyException ℕ

namespace BaseSensor

def call (c : SensorClass) (s : BaseSensor) (turn : SensorTurn) : BaseSensor :=
  match turn.op with
  | .setValue newValue => s.setValue c newValue
  | .send => (s.send c turn.sendto).2
  | .updateAndSend newValue => (s.updateAndSend c newValue turn.sendto).2

/-- A run of calls on a new sensor. -/
def run (c : SensorClass) (turns : List SensorTurn) : BaseSensor := turns.foldl (call c) (init c)

end BaseSensor

/-! ### Clamping -/

theorem lt_of_value {a b : Binary64} {x y : ExtRat} (ha : a.value = some x) (hb : b.value = some y) :
    a.lt b = decide (x < y) := by
  simp [Binary64.lt, ha, hb]

theorem value_pyMin {a b : Binary64} {x y : ExtRat} (ha : a.value = some x) (hb : b.value = some y) :
    (pyMin a b).value = some (min x y) := by
  rw [pyMin, lt_of_value hb ha]
  by_cases h : y < x
  · rw [if_pos (decide_eq_true h), hb, min_eq_right h.le]
  · rw [if_neg (by simpa using h), ha, min_eq_left (not_lt.mp h)]

theorem value_pyMax {a b : Binary64} {x y : ExtRat} (ha : a.value = some x) (hb : b.value = some y) :
    (pyMax a b).value = some (max x y) := by
  rw [pyMax, lt_of_value ha hb]
  by_cases h : x < y
  · rw [if_pos (decide_eq_true h), hb, max_eq_right h.le]
  · rw [if_neg (by simpa using h), ha, max_eq_left (not_lt.mp h)]

theorem isSingle_pyMin {a b : Binary64} {p q : ℚ} (ha : a.IsSingle p) (hb : b.IsSingle q) :
    (pyMin a b).IsSingle (min p q) where
  value := by rw [value_pyMin ha.value hb.value, ← ExtRat.finite_mono.map_min]
  single := by
    cases min_choice p q with
    | inl hp =>
      rw [hp]
      exact ha.single
    | inr hq =>
      rw [hq]
      exact hb.single

theorem isSingle_pyMax {a b : Binary64} {p q : ℚ} (ha : a.IsSingle p) (hb : b.IsSingle q) :
    (pyMax a b).IsSingle (max p q) where
  value := by rw [value_pyMax ha.value hb.value, ← ExtRat.finite_mono.map_max]
  single := by
    cases max_choice p q with
    | inl hp =>
      rw [hp]
      exact ha.single
    | inr hq =>
      rw [hq]
      exact hb.single

/-- The range of a class, exact in single precision. -/
structure SensorClass.Range (c : SensorClass) (lo hi : ℚ) : Prop where
  minValue : c.minValue.IsSingle lo
  maxValue : c.maxValue.IsSingle hi

theorem radiationSensor_range : radiationSensor.Range 0 1000 where
  minValue := ⟨by decide +kernel, 0x00000000#32, by decide⟩
  maxValue := ⟨by decide, 0x447A0000#32, by decide⟩

theorem thermalSensor_range : thermalSensor.Range (-40) 85 where
  minValue := ⟨by decide, 0xC2200000#32, by decide⟩
  maxValue := ⟨by decide, 0x42AA0000#32, by decide⟩

/-- A sensor stores the nearest value of its range. -/
theorem SensorClass.Range.clamp {c : SensorClass} {lo hi : ℚ} (h : c.Range lo hi)
    {newValue : Binary64} {q : ℚ} (hvalue : newValue.IsSingle q) :
    (c.clamp newValue).IsSingle (max lo (min hi q)) :=
  isSingle_pyMax h.minValue (isSingle_pyMin h.maxValue hvalue)

/-! ### Sending -/

/-- The payloads with which a sensor builds a packet. -/
theorem cmdFits_of_packFloat (mid : ℤ) {value : Binary64} {payload : Bytes}
    (h : packFloat value = .ok payload) : CmdFits mid payload ↔ 0 ≤ mid ∧ mid ≤ 65535 := by
  have hlen := packFloat_length h
  rw [CmdFits]
  omega

/-- A sensor's `send` builds its packet first; then it counts, and fails or transmits. -/
theorem BaseSensor.send_eq (c : SensorClass) (sendto : Except PyException ℕ) (s : BaseSensor) :
    s.send c sendto = match packFloat s.value with
      | .error e => (.error e, s)
      | .ok payload =>
        if 0 ≤ c.mid ∧ c.mid ≤ 65535 then
          let counted := { s with seqCount := (s.seqCount + 1) % 16384 }
          match sendto with
          | .error e => (.error e, counted)
          | .ok n => (.ok n, { counted with transmitted :=
              s.transmitted ++ [cmdBytes c.mid (c.funcCode % 128).toNat payload s.seqCount] })
        else (.error .structError, s) := by
  unfold send packPayload
  cases hpayload : packFloat s.value with
  | error e => rfl
  | ok payload =>
    have hfits := cmdFits_of_packFloat c.mid hpayload
    split_ifs with h
    · simp only [packCmdPacket_ok (hfits.mpr h), land_0x3FFF]
    · simp only [packCmdPacket_error (mt hfits.mp h)]

end CfsBridge.Sensors
