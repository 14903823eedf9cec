import CfsBridge.LongEvent

/-!
# The solar array status

Three writers share the status: critical radiation packets, event texts and
the operator. What an operation writes is read off the bytes of its datagram,
and after any run the status is what the last writing operation wrote.
-/
namespace CfsBridge.SolarStatus
open Bytes Python Runs TelemetryReceiver Processor
open CfsBridge.Parser
open CfsBridge.Classification

/-- Some part of the text is the word in capitals or small letters. -/
def Says (word text : String) : Prop :=
  ∃ part, part <:+: text.toList ∧ part.map Char.toUpper = word.toList

theorem contains_upper_iff (word text : String) :
    contains word (upper text) = true ↔ Says word text := by
  rw [LongEvent.contains_iff, upper, String.toList_ofList, List.infix_map_iff]
  constructor
  · intro h
    obtain ⟨part, hpart, hword⟩ := h
    exact ⟨part, hpart, hword.symm⟩
  · intro h
    obtain ⟨part, hpart, hword⟩ := h
    exact ⟨part, hpart, hword.symm⟩

instance (word text : String) : Decidable (Says word text) :=
  decidable_of_iff _ (contains_upper_iff word text)

/-- What an event text makes of the status; closing wins over opening. -/
def textEffect (text : String) : Option String :=
  if Says "SOLAR" text ∧ Says "CLOSE" text then some "Closed"
  else if Says "SOLAR" text ∧ Says "OPEN" text then some "Open"
  else none

/-- What a datagram makes of the status, by message ID, health byte and text. -/
def datagramEffect (data : Bytes) : Option String :=
  if streamWord data = tlmMidRad then
    if data[20]? = some 2 then some "Closed (FDIR Auto)" else none
  else if streamWord data = cfeEvsLongEventMsgMid ∧ 16 ≤ data.length then
    textEffect (parseEvs (data.drop 16))
  else none

/-- What an operation makes of the status; `none` leaves it alone. -/
def statusEffect : Op → Option String
  | .packet _ datagram => datagramEffect datagram
  | .update status _ => some status
  | .clear => none

theorem statusFromEvs_getD (text before : String) :
    TelemetryProcessor.statusFromEvs text before = (textEffect text).getD before := by
  simp only [TelemetryProcessor.statusFromEvs, textEffect, Bool.and_eq_true, contains_upper_iff]
  split_ifs <;> rfl

theorem health_eq_two_iff {data : Bytes} : (data.getD 20 0).toNat = 2 ↔ data[20]? = some 2 := by
  rw [List.getD_eq_getElem?_getD]
  cases data[20]? with
  | none => simp
  | some b => simp [← UInt8.toNat_inj]

/-- A packet acts on the status as its bytes say. -/
theorem status_packet (before : String) (now : Timestamp) (datagram : Datagram) :
    (Op.packet now datagram).status before = (datagramEffect datagram).getD before := by
  simp only [Op.status, datagramEffect]
  by_cases h16 : 16 ≤ datagram.val.length
  · rw [ofDatagram_long h16]
    cases htype : typeOf datagram.val with
    | radiation =>
      obtain ⟨hword, _⟩ := (typeOf_eq_radiation _).mp htype
      rw [if_pos hword]
      simp only [readingAt, health_eq_two_iff]
      split_ifs <;> rfl
    | thermal =>
      obtain ⟨hword, _⟩ := (typeOf_eq_thermal _).mp htype
      rw [hword, if_neg mids_ne.1, if_neg (fun h => mids_ne.2.2 h.1.symm)]
      rfl
    | evs =>
      have hword := (typeOf_eq_evs _).mp htype
      rw [hword, if_neg mids_ne.2.1, if_pos ⟨rfl, h16⟩]
      exact statusFromEvs_getD _ before
    | unknown =>
      obtain ⟨hrad, _, hevs⟩ := (typeOf_eq_unknown _).mp htype
      have hhealth : streamWord datagram.val = tlmMidRad → datagram.val[20]? = none := by
        intro hword
        apply List.getElem?_eq_none
        by_contra hlong
        exact hrad ⟨hword, by omega⟩
      split_ifs with hword hcritical
      · rw [hhealth hword] at hcritical
        cases hcritical
      · rfl
      · rename_i hmid
        exact absurd hmid.1 hevs
      · rfl
  · have hnone : datagram.val[20]? = none := List.getElem?_eq_none (by omega)
    rw [ofDatagram_headerOnly datagram.property (by omega), hnone,
      if_neg (fun h : _ ∧ _ => h16 h.2)]
    simp

theorem status_getD (before : String) (op : Op) :
    op.status before = (statusEffect op).getD before := by
  cases op with
  | packet now datagram => exact status_packet before now datagram
  | update status now => rfl
  | clear => rfl

/-- The status is a field that remembers the latest effect. -/
theorem latest_solarArrayStatus (hms : Timestamp → String) :
    Latest (TelemetryProcessor.step hms) (fun p => some p.solarArrayStatus) statusEffect := by
  intro p op
  simp only [TelemetryProcessor.step_solarArrayStatus, status_getD]
  cases statusEffect op <;> rfl

/-- After any run the status is the last effect of the run, and an operation
without effect changes nothing wherever it stands. -/
theorem solarArrayStatus_last_writer (hms : Timestamp → String) (maxPoints : ℕ) (ops : List Op) :
    (TelemetryProcessor.run hms maxPoints ops).solarArrayStatus =
      ((ops.filterMap statusEffect).getLast?).getD "Unknown" ∧
    ∀ before op after, ops = before ++ op :: after → statusEffect op = none →
      (TelemetryProcessor.run hms maxPoints ops).solarArrayStatus =
        (TelemetryProcessor.run hms maxPoints (before ++ after)).solarArrayStatus := by
  have hlast (ops : List Op) : (TelemetryProcessor.run hms maxPoints ops).solarArrayStatus =
      ((ops.filterMap statusEffect).getLast?).getD "Unknown" := by
    have hrun := (latest_solarArrayStatus hms).run (.init maxPoints) ops
    have hinit : (TelemetryProcessor.init maxPoints).solarArrayStatus = "Unknown" := rfl
    rw [hinit] at hrun
    apply Option.some_inj.mp
    rw [TelemetryProcessor.run, hrun]
    cases (ops.filterMap statusEffect).getLast? <;> rfl
  refine ⟨hlast ops, ?_⟩
  intro before op after hops heffect
  rw [hlast, hlast, hops]
  simp [heffect]

end CfsBridge.SolarStatus
