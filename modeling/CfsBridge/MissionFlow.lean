import CfsBridge.Mission

/-!
# The flow of readings

Each reading that a sensor has sent is on its way up, in the telemetry that is
on its way down, or shown. An event moves readings on, takes new ones in or
disturbs a link, so the whole path stands in the relation to what was sent that
the links' discipline allows.
-/
namespace CfsBridge.Mission
open Bytes Python Cfe FlightApps TelemetryReceiver Processor Sensors Channels Transitions
open CfsBridge.Monitor CfsBridge.Parser
open Ieee (Binary32)

namespace System
variable (k : Source) (cfe : Services) (s : System)

/-- The readings that the sensor has sent. -/
def sent : List Binary32 := (s.sensor k).transmitted.map readingOf

/-- The readings on their way up, oldest first. -/
def ascending : List Binary32 :=
  (s.pipe k).flatMap k.commanded ++ s.uplink.flatMap k.commanded

/-- The readings that the monitor has sent down. -/
def flown : List Binary32 :=
  (outgoing cfe (s.task k).data.actions).flatMap k.reported

/-- The readings that are shown, then those on their way down. -/
def descending : List Binary32 := k.shown s.log ++ s.downlink.flatMap k.reported

end System

/-! ### The invariant -/

/-- A datagram whose health code grades its reading, for every source. -/
def Graded (data : Bytes) : Prop :=
  ∀ (k : Source) reading, k.read data = some reading →
    Grades k.limit k.warning reading.1 reading.2

/-- A datagram that a monitor takes only if its own sensor has sent it. -/
structure Addressed (packet : Bytes) : Prop where
  length : 2 ≤ packet.length
  fromSensor : ∀ k : Source, ofBE (packet.take 2) = k.monitor.cmdMid → k.FromSensor packet

structure Inv (cfe : Services) (hms : Timestamp → String) (s : System) : Prop where
  value : ∀ k, Within k.lo k.hi (s.sensor k).value
  transmitted : ∀ k, ∀ packet ∈ (s.sensor k).transmitted, k.FromSensor packet
  uplink : ∀ packet ∈ s.uplink, Addressed packet
  pipe : ∀ k, ∀ message ∈ s.pipe k, k.FromSensor message
  task : ∀ k, ∃ done, Sound k cfe done (s.task k) ∧ ∀ buffer ∈ done, k.FromSensor buffer.message
  downlink : ∀ data ∈ s.downlink, Graded data
  log : ∀ op ∈ s.log, ∀ (k : Source) point, k.point op = some point →
    Grades k.limit k.warning point.value point.health ∧
      point.healthLabel = healthLabels point.health
  world : s.receiver.world = TelemetryProcessor.run hms 200 s.log

section Steps
variable {cfe : Services} {hms : Timestamp → String} {s : System}

theorem inv_start (hcfe : cfe.Documented) (hms : Timestamp → String) (boot : Source → Script) :
    Inv cfe hms (start cfe boot) where
  value k := k.wellFormed.default
  transmitted k packet hpacket := by cases hpacket
  uplink packet hpacket := by cases hpacket
  pipe k message hmessage := by cases hmessage
  task k := ⟨[], sound_startUp hcfe k (boot k), by simp⟩
  downlink data hdata := by cases hdata
  log op hop := by cases hop
  world := rfl

/-- A sensor's packets are addressed to its own monitor. -/
theorem addressed_of_fromSensor {k : Source} {packet : Bytes} (h : k.FromSensor packet) :
    Addressed packet where
  length := by rw [h.length]; omega
  fromSensor j hj := by
    rw [h.mid] at hj
    rwa [← Source.cmdMid_inj hj]

/-- The ground station has no button for sensor data. -/
theorem addressed_command (c : GroundCommand) (sendto : Except PyException ℕ)
    (d : Dispatcher.CommandDispatcher) : ∃ packets,
      (d.call ⟨c.op, sendto⟩).2.transmitted = d.transmitted ++ packets ∧
        ∀ packet ∈ packets, 2 ≤ packet.length ∧
          ∀ k : Source, ofBE (packet.take 2) ≠ k.monitor.cmdMid := by
  have hmid : c.op.mid = 0x1880 ∨ c.op.mid = 0x1890 := by
    cases c with
    | array button => cases button <;> exact .inr rfl
    | enableOutput destIp => exact .inl rfl
  rw [Dispatcher.CommandDispatcher.call_eq]
  cases hpayload : c.op.payload with
  | error e => exact ⟨[], (List.append_nil _).symm, by simp⟩
  | ok payload =>
    simp only [Dispatcher.CommandDispatcher.send_eq]
    split_ifs
    · cases sendto with
      | error e => exact ⟨[], (List.append_nil _).symm, by simp⟩
      | ok n =>
        refine ⟨_, rfl, fun packet hpacket => ?_⟩
        obtain rfl := List.mem_singleton.mp hpacket
        have hword (seq : ℤ) : ofBE ((CcsdsUtils.cmdBytes c.op.mid (c.op.funcCode % 128).toNat
            payload seq).take 2) = c.op.mid.toNat := by
          rw [← slice_zero_left, CcsdsUtils.cmdBytes_eq, (CcsdsUtils.slice_primaryBytes ..).1,
            ofBE_beBytes_of_lt (by omega)]
        refine ⟨by rw [CcsdsUtils.cmdBytes_length]; omega, fun k => ?_⟩
        rw [hword]
        cases hmid with
        | inl h => rw [h]; cases k <;> decide
        | inr h => rw [h]; cases k <;> decide
    · exact ⟨[], (List.append_nil _).symm, by simp⟩

/-! ### One event, piece by piece -/

theorem sense_eq (k : Source) (turn : SensorTurn) (h : Within k.lo k.hi (s.sensor k).value) :
    ∃ packets, (∀ packet ∈ packets, k.FromSensor packet) ∧
      ((s.sensor k).call k.sensorClass turn).transmitted = (s.sensor k).transmitted ++ packets ∧
      sense k turn s = { s with
        sensor := Function.update s.sensor k ((s.sensor k).call k.sensorClass turn)
        uplink := s.uplink ++ packets } := by
  obtain ⟨packets, hpackets, hall⟩ := k.fromSensor_call h turn
  refine ⟨packets, hall, hpackets, ?_⟩
  rw [sense, hpackets, List.drop_left]

theorem command_eq (c : GroundCommand) (sendto : Except PyException ℕ) :
    ∃ packets dispatcher, (∀ packet ∈ packets, 2 ≤ packet.length ∧
        ∀ k : Source, ofBE (packet.take 2) ≠ k.monitor.cmdMid) ∧
      command c sendto s = { s with
        dispatcher := dispatcher
        uplink := s.uplink ++ packets } := by
  obtain ⟨packets, hpackets, hall⟩ := addressed_command c sendto s.dispatcher
  refine ⟨packets, (s.dispatcher.call ⟨c.op, sendto⟩).2, hall, ?_⟩
  rw [command, hpackets, List.drop_left]

theorem ingest_eq_some_iff {s' : System} : ingest cfe s = some s' ↔
    ∃ packet rest, s.uplink = packet :: rest ∧ s' = { s with
      uplink := rest
      pipe := fun k =>
        if cfe.getMsgId packet = k.monitor.cmdMid then
          push k.monitor.pipeDepth (s.pipe k) packet
        else s.pipe k } := by
  unfold ingest
  cases s.uplink <;> simp [eq_comm]

theorem arrive_eq_some_iff {now : Timestamp} {s' : System} : arrive hms now s = some s' ↔
    ∃ data rest, s.downlink = data :: rest ∧ s' = { s with
      downlink := rest
      receiver := s.receiver.handle [TelemetryProcessor.process hms] now data
      log := s.log ++ if h : 6 ≤ data.length then [.packet now ⟨data, h⟩] else [] } := by
  unfold arrive
  cases s.downlink <;> simp [eq_comm]

theorem advance_eq (k : Source) (turn : Turn) (block : List Call)
    (h : ((s.task k).turn k.monitor cfe turn).data.actions = (s.task k).data.actions ++ block) :
    advance cfe k turn s = { s with
      task := Function.update s.task k ((s.task k).turn k.monitor cfe turn)
      downlink := s.downlink ++ outgoing cfe block } := by
  rw [advance, h, List.drop_left]

/-- A turn takes the oldest message of its pipe, or nothing happens that can be observed. -/
theorem takeTurn_cases {s' : System} {k : Source} {turn : Turn}
    (h : takeTurn cfe k turn s = some s') :
    (∃ message rest, (s.task k).receives turn = true ∧ s.pipe k = message :: rest ∧
      turn.buffer.message = message ∧
      s' = advance cfe k turn { s with pipe := Function.update s.pipe k rest }) ∨
    ((s.task k).receives turn = false ∧ s' = advance cfe k turn s) := by
  unfold takeTurn at h
  cases hreceives : (s.task k).receives turn with
  | true =>
    rw [hreceives, if_pos rfl] at h
    cases hpipe : s.pipe k with
    | nil =>
      rw [hpipe] at h
      cases h
    | cons message rest =>
      rw [hpipe] at h
      dsimp only at h
      split_ifs at h with hmessage
      exact .inl ⟨message, rest, rfl, rfl, hmessage, (Option.some.inj h).symm⟩
  | false =>
    rw [hreceives, if_neg Bool.false_ne_true] at h
    exact .inr ⟨rfl, (Option.some.inj h).symm⟩

/-- A message of a pipe as its monitor finds it in a buffer. -/
theorem readingOf_fromSensor {k : Source} {buffer : SbBuffer}
    (h : k.FromSensor buffer.message) : readingOf buffer.bytes = readingOf buffer.message := by
  have hsize : 12 ≤ buffer.size := by rw [← buffer.message_length, h.length]
  exact (readingOf_message hsize).symm

end Steps

/-! ### What a turn can do -/

/-- The monitor reacts to the oldest message of its pipe, and one telemetry packet
goes down, or nothing happens that can be observed. -/
inductive TurnStep (cfe : Services) (k : Source) (turn : Turn) (s : System) : System → Prop
  | react {rest : List Bytes} {data : Bytes} : s.pipe k = turn.buffer.message :: rest →
      k.FromSensor turn.buffer.message →
      outgoing cfe ((s.task k).turn k.monitor cfe turn).data.actions =
        outgoing cfe (s.task k).data.actions ++ [data] →
      (∀ j : Source, j.read data = if j = k then some (readingOf turn.buffer.message,
        (k.monitor.healthOf (readingOf turn.buffer.message)).toNat) else none) →
      (∀ done, Sound k cfe done (s.task k) →
        Sound k cfe (done ++ [turn.buffer]) ((s.task k).turn k.monitor cfe turn)) →
      TurnStep cfe k turn s { s with
        pipe := Function.update s.pipe k rest
        task := Function.update s.task k ((s.task k).turn k.monitor cfe turn)
        downlink := s.downlink ++ [data] }
  | idle : outgoing cfe ((s.task k).turn k.monitor cfe turn).data.actions =
        outgoing cfe (s.task k).data.actions →
      (∀ done, Sound k cfe done (s.task k) →
        Sound k cfe done ((s.task k).turn k.monitor cfe turn)) →
      TurnStep cfe k turn s { s with
        task := Function.update s.task k ((s.task k).turn k.monitor cfe turn) }

section Invariant
variable {cfe : Services} {hms : Timestamp → String} {s s' : System}

theorem turn_cases (h : Inv cfe hms s) (hcfe : cfe.Documented) {k : Source} {turn : Turn}
    (he : takeTurn cfe k turn s = some s') : TurnStep cfe k turn s s' := by
  obtain ⟨done, hsound, -⟩ := h.task k
  rcases takeTurn_cases he with ⟨message, rest, hreceives, hpipe, rfl, rfl⟩ | ⟨hidle, rfl⟩
  · have hfrom : k.FromSensor turn.buffer.message :=
      h.pipe k turn.buffer.message (by simp [hpipe])
    have haddr : k.monitor.addressed cfe turn.buffer = true :=
      addressed_of_sendData hcfe k.paired.isCommand k.paired.fcSendData hfrom.sendData
    obtain ⟨block, hblock, hactions, -⟩ := hsound.receives hcfe hreceives haddr
    obtain ⟨data, hdata, hreports⟩ := outgoing_reaction hcfe hblock
    have hread := hreports.read
    rw [readingOf_fromSensor hfrom, hfrom.quiet_readingOf] at hread
    rw [advance_eq (s := { s with pipe := Function.update s.pipe k rest }) k turn block hactions,
      hdata]
    refine .react hpipe hfrom ?_ hread fun done' hdone' => ?_
    · rw [hactions, outgoing, List.filterMap_append, ← outgoing, ← outgoing, hdata]
    · obtain ⟨_, _, _, hsound', _⟩ := hdone'.receives hcfe hreceives haddr
      exact hsound'
  · obtain ⟨hactions, -⟩ := hsound.idle hidle
    rw [advance_eq k turn [] (by rw [hactions, List.append_nil])]
    have hnone : s.downlink ++ outgoing cfe [] = s.downlink := List.append_nil _
    rw [hnone]
    exact .idle (by rw [hactions]) fun done' hdone' => (hdone'.idle hidle).2

/-! ### Every event keeps the invariant -/

theorem Inv.sense (h : Inv cfe hms s) (k : Source) (turn : SensorTurn) :
    Inv cfe hms (sense k turn s) := by
  obtain ⟨packets, hall, htransmitted, heq⟩ := sense_eq k turn (h.value k)
  rw [heq]
  refine { h with value := ?_, transmitted := ?_, uplink := ?_ }
  · intro j
    by_cases hj : j = k
    · subst hj
      simpa using within_call j.wellFormed (h.value j) turn
    · simpa [hj] using h.value j
  · intro j packet hpacket
    by_cases hj : j = k
    · subst hj
      simp only [Function.update_self, htransmitted] at hpacket
      exact (List.mem_append.mp hpacket).elim (h.transmitted j packet) (hall packet)
    · simp only [Function.update_of_ne hj] at hpacket
      exact h.transmitted j packet hpacket
  · intro packet hpacket
    exact (List.mem_append.mp hpacket).elim (h.uplink packet)
      fun hnew => addressed_of_fromSensor (hall packet hnew)

theorem Inv.command (h : Inv cfe hms s) (c : GroundCommand) (sendto : Except PyException ℕ) :
    Inv cfe hms (command c sendto s) := by
  obtain ⟨packets, dispatcher, hall, heq⟩ := command_eq (s := s) c sendto
  rw [heq]
  refine { h with uplink := ?_ }
  intro packet hpacket
  exact (List.mem_append.mp hpacket).elim (h.uplink packet)
    fun hnew => ⟨(hall packet hnew).1, fun k hk => absurd hk ((hall packet hnew).2 k)⟩

theorem Inv.ingest (h : Inv cfe hms s) (hcfe : cfe.Documented) (he : ingest cfe s = some s') :
    Inv cfe hms s' := by
  obtain ⟨packet, rest, huplink, rfl⟩ := ingest_eq_some_iff.mp he
  have hpacket := h.uplink packet (by simp [huplink])
  refine { h with uplink := ?_, pipe := ?_ }
  · intro other hother
    exact h.uplink other (by simp [huplink, hother])
  · intro k message hmessage
    dsimp only at hmessage
    split_ifs at hmessage with hmid
    · rw [hcfe.getMsgId_eq hpacket.length] at hmid
      rcases mem_of_mem_push hmessage with hold | rfl
      · exact h.pipe k message hold
      · exact hpacket.fromSensor k hmid
    · exact h.pipe k message hmessage

theorem Inv.takeTurn (h : Inv cfe hms s) (hcfe : cfe.Documented) {k : Source} {turn : Turn}
    (he : takeTurn cfe k turn s = some s') : Inv cfe hms s' := by
  obtain ⟨done, hsound, hdone⟩ := h.task k
  cases turn_cases h hcfe he with
  | @react rest data hpipe hfrom houtgoing hread hreact =>
    refine { h with pipe := ?_, task := ?_, downlink := ?_ }
    · intro j other hother
      by_cases hj : j = k
      · subst hj
        simp only [Function.update_self] at hother
        exact h.pipe j other (by simp [hpipe, hother])
      · simp only [Function.update_of_ne hj] at hother
        exact h.pipe j other hother
    · intro j
      by_cases hj : j = k
      · subst hj
        refine ⟨done ++ [turn.buffer], by simpa using hreact done hsound, ?_⟩
        intro buffer hbuffer
        rcases List.mem_append.mp hbuffer with hold | hnew
        · exact hdone buffer hold
        · rwa [List.mem_singleton.mp hnew]
      · simpa [hj] using h.task j
    · intro other hother
      rcases List.mem_append.mp hother with hold | hnew
      · exact h.downlink other hold
      · rw [List.mem_singleton.mp hnew]
        intro j reading hj
        rw [hread j] at hj
        split_ifs at hj with heq
        subst heq
        cases hj
        exact grades_healthOf j.thresholds _
  | idle houtgoing hkeeps =>
    refine { h with task := ?_ }
    intro j
    by_cases hj : j = k
    · subst hj
      exact ⟨done, by simpa using hkeeps done hsound, hdone⟩
    · simpa [hj] using h.task j

theorem run_concat (hms : Timestamp → String) (log : List Op) (op : Op) :
    TelemetryProcessor.run hms 200 (log ++ [op]) =
      TelemetryProcessor.step hms (TelemetryProcessor.run hms 200 log) op := by
  rw [TelemetryProcessor.run, List.foldl_append]
  rfl

theorem Inv.arrive (h : Inv cfe hms s) {now : Timestamp} (he : arrive hms now s = some s') :
    Inv cfe hms s' := by
  obtain ⟨data, rest, hdown, rfl⟩ := arrive_eq_some_iff.mp he
  have hgraded := h.downlink data (by simp [hdown])
  have hrest : ∀ other ∈ rest, Graded other := fun other hother =>
    h.downlink other (by simp [hdown, hother])
  by_cases hlen : 6 ≤ data.length
  · refine { h with downlink := hrest, log := ?_, world := ?_ }
    · intro op hop k point hpoint
      rw [dif_pos hlen] at hop
      rcases List.mem_append.mp hop with hold | hnew
      · exact h.log op hold k point hpoint
      · rw [List.mem_singleton.mp hnew, Source.point_packet] at hpoint
        obtain ⟨reading, hreading, rfl⟩ := Option.map_eq_some_iff.mp hpoint
        exact ⟨hgraded k reading hreading, rfl⟩
    · rw [dif_pos hlen, run_concat, ← h.world, Receiver.handle_eq _ now hlen]
      rfl
  · refine { h with downlink := hrest, log := ?_, world := ?_ }
    · simpa [hlen] using h.log
    · rw [dif_neg hlen, List.append_nil, ← h.world, Receiver.handle_short _ now (by omega)]

/-- What the operator does with the processor adds no reading. -/
theorem Inv.operate (h : Inv cfe hms s) (op : Op) (f : TelemetryProcessor → TelemetryProcessor)
    (hop : ∀ k : Source, k.point op = none)
    (hf : ∀ p, TelemetryProcessor.step hms p op = f p) : Inv cfe hms (operate op f s) where
  value := h.value
  transmitted := h.transmitted
  uplink := h.uplink
  pipe := h.pipe
  task := h.task
  downlink := h.downlink
  log op' hop' k point hpoint := by
    rcases List.mem_append.mp hop' with hold | hnew
    · exact h.log op' hold k point hpoint
    · rw [List.mem_singleton.mp hnew, hop k] at hpoint
      cases hpoint
  world := by
    change f s.receiver.world = TelemetryProcessor.run hms 200 (s.log ++ [op])
    rw [run_concat, hf, h.world]

theorem Inv.disturb (h : Inv cfe hms s) (f : Fault) (link : Link) :
    Inv cfe hms (disturb f s link) := by
  cases link with
  | uplink =>
    refine { h with uplink := ?_ }
    exact fun packet hpacket => h.uplink packet (f.apply_subset _ hpacket)
  | pipe k =>
    refine { h with pipe := ?_ }
    intro j message hmessage
    dsimp only [Mission.disturb] at hmessage
    by_cases hj : j = k
    · subst hj
      rw [Function.update_self] at hmessage
      exact h.pipe j message (f.apply_subset _ hmessage)
    · rw [Function.update_of_ne hj] at hmessage
      exact h.pipe j message hmessage
  | downlink =>
    refine { h with downlink := ?_ }
    exact fun data hdata => h.downlink data (f.apply_subset _ hdata)

theorem inv_step (hcfe : cfe.Documented) (s : System) (e : Event) (s' : System)
    (h : Inv cfe hms s) (he : step cfe hms s e = some s') : Inv cfe hms s' := by
  cases e with
  | sense k turn =>
    cases he
    exact h.sense k turn
  | command c sendto =>
    cases he
    exact h.command c sendto
  | ingest => exact h.ingest hcfe he
  | turn k turn => exact h.takeTurn hcfe he
  | other data =>
    simp only [step] at he
    split_ifs at he with hother
    cases he
    refine { h with downlink := ?_ }
    intro data' hdata'
    rcases List.mem_append.mp hdata' with hold | hnew
    · exact h.downlink data' hold
    · rw [List.mem_singleton.mp hnew]
      intro k reading hreading
      rw [Source.read_of_streamWord_ne hother.1 hother.2] at hreading
      cases hreading
  | arrive now => exact h.arrive he
  | update button now =>
    cases he
    exact h.operate _ _ (fun k => by cases k <;> rfl) fun _ => rfl
  | clear =>
    cases he
    have hclear := h.operate .clear TelemetryProcessor.clearLogs
      (fun k => by cases k <;> rfl) fun _ => rfl
    exact { hclear with world := hclear.world }
  | fault link f =>
    cases he
    exact h.disturb f link

/-- The invariant holds after every run. -/
theorem inv_run (hcfe : cfe.Documented) (hms : Timestamp → String) (boot : Source → Script)
    {es : List Event} (hrun : run (step cfe hms) (start cfe boot) es = some s) :
    Inv cfe hms s :=
  run_invariant (fun _ s => Inv cfe hms s) (inv_start hcfe hms boot)
    (fun _ s e s' => inv_step hcfe s e s') hrun

/-! ### What an event adds -/

/-- An operation that an event adds to the log: a clear, an update of one of the
buttons, or the packet that arrives. -/
theorem mem_log_step {e : Event} (he : step cfe hms s e = some s') {op : Op}
    (hop : op ∈ s'.log) : op ∈ s.log ∨ op = .clear ∨
      (∃ (button : Operators.Button) (now : Timestamp), op = .update button.status now) ∨
      ∃ now datagram, op = .packet now datagram ∧ datagram.val ∈ s.downlink := by
  cases e with
  | sense k turn =>
    cases he
    exact .inl hop
  | command c sendto =>
    cases he
    exact .inl hop
  | ingest =>
    obtain ⟨_, _, _, rfl⟩ := ingest_eq_some_iff.mp he
    exact .inl hop
  | turn k turn => rcases takeTurn_cases he with ⟨_, _, _, _, _, rfl⟩ | ⟨_, rfl⟩ <;> exact .inl hop
  | other data =>
    simp only [step] at he
    split_ifs at he
    cases he
    exact .inl hop
  | arrive now =>
    obtain ⟨data, rest, hdown, rfl⟩ := arrive_eq_some_iff.mp he
    rcases List.mem_append.mp hop with hold | hnew
    · exact .inl hold
    · split_ifs at hnew with hlen
      · exact .inr (.inr (.inr ⟨now, ⟨data, hlen⟩, List.mem_singleton.mp hnew, by simp [hdown]⟩))
      · cases hnew
  | update button now =>
    cases he
    rcases List.mem_append.mp hop with hold | hnew
    · exact .inl hold
    · exact .inr (.inr (.inl ⟨button, now, List.mem_singleton.mp hnew⟩))
  | clear =>
    cases he
    rcases List.mem_append.mp hop with hold | hnew
    · exact .inl hold
    · exact .inr (.inl (List.mem_singleton.mp hnew))
  | fault link f =>
    cases he
    cases link <;> exact .inl hop

/-- A datagram that an event sends down: telemetry of a monitor, or other telemetry. -/
theorem mem_downlink_step (hcfe : cfe.Documented) (h : Inv cfe hms s) {e : Event}
    (he : step cfe hms s e = some s') {data : Bytes} (hdata : data ∈ s'.downlink) :
    data ∈ s.downlink ∨ (∃ (k : Source) (reading : Binary32 × ℕ), k.read data = some reading) ∨
      e = .other data := by
  cases e with
  | sense k turn =>
    cases he
    exact .inl hdata
  | command c sendto =>
    cases he
    exact .inl hdata
  | ingest =>
    obtain ⟨_, _, _, rfl⟩ := ingest_eq_some_iff.mp he
    exact .inl hdata
  | turn k turn =>
    cases turn_cases h hcfe he with
    | @react rest sent hpipe hfrom houtgoing hread hreact =>
      rcases List.mem_append.mp hdata with hold | hnew
      · exact .inl hold
      · rw [List.mem_singleton.mp hnew]
        exact .inr (.inl ⟨k, _, (hread k).trans (if_pos rfl)⟩)
    | idle houtgoing hkeeps => exact .inl hdata
  | other sent =>
    simp only [step] at he
    split_ifs at he
    cases he
    rcases List.mem_append.mp hdata with hold | hnew
    · exact .inl hold
    · rw [List.mem_singleton.mp hnew]
      exact .inr (.inr rfl)
  | arrive now =>
    obtain ⟨_, _, hdown, rfl⟩ := arrive_eq_some_iff.mp he
    exact .inl (hdown ▸ List.mem_cons_of_mem _ hdata)
  | update button now =>
    cases he
    exact .inl hdata
  | clear =>
    cases he
    exact .inl hdata
  | fault link f =>
    cases he
    cases link with
    | downlink => exact .inl (f.apply_subset _ hdata)
    | uplink => exact .inl hdata
    | pipe k => exact .inl hdata

end Invariant

/-! ### What an event does to the readings of a source -/

/-- What a discipline has to tolerate for an event: the fault of a link, and the
loss of a message that finds its pipe full. -/
def Allowed (D : Discipline) (cfe : Services) (s : System) : Event → Prop
  | .fault _ f => D.Tolerates f
  | .ingest => ∀ packet rest (k : Source), s.uplink = packet :: rest →
      cfe.getMsgId packet = k.monitor.cmdMid → k.monitor.pipeDepth ≤ (s.pipe k).length →
        D.Tolerates (.drop (s.pipe k).length)
  | _ => True

/-- The event takes the readings `new` in at the sensor, and the monitor handles
the readings `taken`. -/
structure Moves (D : Discipline) (cfe : Services) (k : Source) (new taken : List Binary32)
    (s s' : System) : Prop where
  sent : s'.sent k = s.sent k ++ new
  ascending : D.Rel (taken ++ s'.ascending k) (s.ascending k ++ new)
  flown : s'.flown k cfe = s.flown k cfe ++ taken
  descending : D.Rel (s'.descending k) (s.descending k ++ taken)

section Flow
variable {D : Discipline} {cfe : Services} {hms : Timestamp → String} {s s' : System}

/-- Nothing is sent or handled, but links may have had faults. -/
theorem Moves.still {k : Source} (hsent : s'.sent k = s.sent k)
    (hascending : D.Rel (s'.ascending k) (s.ascending k)) (hflown : s'.flown k cfe = s.flown k cfe)
    (hdescending : D.Rel (s'.descending k) (s.descending k)) : Moves D cfe k [] [] s s' where
  sent := by rw [hsent, List.append_nil]
  ascending := by rwa [List.nil_append, List.append_nil]
  flown := by rw [hflown, List.append_nil]
  descending := by rwa [List.append_nil]

theorem moves_sense (h : Inv cfe hms s) (k : Source) (turn : SensorTurn) (j : Source) :
    ∃ new, Moves D cfe j new [] s (sense k turn s) := by
  obtain ⟨packets, hall, htransmitted, heq⟩ := sense_eq k turn (h.value k)
  rw [heq]
  refine ⟨packets.flatMap j.commanded, ?_, ?_, (List.append_nil _).symm, ?_⟩
  · rw [Source.flatMap_commanded hall]
    by_cases hj : j = k
    · subst hj
      simp [System.sent, htransmitted]
    · simp [System.sent, hj]
  · rw [List.nil_append]
    refine Discipline.of_eq ?_
    simp only [System.ascending, List.flatMap_append, List.append_assoc]
  · rw [List.append_nil]
    exact D.refl _

theorem moves_command (c : GroundCommand) (sendto : Except PyException ℕ) (j : Source) :
    Moves D cfe j [] [] s (command c sendto s) := by
  obtain ⟨packets, dispatcher, hall, heq⟩ := command_eq (s := s) c sendto
  have hnone : packets.flatMap j.commanded = [] :=
    List.flatMap_eq_nil_iff.mpr fun packet hpacket =>
      Source.commanded_of_mid_ne ((hall packet hpacket).2 j)
  rw [heq]
  refine .still rfl (Discipline.of_eq ?_) rfl (D.refl _)
  simp only [System.ascending, List.flatMap_append, hnone, List.append_nil]

/-- A message that finds its pipe full is lost. -/
theorem moves_ingest (h : Inv cfe hms s) (hcfe : cfe.Documented)
    (hallowed : Allowed D cfe s .ingest) (he : ingest cfe s = some s') (j : Source) :
    Moves D cfe j [] [] s s' := by
  obtain ⟨packet, rest, huplink, rfl⟩ := ingest_eq_some_iff.mp he
  have hpacket := h.uplink packet (by simp [huplink])
  have hid := hcfe.getMsgId_eq hpacket.length
  refine .still rfl ?_ rfl (D.refl _)
  simp only [System.ascending, huplink, List.flatMap_cons]
  split_ifs with hmid
  · have hroom := hallowed packet rest j huplink hmid
    rw [← List.append_assoc]
    refine Discipline.append_right ?_ _
    have hpush := D.flatMap j.commanded (push_rel (D := D) hroom packet)
    rwa [List.flatMap_append, List.flatMap_singleton] at hpush
  · rw [hid] at hmid
    rw [Source.commanded_of_mid_ne hmid, List.nil_append]
    exact D.refl _

theorem moves_takeTurn (h : Inv cfe hms s) (hcfe : cfe.Documented) {k : Source} {turn : Turn}
    (he : takeTurn cfe k turn s = some s') (j : Source) :
    ∃ taken, Moves D cfe j [] taken s s' := by
  cases turn_cases h hcfe he with
  | @react rest data hpipe hfrom houtgoing hread hreact =>
    by_cases hj : j = k
    · subst hj
      have hreported : j.reported data = [readingOf turn.buffer.message] := by
        rw [Source.reported, hread, if_pos rfl]
        rfl
      refine ⟨[readingOf turn.buffer.message], (List.append_nil _).symm, ?_, ?_, ?_⟩
      · refine Discipline.of_eq ?_
        simp [System.ascending, hpipe, Source.commanded_self hfrom.sendData]
      · simp only [System.flown, Function.update_self]
        rw [houtgoing, List.flatMap_append, List.flatMap_singleton, hreported]
      · refine Discipline.of_eq ?_
        simp [System.descending, hreported]
    · have hreported : j.reported data = [] := by
        rw [Source.reported, hread, if_neg hj]
        rfl
      refine ⟨[], .still rfl ?_ ?_ ?_⟩
      · refine Discipline.of_eq ?_
        simp [System.ascending, hj]
      · simp [System.flown, hj]
      · refine Discipline.of_eq ?_
        simp [System.descending, hreported]
  | idle houtgoing hkeeps =>
    refine ⟨[], .still rfl (D.refl _) ?_ (D.refl _)⟩
    by_cases hj : j = k
    · subst hj
      simp [System.flown, houtgoing]
    · simp [System.flown, hj]

theorem moves_arrive {now : Timestamp} (he : arrive hms now s = some s') (j : Source) :
    Moves D cfe j [] [] s s' := by
  obtain ⟨data, rest, hdown, rfl⟩ := arrive_eq_some_iff.mp he
  refine .still rfl (D.refl _) rfl (Discipline.of_eq ?_)
  simp only [System.descending, hdown, List.flatMap_cons]
  by_cases hlen : 6 ≤ data.length
  · rw [dif_pos hlen, Source.shown_packet, List.append_assoc]
  · rw [dif_neg hlen, List.append_nil, Source.reported, j.read_short (by omega)]
    rfl

theorem moves_operate (op : Op) (f : TelemetryProcessor → TelemetryProcessor)
    (hop : ∀ k : Source, k.point op = none) (j : Source) :
    Moves D cfe j [] [] s (operate op f s) := by
  refine .still rfl (D.refl _) rfl (Discipline.of_eq ?_)
  simp [System.descending, operate, Source.shown_concat, hop]

theorem moves_disturb {f : Fault} (hf : D.Tolerates f) (link : Link) (j : Source) :
    Moves D cfe j [] [] s (disturb f s link) := by
  cases link with
  | uplink =>
    refine .still rfl (Discipline.append_left _ ?_) rfl (D.refl _)
    exact hf.flatMap j.commanded s.uplink
  | pipe k =>
    refine .still rfl (Discipline.append_right ?_ _) rfl (D.refl _)
    by_cases hj : j = k
    · subst hj
      simpa [disturb] using hf.flatMap j.commanded (s.pipe j)
    · simpa [disturb, hj] using D.refl ((s.pipe j).flatMap j.commanded)
  | downlink =>
    refine .still rfl (D.refl _) rfl (Discipline.append_left _ ?_)
    exact hf.flatMap j.reported s.downlink

/-- Every event that the discipline allows moves the readings of each source. -/
theorem moves_step (hcfe : cfe.Documented) (h : Inv cfe hms s) {e : Event}
    (hallowed : Allowed D cfe s e) (he : step cfe hms s e = some s') (j : Source) :
    ∃ new taken, Moves D cfe j new taken s s' := by
  cases e with
  | sense k turn =>
    cases he
    obtain ⟨new, hmoves⟩ := moves_sense (D := D) h k turn j
    exact ⟨new, [], hmoves⟩
  | command c sendto =>
    cases he
    exact ⟨[], [], moves_command c sendto j⟩
  | ingest => exact ⟨[], [], moves_ingest h hcfe hallowed he j⟩
  | turn k turn =>
    obtain ⟨taken, hmoves⟩ := moves_takeTurn (D := D) h hcfe he j
    exact ⟨[], taken, hmoves⟩
  | other data =>
    simp only [step] at he
    split_ifs at he with hother
    cases he
    refine ⟨[], [], .still rfl (D.refl _) rfl (Discipline.of_eq ?_)⟩
    simp [System.descending, Source.reported, Source.read_of_streamWord_ne hother.1 hother.2]
  | arrive now => exact ⟨[], [], moves_arrive he j⟩
  | update button now =>
    cases he
    exact ⟨[], [], moves_operate _ _ (fun k => by cases k <;> rfl) j⟩
  | clear =>
    cases he
    have hmoves : Moves D cfe j [] [] s (operate .clear TelemetryProcessor.clearLogs s) :=
      moves_operate _ _ (fun k => by cases k <;> rfl) j
    exact ⟨[], [], hmoves.sent, hmoves.ascending, hmoves.flown, hmoves.descending⟩
  | fault link f =>
    cases he
    exact ⟨[], [], moves_disturb hallowed link j⟩

/-! ### Whole runs -/

/-- The path up to a monitor and the path to the display both conserve. -/
theorem conserved (hcfe : cfe.Documented) (hms : Timestamp → String) (boot : Source → Script)
    {es : List Event} (hrun : run (step cfe hms) (start cfe boot) es = some s)
    (hallowed : Meets (step cfe hms) (start cfe boot) (fun _ s e => Allowed D cfe s e) es)
    (k : Source) :
    D.Rel (s.flown k cfe ++ s.ascending k) (s.sent k) ∧
      D.Rel (s.descending k) (s.flown k cfe) := by
  have hzero : (start cfe boot).flown k cfe = [] := by
    have hreports := outgoing_reacted hcfe (sound_startUp hcfe k (boot k)).reacted
    exact (flatMap_reported hreports k).trans (by simp)
  constructor
  · refine conserved_run (fun s => s.flown k cfe ++ s.ascending k) (fun s => s.sent k)
      (Inv cfe hms) (inv_start hcfe hms boot) ?_
      (fun s e s' => inv_step hcfe s e s') ?_ hallowed hrun
    · rw [hzero]
      exact D.refl _
    · intro s e s' h hcond he
      obtain ⟨new, taken, hmoves⟩ := moves_step hcfe h hcond he k
      refine ⟨new, hmoves.sent, ?_⟩
      dsimp only
      rw [hmoves.flown, List.append_assoc, List.append_assoc]
      exact Discipline.append_left _ hmoves.ascending
  · refine conserved_run (fun s => s.descending k) (fun s => s.flown k cfe) (Inv cfe hms)
      (inv_start hcfe hms boot) ?_
      (fun s e s' => inv_step hcfe s e s') ?_ hallowed hrun
    · rw [hzero]
      exact D.refl _
    · intro s e s' h hcond he
      obtain ⟨new, taken, hmoves⟩ := moves_step hcfe h hcond he k
      exact ⟨taken, hmoves.flown, hmoves.descending⟩

end Flow

end CfsBridge.Mission
