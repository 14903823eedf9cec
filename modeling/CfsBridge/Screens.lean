import CfsBridge.Dashboard

/-!
# What the screens show

Whatever the order of the steps, the services are determined by what was
received, processed and cleared, and a session's screen shows them as they were
at nested moments of the run. Between the viewer and the raw log there is one
difference: a packet that comes in during a clear may be left in the raw log
without an entry in the viewer, and never the other way round.
-/
namespace CfsBridge.Dashboard
open TelemetryReceiver Processor Transitions TypeFilter Runs

variable {σ : Type} {hms : Timestamp → String}

/-! ### The services after a run -/

/-- The services as the events determine them. -/
structure Kept (hms : Timestamp → String) (es : List (Event σ)) (s : Services) : Prop where
  packetsReceived : s.packetsReceived = (received es).length
  maxlen : s.buffer.maxlen = 500
  buffer : s.buffer.items = (buffered es).rtake 500
  processor : s.world = TelemetryProcessor.run hms 200 (ops es)

theorem kept_init (hms : Timestamp → String) :
    Kept hms ([] : List (Event σ)) (.init 500 (.init 200)) where
  packetsReceived := rfl
  maxlen := rfl
  buffer := (List.rtake_nil 500).symm
  processor := rfl

theorem run_ops_concat (es : List (Event σ)) (e : Event σ) :
    TelemetryProcessor.run hms 200 (ops (es ++ [e])) =
      e.op.elim (TelemetryProcessor.run hms 200 (ops es))
        (TelemetryProcessor.step hms (TelemetryProcessor.run hms 200 (ops es))) := by
  rw [ops_concat, TelemetryProcessor.run, List.foldl_append]
  cases e.op <;> rfl

theorem Action.write_world (action : Action) (c : σ) (now : Timestamp) (s : Services) :
    (action.write hms now s).world =
      (Event.act c action now).op.elim s.world (TelemetryProcessor.step hms s.world) := by
  cases action <;> rfl

theorem Action.write_packetsReceived (action : Action) (now : Timestamp) (s : Services) :
    (action.write hms now s).packetsReceived = s.packetsReceived := by
  cases action <;> rfl

theorem Action.write_buffer (action : Action) (c : σ) (now : Timestamp) (s : Services) :
    (action.write hms now s).buffer =
      if (Event.act c action now).clearsBuffer then s.buffer.clear else s.buffer := by
  cases action <;> rfl

variable {es : List (Event σ)} {e : Event σ} {s s' : Station σ}

/-- Every event keeps the services what the events make of them. -/
theorem Kept.step [DecidableEq σ] (h : Kept hms es s.services) (hstep : s.step hms e = some s') :
    Kept hms (es ++ [e]) s'.services := by
  have hworld := h.processor
  cases Station.step_cases hstep with
  | @receive now datagram hidle =>
    constructor
    · simp [enqueue, h.packetsReceived, received_concat, Event.entry]
    · exact h.maxlen
    · rw [buffered_concat, enqueue, RingBuffer.append_items, h.maxlen, h.buffer,
        RingBuffer.rtake_rtake_append]
      rfl
    · rw [run_ops_concat]
      exact hworld
  | @callback now datagram hhandling =>
    rw [Receiver.invokeAll_eq]
    constructor
    · simp [h.packetsReceived, received_concat, Event.entry]
    · exact h.maxlen
    · simpa [buffered_concat, Event.clearsBuffer, Event.entry] using h.buffer
    · rw [run_ops_concat, ← hworld]
      rfl
  | rerun hclearing =>
    constructor
    · simp [h.packetsReceived, received_concat, Event.entry]
    · exact h.maxlen
    · simpa [buffered_concat, Event.clearsBuffer, Event.entry] using h.buffer
    · rw [run_ops_concat]
      exact hworld
  | @act c action now rest htodo =>
    have hbuffer : (action.write hms now s.services).buffer = _ :=
      action.write_buffer c now s.services
    constructor
    · rw [action.write_packetsReceived, h.packetsReceived, received_concat]
      simp [Event.entry]
    · rw [hbuffer]
      split_ifs
      · exact h.maxlen
      · exact h.maxlen
    · rw [hbuffer, buffered_concat]
      split_ifs
      · rfl
      · simpa [Event.entry] using h.buffer
    · rw [action.write_world c, run_ops_concat, hworld]

theorem kept_run [DecidableEq σ] (hrun : run (Station.step hms) .init es = some s) :
    Kept hms es s.services :=
  run_invariant (fun es s => Kept hms es s.services) (kept_init hms)
    (fun _ _ _ _ h hstep => h.step hstep) hrun

/-- A query for fewer entries than the buffer keeps. -/
theorem newest_rtake {α : Type} (count kept : ℕ) (hpos : 0 < count) (hle : count ≤ kept)
    (items : List α) : Python.sliceFrom (-count) (items.rtake kept) = items.rtake count := by
  rw [Python.sliceFrom_neg, if_neg (by omega), RecentEntries.rtake_rtake, min_eq_left hle]

theorem itemsAll_eq (s : Services) : itemsAll s = (s.buffer.items.rtake 200).reverse := by
  have hrecent := Python.sliceFrom_neg 200 s.buffer.items
  have hall := newest_rtake 200 200 (by decide) (le_refl _) s.buffer.items
  rw [if_neg (by decide), Nat.cast_ofNat] at hrecent
  rw [Nat.cast_ofNat] at hall
  rw [itemsAll, Receiver.getRecent, hrecent, hall]

theorem run_status (hms : Timestamp → String) (ops : List Processor.Op) :
    (TelemetryProcessor.run hms 200 ops).solarArrayStatus = ops.foldl Op.status "Unknown" := by
  rw [TelemetryProcessor.run]
  exact (List.foldl_hom TelemetryProcessor.solarArrayStatus
    fun p op => (TelemetryProcessor.step_solarArrayStatus p op).symm).symm

/-- What an access reads is determined by the events up to it. -/
theorem Kept.read (h : Kept hms es s.services) (action : Action) :
    action.read s.services = displays hms es action := by
  obtain ⟨_, hradiation, hthermal, hraw, hevents, hlastRadiation, hlastThermal, _, _⟩ :=
    run_histories hms 200 (ops es)
  have hstatus := run_status hms (ops es)
  rw [← h.processor] at hradiation hthermal hraw hevents hlastRadiation hlastThermal hstatus
  cases action with
  | packetsReceived => rw [Action.read, displays, h.packetsReceived]
  | lastRadiation => rw [Action.read, displays, hlastRadiation]
  | lastThermal => rw [Action.read, displays, hlastThermal]
  | solarArrayStatus => rw [Action.read, displays, hstatus]
  | radiationSeries =>
    rw [Action.read, displays, TelemetryProcessor.getRadiationSeries, hradiation]
    rfl
  | thermalSeries =>
    rw [Action.read, displays, TelemetryProcessor.getThermalSeries, hthermal]
    rfl
  | events =>
    have hnewest := newest_rtake 100 500 (by decide) (by decide) ((recentOps es).filterMap
      (Op.eventLine hms))
    rw [Action.read, displays, TelemetryProcessor.getEvents, hevents, ← hnewest]
    rfl
  | rawLog =>
    have hnewest := newest_rtake 100 200 (by decide) (by decide) (rawLines hms es)
    rw [Action.read, displays, TelemetryProcessor.getRawLog, hraw, ← hnewest]
    rfl
  | recent =>
    rw [Action.read, displays, itemsAll_eq, h.buffer, RecentEntries.rtake_rtake]
    rfl
  | update button => rfl
  | clearLogs => rfl
  | clearBuffer => rfl

/-! ### Screens -/

/-- A screen whose panels are what the script read, each at the moment of its
own access. `begun` are the events up to the rerun, and `done` pairs each access
made since with the events before it. -/
structure Shows (hms : Timestamp → String) (begun es : List (Event σ)) (pressed : Pressed) (c : σ)
    (session : Session) (done : List (Action × List (Event σ))) : Prop where
  script : done.map Prod.fst ++ session.todo = script pressed
  screen : session.screen = done.filterMap fun access => displays hms access.2 access.1
  begun : ∀ access ∈ done, begun <+: access.2
  acted : ∀ access ∈ done, ∃ now, access.2 ++ [.act c access.1 now] <+: es
  ordered : (done.map Prod.snd).Pairwise (· <+: ·)

section Shows
variable {begun : List (Event σ)} {pressed : Pressed} {c : σ} {session : Session}
variable {done : List (Action × List (Event σ))}

theorem Shows.mono (h : Shows hms begun es pressed c session done) (e : Event σ) :
    Shows hms begun (es ++ [e]) pressed c session done := by
  refine { h with acted := ?_ }
  intro access haccess
  obtain ⟨now, hacted⟩ := h.acted access haccess
  exact ⟨now, hacted.trans (List.prefix_append es [e])⟩

theorem Shows.before (h : Shows hms begun es pressed c session done)
    {access : Action × List (Event σ)} (haccess : access ∈ done) : access.2 <+: es := by
  obtain ⟨now, hacted⟩ := h.acted access haccess
  exact (List.prefix_append _ _).trans hacted

/-- The next access shows the services as they are. -/
theorem Shows.act {action : Action} {rest : List Action} {screen : List Panel}
    (h : Shows hms begun es pressed c ⟨action :: rest, screen⟩ done) (hbegun : begun <+: es)
    (now : Timestamp) :
    Shows hms begun (es ++ [.act c action now]) pressed c
      ⟨rest, screen ++ (displays hms es action).toList⟩ (done ++ [(action, es)]) where
  script := by
    rw [← h.script]
    simp
  screen := by
    have hscreen : screen = _ := h.screen
    rw [hscreen, List.filterMap_append]
    cases hpanel : displays hms es action <;> simp [hpanel]
  begun access haccess := by
    rcases List.mem_append.mp haccess with hold | hnew
    · exact h.begun access hold
    · rw [List.mem_singleton.mp hnew]
      exact hbegun
  acted access haccess := by
    rcases List.mem_append.mp haccess with hold | hnew
    · exact (h.mono _).acted access hold
    · rw [List.mem_singleton.mp hnew]
      exact ⟨now, List.prefix_refl _⟩
  ordered := by
    rw [List.map_append, List.pairwise_append]
    refine ⟨h.ordered, List.pairwise_singleton _ _, ?_⟩
    intro earlier hearlier moment hmoment
    obtain ⟨access, haccess, rfl⟩ := List.mem_map.mp hearlier
    rw [List.mem_singleton.mp hmoment]
    exact h.before haccess

end Shows

/-- From its latest rerun on, a session's screen shows what its script has read
so far, panel after panel at nested moments, whatever the receiver thread and
the other sessions did in between. -/
theorem screens_show_moments [DecidableEq σ] (begun rest : List (Event σ)) (c : σ) (pressed : Pressed)
    (hrun : run (Station.step hms) .init (begun ++ .rerun c pressed :: rest) = some s)
    (hlatest : ∀ e ∈ rest, e.reruns c = false) :
    ∃ done, Shows hms (begun ++ [.rerun c pressed]) (begun ++ .rerun c pressed :: rest) pressed c
      (s.session c) done := by
  induction rest using List.reverseRecOn generalizing s with
  | nil =>
    obtain ⟨s₀, _, hstep⟩ := run_concat_eq_some.mp hrun
    cases Station.step_cases hstep with
    | rerun hclearing =>
      refine ⟨[], ?_⟩
      simp only [Function.update_self]
      constructor <;> simp
  | append_singleton rest e ih =>
    rw [← List.cons_append, ← List.append_assoc] at hrun ⊢
    obtain ⟨s₀, hbefore, hstep⟩ := run_concat_eq_some.mp hrun
    obtain ⟨done, hshows⟩ := ih hbefore fun e he => hlatest e (by simp [he])
    have hkept := kept_run hbefore
    have hbegun : begun ++ [.rerun c pressed] <+: begun ++ .rerun c pressed :: rest := by
      simp
    cases Station.step_cases hstep with
    | receive hidle => exact ⟨done, hshows.mono _⟩
    | callback hhandling => exact ⟨done, hshows.mono _⟩
    | @rerun c' pressed' hclearing =>
      have hne : c ≠ c' := by
        have hother := hlatest (.rerun c' pressed') (by simp)
        simpa [Event.reruns, eq_comm] using hother
      refine ⟨done, ?_⟩
      simp only [Function.update_of_ne hne]
      exact hshows.mono _
    | @act c' action now rest' htodo =>
      by_cases hsame : c' = c
      · subst hsame
        refine ⟨done ++ [(action, begun ++ .rerun c' pressed :: rest)], ?_⟩
        simp only [Function.update_self, hkept.read]
        apply Shows.act _ hbegun now
        rwa [← htodo]
      · refine ⟨done, ?_⟩
        simp only [Function.update_of_ne (Ne.symm hsame)]
        exact hshows.mono _

/-- A critical packet comes in between the status bar and the charts. -/
def lateArrival : List (Event Bool) :=
  [.act true .packetsReceived 0, .act true .lastRadiation 0, .act true .lastThermal 0,
    .act true .solarArrayStatus 0, .receive 0 Operators.Console.criticalRadiation,
    .rerun false ⟨false, false, false⟩, .callback 0 Operators.Console.criticalRadiation,
    .act true .radiationSeries 0]

theorem screens_show_moments_late : ∃ s done,
    run (Station.step fun _ => "00:00:00") .init (.rerun true ⟨false, false, true⟩ :: lateArrival) =
      some s ∧
    Shows (fun _ => "00:00:00") [.rerun true ⟨false, false, true⟩]
      (.rerun true ⟨false, false, true⟩ :: lateArrival) ⟨false, false, true⟩ true (s.session true)
      done := by
  have hends : (run (Station.step fun _ => "00:00:00") .init
      (.rerun true ⟨false, false, true⟩ :: lateArrival)).isSome = true := by
    decide +kernel
  obtain ⟨s, hrun⟩ := Option.isSome_iff_exists.mp hends
  obtain ⟨done, hshows⟩ := screens_show_moments [] lateArrival true ⟨false, false, true⟩ hrun
    (by decide)
  exact ⟨s, done, hrun, hshows⟩

/-! ### The viewer and the raw log -/

section Logs

/-- No session is between the two steps of a clear. -/
def Settled (s : Station σ) : Prop := ∀ c, (s.session c).clearing = false

/-- The raw line of the entry that is buffered and not yet processed. -/
def awaited (hms : Timestamp → String) (s : Station σ) : List String :=
  s.handling.toList.map fun d => TelemetryProcessor.rawLine hms (entryOf d.1 d.2)

/-- The raw lines of the entries in the viewer, oldest first. -/
def viewerLines (hms : Timestamp → String) (s : Station σ) : List String :=
  ((itemsAll s.services).map (TelemetryProcessor.rawLine hms)).reverse

/-- A clear that the receiver thread does not get into. -/
def Undisturbed (_ : List (Event σ)) (s : Station σ) : Event σ → Prop
  | .receive _ _ => Settled s
  | .act _ .clearLogs _ => s.handling = none
  | _ => True

/-- Every session is at some place of the script. -/
def Placed (s : Station σ) : Prop := ∀ c, ∃ pressed, (s.session c).todo <:+ script pressed

theorem clearBuffer_of_clearLogs {pressed : Pressed} {rest : List Action}
    (h : .clearLogs :: rest <:+ script pressed) : rest = [.clearBuffer, .recent] := by
  obtain ⟨opened, closed, clearLogs⟩ := pressed
  cases opened <;> cases closed <;> cases clearLogs <;>
    simp_all [script, List.suffix_cons_iff]

theorem clearLogs_of_clearBuffer {pressed : Pressed} {action : Action} {rest : List Action}
    (h : action :: .clearBuffer :: rest <:+ script pressed) : action = .clearLogs := by
  obtain ⟨opened, closed, clearLogs⟩ := pressed
  cases opened <;> cases closed <;> cases clearLogs <;>
    simp_all [script, List.suffix_cons_iff]

/-- Unless a clear is in progress, what is buffered is also in the raw log or
about to be. -/
structure Backed (hms : Timestamp → String) (es : List (Event σ)) (s : Station σ) : Prop where
  placed : Placed s
  backed : Settled s → (buffered es).map (TelemetryProcessor.rawLine hms) <:+
    rawLines hms es ++ awaited hms s

theorem placed_init : Placed (Station.init : Station σ) :=
  fun _ => ⟨⟨false, false, false⟩, List.nil_suffix⟩

theorem backed_init : Backed hms [] (Station.init : Station σ) where
  placed := placed_init
  backed _ := List.suffix_refl _

/-- When no clear is disturbed, as many lines are written as entries are buffered. -/
structure Level (hms : Timestamp → String) (es : List (Event σ)) (s : Station σ) : Prop where
  placed : Placed s
  level : Settled s →
    (rawLines hms es).length + (awaited hms s).length = (buffered es).length
  cleared : ¬ Settled s → s.handling = none ∧ rawLines hms es = []

theorem level_init : Level hms [] (Station.init : Station σ) where
  placed := placed_init
  level _ := rfl
  cleared _ := ⟨rfl, rfl⟩

variable [DecidableEq σ]

theorem Placed.step (h : Placed s) (hstep : s.step hms e = some s') : Placed s' := by
  intro c
  cases Station.step_cases hstep with
  | receive hidle => exact h c
  | callback hhandling => exact h c
  | @rerun c' pressed hclearing =>
    by_cases hsame : c = c'
    · subst hsame
      exact ⟨pressed, by simp only [Function.update_self]; exact List.suffix_refl _⟩
    · simp only [Function.update_of_ne hsame]
      exact h c
  | @act c' action now rest htodo =>
    by_cases hsame : c = c'
    · subst hsame
      obtain ⟨pressed, hplace⟩ := h c
      rw [htodo] at hplace
      exact ⟨pressed, by
        simp only [Function.update_self]; exact (List.suffix_cons action rest).trans hplace⟩
    · simp only [Function.update_of_ne hsame]
      exact h c

section Clears
variable {c : σ} {action : Action} {rest : List Action} {screen : List Panel}

theorem settled_update_iff (services : Services) {session : Session}
    (hold : (s.session c).clearing = false) (hnew : session.clearing = false) :
    Settled { s with services := services, session := Function.update s.session c session } ↔
      Settled s := by
  constructor
  · intro h c'
    by_cases hsame : c' = c
    · rw [hsame, hold]
    · have hother := h c'
      simpa only [Function.update_of_ne hsame] using hother
  · intro h c'
    by_cases hsame : c' = c
    · simp only [hsame, Function.update_self, hnew]
    · simp only [Function.update_of_ne hsame, h c']

/-- Only the second step of a clear is reached through the first. -/
theorem settled_act_iff (h : Placed s) (htodo : (s.session c).todo = action :: rest)
    (hlogs : action ≠ .clearLogs) (hbuffer : action ≠ .clearBuffer) (services : Services) :
    Settled { s with
      services := services
      session := Function.update s.session c ⟨rest, screen⟩ } ↔ Settled s := by
  obtain ⟨pressed, hplace⟩ := h c
  rw [htodo] at hplace
  apply settled_update_iff services
  · simpa [Session.clearing, htodo] using hbuffer
  · cases rest with
    | nil => rfl
    | cons next rest =>
      have hnext : next ≠ .clearBuffer := by
        rintro rfl
        exact hlogs (clearLogs_of_clearBuffer hplace)
      simpa [Session.clearing] using hnext

theorem not_settled_clearLogs (h : Placed s) (htodo : (s.session c).todo = .clearLogs :: rest)
    {services : Services} : ¬ Settled { s with
      services := services
      session := Function.update s.session c ⟨rest, screen⟩ } := by
  obtain ⟨pressed, hplace⟩ := h c
  rw [htodo] at hplace
  intro hsettled
  have hc := hsettled c
  simp [clearBuffer_of_clearLogs hplace, Session.clearing] at hc

end Clears

theorem Backed.step (h : Backed hms es s) (hstep : s.step hms e = some s') :
    Backed hms (es ++ [e]) s' := by
  refine ⟨h.placed.step hstep, ?_⟩
  intro hsettled
  cases Station.step_cases hstep with
  | @receive now datagram hidle =>
    obtain ⟨older, holder⟩ := h.backed hsettled
    have hawaited : awaited hms s = [] := by rw [awaited, hidle]; rfl
    rw [hawaited, List.append_nil] at holder
    rw [buffered_concat_receive, rawLines_concat_of_none rfl, ← holder, List.append_assoc,
      List.map_append]
    exact List.suffix_append _ _
  | @callback now datagram hhandling =>
    have hbacked := h.backed hsettled
    have hawaited : awaited hms s = [TelemetryProcessor.rawLine hms (entryOf now datagram)] := by
      rw [awaited, hhandling]; rfl
    rw [hawaited] at hbacked
    rw [buffered_concat_callback, rawLines_concat_callback]
    simpa only [awaited, Option.toList_none, List.map_nil, List.append_nil] using hbacked
  | @rerun c pressed hclearing =>
    have hbefore : Settled s := (settled_update_iff s.services hclearing rfl).mp hsettled
    rw [buffered_concat_rerun, rawLines_concat_of_none rfl]
    exact h.backed hbefore
  | @act c action now rest htodo =>
    by_cases hlogs : action = .clearLogs
    · subst hlogs
      exact absurd hsettled (not_settled_clearLogs h.placed htodo)
    · by_cases hbuffer : action = .clearBuffer
      · subst hbuffer
        rw [buffered_concat]
        exact List.nil_suffix
      · have hbefore := (settled_act_iff h.placed htodo hlogs hbuffer _).mp hsettled
        rw [buffered_concat_act c hbuffer, rawLines_concat_act c hlogs]
        exact h.backed hbefore

theorem backed_run (hrun : run (Station.step hms) .init es = some s) : Backed hms es s :=
  run_invariant (fun es s => Backed hms es s) backed_init (fun _ _ _ _ h hstep => h.step hstep)
    hrun

theorem Level.step (h : Level hms es s) (hundisturbed : Undisturbed es s e)
    (hstep : s.step hms e = some s') : Level hms (es ++ [e]) s' := by
  have hplaced := h.placed.step hstep
  cases Station.step_cases hstep with
  | @receive now datagram hidle =>
    have hlevel := h.level hundisturbed
    refine ⟨hplaced, fun _ => ?_, fun hclear => absurd hundisturbed hclear⟩
    rw [awaited, hidle] at hlevel
    rw [buffered_concat_receive, rawLines_concat_of_none rfl, awaited, List.length_append, ← hlevel]
    rfl
  | @callback now datagram hhandling =>
    have hsettled : Settled s := by
      by_contra hclear
      rw [(h.cleared hclear).1] at hhandling
      cases hhandling
    have hlevel := h.level hsettled
    refine ⟨hplaced, fun _ => ?_, fun hclear => absurd hsettled hclear⟩
    rw [awaited, hhandling] at hlevel
    rw [buffered_concat_callback, rawLines_concat_callback, List.length_append, ← hlevel]
    rfl
  | @rerun c pressed hclearing =>
    refine ⟨hplaced, fun hsettled => ?_, fun hclear => ?_⟩
    · rw [buffered_concat_rerun, rawLines_concat_of_none rfl]
      exact h.level ((settled_update_iff s.services hclearing rfl).mp hsettled)
    · rw [rawLines_concat_of_none rfl]
      exact h.cleared fun hsettled =>
        hclear ((settled_update_iff s.services hclearing rfl).mpr hsettled)
  | @act c action now rest htodo =>
    by_cases hlogs : action = .clearLogs
    · subst hlogs
      have hnone : s.handling = none := hundisturbed
      refine ⟨hplaced, fun hsettled => absurd hsettled (not_settled_clearLogs h.placed htodo),
        fun _ => ⟨hnone, ?_⟩⟩
      rw [rawLines_concat rfl]
      rfl
    · by_cases hbuffer : action = .clearBuffer
      · subst hbuffer
        have hclear : ¬ Settled s := by
          intro hsettled
          have hc := hsettled c
          rw [Session.clearing, htodo] at hc
          simp at hc
        obtain ⟨hnone, hlines⟩ := h.cleared hclear
        have hlines' : rawLines hms (es ++ [.act c .clearBuffer now]) = [] :=
          (rawLines_concat_act c hlogs now).trans hlines
        refine ⟨hplaced, fun _ => ?_, fun _ => ⟨hnone, hlines'⟩⟩
        rw [buffered_concat, hlines', awaited, hnone]
        rfl
      · refine ⟨hplaced, fun hsettled => ?_, fun hclear => ?_⟩
        · rw [buffered_concat_act c hbuffer, rawLines_concat_act c hlogs]
          exact h.level ((settled_act_iff h.placed htodo hlogs hbuffer _).mp hsettled)
        · rw [rawLines_concat_act c hlogs]
          exact h.cleared fun hsettled =>
            hclear ((settled_act_iff h.placed htodo hlogs hbuffer _).mpr hsettled)

theorem viewerLines_eq (hrun : run (Station.step hms) .init es = some s) :
    viewerLines hms s = ((buffered es).map (TelemetryProcessor.rawLine hms)).rtake 200 := by
  rw [viewerLines, itemsAll_eq, (kept_run hrun).buffer, RecentEntries.rtake_rtake, List.map_reverse,
    List.reverse_reverse, RingBuffer.map_rtake]
  rfl

theorem rawLog_eq (hrun : run (Station.step hms) .init es = some s) :
    s.services.world.rawLog.items = (rawLines hms es).rtake 200 := by
  rw [(kept_run hrun).processor]
  exact (run_histories hms 200 (ops es)).2.2.2.1

/-- Whenever no clear is in progress, every entry in the viewer has its line in
the raw log or still to come, in the same order. The two agree exactly when the
raw log has no line of a packet from before the last clear of the buffer, or
enough packets have come since, and they always do when no packet ever gets into
a clear. -/
theorem viewer_backed_by_rawLog (hrun : run (Station.step hms) .init es = some s)
    (hsettled : Settled s) :
    viewerLines hms s <:+ s.services.world.rawLog.items ++ awaited hms s ∧
      (s.handling = none →
        (s.services.world.rawLog.items = viewerLines hms s ↔
          (rawLines hms es).length = (buffered es).length ∨ 200 ≤ (buffered es).length) ∧
        (Meets (Station.step hms) .init Undisturbed es →
          s.services.world.rawLog.items = viewerLines hms s)) := by
  have hbacked := (backed_run hrun).backed hsettled
  rw [viewerLines_eq hrun, rawLog_eq hrun]
  refine ⟨(RecentEntries.suffix_rtake hbacked 200).trans
    (RecentEntries.rtake_append_suffix _ _ 200), fun hnone => ?_⟩
  have hawaited : awaited hms s = [] := by rw [awaited, hnone]; rfl
  rw [hawaited, List.append_nil] at hbacked
  have hiff := RecentEntries.rtake_eq_rtake_iff hbacked 200
  rw [List.length_map] at hiff
  refine ⟨hiff, fun hundisturbed => ?_⟩
  have halways : Always (Station.step hms) .init (fun es s => Level hms es s) es :=
    always_of_meets level_init (fun _ _ _ _ h hcond hstep => h.step hcond hstep) hundisturbed
  have hlevel := (halways.last hrun).level hsettled
  rw [hawaited, List.length_nil, Nat.add_zero] at hlevel
  exact hiff.mpr (.inl hlevel)

end Logs

/-- A packet comes in between the two steps of a clear. -/
def disturbedClear : List (Event Unit) :=
  .rerun () ⟨false, false, true⟩ ::
    ((script ⟨false, false, true⟩).take 9).map (fun action => .act () action 0) ++
    [.receive 0 Operators.Console.criticalRadiation,
      .callback 0 Operators.Console.criticalRadiation, .act () .clearBuffer 0]

/-- Its line stays in the raw log, and the viewer does not have it. -/
theorem viewer_backed_by_rawLog_disturbed : ∃ s,
    run (Station.step fun _ => "00:00:00") .init disturbedClear = some s ∧
      s.services.world.rawLog.items ≠ viewerLines (fun _ => "00:00:00") s := by
  have hends : ((run (Station.step fun _ => "00:00:00") .init disturbedClear).map fun s =>
      ((s.session ()).clearing, s.handling)) = some (false, none) := by
    decide +kernel
  obtain ⟨s, hrun, hquiet⟩ := Option.map_eq_some_iff.mp hends
  obtain ⟨hclearing, hidle⟩ := Prod.mk.inj hquiet
  have hbacked := viewer_backed_by_rawLog hrun fun _ => hclearing
  refine ⟨s, hrun, fun heq => ?_⟩
  have hlength := (hbacked.2 hidle).1.mp heq
  exact absurd hlength (by decide +kernel)

end CfsBridge.Dashboard
