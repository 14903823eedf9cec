import CfsBridge.EnableOutput
import Mathlib.Data.List.ReduceOption

/-!
# The displayed telemetry destination

The start-up address is cached with the global services. Every refresh copies
it into the session before the page is drawn, and the re-enable button writes
the session only after it is drawn. So the page shows the start-up address on
every refresh, and that is the address last commanded as long as no re-enable
commanded another one.
-/
namespace CfsBridge.Destination
open Python Dispatcher EnableOutput

/-- The start of the global services: the result of `_get_own_ip`, and the
outcome of the `sendto` that its enable command may reach. -/
structure Startup where
  ownIp : String
  sendto : Except PyException ℕ

/-- A press of `Re-enable TO_LAB`, with the same two outcomes. -/
structure Press where
  ownIp : Except PyException String
  sendto : Except PyException ℕ

/-- One run of the script, with or without a press. -/
abbrev Refresh := Option Press

/-- The services and the session. `enabled` is the trace of the destinations
whose enable command succeeded, oldest first. -/
structure App where
  dispatcher : CommandDispatcher
  cachedDestIp : String
  sessionDestIp : Option String
  enabled : List String

/-- `_init_global_services`; a failed enable command is only logged. -/
def initGlobalServices (start : Startup) : App :=
  let result := CommandDispatcher.init.enableTelemetryOutput start.ownIp start.sendto
  { dispatcher := result.2
    cachedDestIp := start.ownIp
    sessionDestIp := none
    enabled := if result.1.toBool then [start.ownIp] else [] }

/-- `_init_services`: the session gets the cached address. -/
def initServices (s : App) : App := { s with sessionDestIp := some s.cachedDestIp }

/-- The address in `TO_LAB output enabled to ...`. -/
def destinationShown (s : App) : String := s.sessionDestIp.getD "unknown"

/-- The handler of `Re-enable TO_LAB`. -/
def reEnable (press : Press) (s : App) : App :=
  match press.ownIp with
  | .error _ => s
  | .ok destIp =>
    match s.dispatcher.enableTelemetryOutput destIp press.sendto with
    | (.error _, dispatcher) => { s with dispatcher := dispatcher }
    | (.ok _, dispatcher) =>
      { s with
        dispatcher := dispatcher
        sessionDestIp := some destIp
        enabled := s.enabled ++ [destIp] }

/-- The page of a refresh is drawn between these two. -/
def refresh (s : App) (r : Refresh) : App :=
  match r with
  | none => initServices s
  | some press => reEnable press (initServices s)

/-- The application after the given refreshes. -/
def run (start : Startup) (refreshes : List Refresh) : App :=
  refreshes.foldl refresh (initGlobalServices start)

/-- Every refresh after a successful enable command shows the destination of
the latest one. -/
def ShowsLastEnabled (start : Startup) (refreshes : List Refresh) : Prop :=
  ∀ before now after, refreshes = before ++ now :: after →
    ∀ destIp, (run start before).enabled.getLast? = some destIp →
      destinationShown (initServices (run start before)) = destIp

/-! ### What a press commands -/

/-- The destination that a press commands, if its enable command succeeds. -/
def Press.commands (press : Press) : Option String :=
  match press.ownIp, press.sendto with
  | .ok destIp, .ok _ => if (encodeAscii destIp).toBool then some destIp else none
  | _, _ => none

theorem enableTelemetryOutput_succeeds (s : CommandDispatcher) (destIp : String)
    (sendto : Except PyException ℕ) :
    (s.enableTelemetryOutput destIp sendto).1.toBool =
      ((encodeAscii destIp).toBool && sendto.toBool) := by
  by_cases h : IsAscii destIp
  · have hfits : CcsdsUtils.CmdFits 0x1880 (destinationField destIp) :=
      ⟨by decide, by have := destinationField_length destIp; omega⟩
    obtain ⟨_, hok, herror⟩ := handsOver_send hfits 6 s
    rw [enableTelemetryOutput_ascii h, encodeAscii_ok h]
    cases sendto with
    | ok n =>
      have hsent := congrArg Prod.fst (hok n)
      exact congrArg Except.toBool hsent
    | error e =>
      have hfailed := congrArg Prod.fst (herror e)
      exact congrArg Except.toBool hfailed
  · rw [CommandDispatcher.enableTelemetryOutput, encodeAscii_error h]
    rfl

/-- A press adds the destination that it commands to the trace. -/
theorem enabled_reEnable (press : Press) (s : App) :
    (reEnable press s).enabled = s.enabled ++ press.commands.toList := by
  obtain ⟨ownIp, sendto⟩ := press
  unfold reEnable Press.commands
  cases ownIp with
  | error e => simp
  | ok destIp =>
    have hsucceeds := enableTelemetryOutput_succeeds s.dispatcher destIp sendto
    dsimp only
    cases hresult : s.dispatcher.enableTelemetryOutput destIp sendto with
    | mk result dispatcher =>
      rw [hresult] at hsucceeds
      cases result with
      | error e =>
        cases sendto with
        | error e' => simp
        | ok n =>
          have hraised : (encodeAscii destIp).toBool = false := by
            simpa [Except.toBool] using hsucceeds.symm
          simp [hraised]
      | ok n =>
        cases sendto with
        | error e' => simp [Except.toBool] at hsucceeds
        | ok n' =>
          have hencoded : (encodeAscii destIp).toBool = true := by
            simpa [Except.toBool] using hsucceeds.symm
          simp [hencoded]

theorem cachedDestIp_reEnable (press : Press) (s : App) :
    (reEnable press s).cachedDestIp = s.cachedDestIp := by
  unfold reEnable
  split
  · rfl
  · split <;> rfl

theorem cachedDestIp_run (start : Startup) (refreshes : List Refresh) :
    (run start refreshes).cachedDestIp = start.ownIp := by
  induction refreshes using List.reverseRecOn with
  | nil => rfl
  | append_singleton refreshes r ih =>
    rw [run, List.foldl_append, List.foldl_cons, List.foldl_nil, ← run]
    cases r with
    | none => exact ih
    | some press => exact (cachedDestIp_reEnable press _).trans ih

/-- The trace of a run: the start, then the presses in order. -/
theorem enabled_run (start : Startup) (refreshes : List Refresh) :
    (run start refreshes).enabled =
      (initGlobalServices start).enabled ++ refreshes.reduceOption.filterMap Press.commands := by
  induction refreshes using List.reverseRecOn with
  | nil => simp [run]
  | append_singleton refreshes r ih =>
    rw [run, List.foldl_append, List.foldl_cons, List.foldl_nil, ← run]
    cases r with
    | none => simpa [refresh, initServices, List.reduceOption_append] using ih
    | some press =>
      have hpress : ([press].filterMap Press.commands) = press.commands.toList := by
        cases hcommands : press.commands <;> simp [hcommands]
      rw [refresh, enabled_reEnable, initServices, ih, List.reduceOption_append,
        List.reduceOption_cons_of_some, List.reduceOption_nil, List.filterMap_append, hpress,
        List.append_assoc]

/-- The page shows the start-up address on every refresh. -/
theorem destinationShown_run (start : Startup) (refreshes : List Refresh) :
    destinationShown (initServices (run start refreshes)) = start.ownIp :=
  cachedDestIp_run start refreshes

/-- The page shows the destination last commanded exactly when no press that a
refresh follows has commanded another one than the start-up address. -/
theorem showsLastEnabled_iff (start : Startup) (refreshes : List Refresh) :
    ShowsLastEnabled start refreshes ↔
      ∀ press, some press ∈ refreshes.dropLast →
        ∀ destIp, press.commands = some destIp → destIp = start.ownIp := by
  constructor
  · intro h press hpress destIp hcommands
    obtain ⟨before, middle, hsplit⟩ := List.append_of_mem hpress
    have hne : refreshes ≠ [] := by
      intro hnil
      rw [hnil] at hpress
      cases hpress
    have hrefreshes : refreshes =
        (before ++ [some press]) ++ (middle ++ [refreshes.getLast hne]) := by
      conv_lhs => rw [← List.dropLast_append_getLast hne, hsplit]
      simp
    obtain ⟨now, after, hrest⟩ : ∃ now after, middle ++ [refreshes.getLast hne] = now :: after :=
      List.exists_cons_of_ne_nil (by simp)
    rw [hrest] at hrefreshes
    have hlast : (run start (before ++ [some press])).enabled.getLast? = some destIp := by
      simp [enabled_run, List.reduceOption_append, hcommands]
    have hshown := h _ now after hrefreshes destIp hlast
    rw [destinationShown_run] at hshown
    exact hshown.symm
  · intro h before now after hrefreshes destIp hlast
    rw [destinationShown_run]
    have hmem := List.mem_of_getLast? hlast
    rw [enabled_run, List.mem_append] at hmem
    cases hmem with
    | inl hstart =>
      simp only [initGlobalServices] at hstart
      split_ifs at hstart with hsent
      · exact (List.mem_singleton.mp hstart).symm
      · cases hstart
    | inr hpresses =>
      obtain ⟨press, hpress, hcommands⟩ := List.mem_filterMap.mp hpresses
      have hdropped : some press ∈ refreshes.dropLast := by
        rw [hrefreshes, List.dropLast_append_of_ne_nil (List.cons_ne_nil now after)]
        exact List.mem_append_left _ (List.reduceOption_mem_iff.mp hpress)
      exact (h press hdropped destIp hcommands).symm

/-- The container moves to another address, the operator re-enables the output
to it, and the next refresh shows the old one. -/
theorem showsLastEnabled_moved :
    let start : Startup := ⟨"172.18.0.3", .ok 24⟩
    let refreshes : List Refresh := [some ⟨.ok "172.18.0.4", .ok 24⟩, none]
    (run start (refreshes.take 1)).enabled = ["172.18.0.3", "172.18.0.4"] ∧
      destinationShown (initServices (run start (refreshes.take 1))) = "172.18.0.3" ∧
      ¬ ShowsLastEnabled start refreshes := by
  intro start refreshes
  have henabled : (run start (refreshes.take 1)).enabled = ["172.18.0.3", "172.18.0.4"] := by
    decide +kernel
  have hshown := destinationShown_run start (refreshes.take 1)
  refine ⟨henabled, hshown, fun h => ?_⟩
  have hlast := h (refreshes.take 1) none [] rfl "172.18.0.4" (by rw [henabled]; rfl)
  rw [hshown] at hlast
  exact absurd hlast (by decide)

end CfsBridge.Destination
