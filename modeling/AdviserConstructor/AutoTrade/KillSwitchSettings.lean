import AdviserConstructor.AutoTrade.Config
import AdviserConstructor.Ws.Hydration

/-!
# The settings of the volatility kill-switch

The thresholds of the kill-switch are columns of the risk row of a strategy, and `on_tick` reads
them from the context of the live position.  `_ensure_ws_manager_tracked` of
`app/services/auto_trade/service.py` is the only way from the one to the other: it copies the row
onto the context that a hydration has just built, and hands that context to `track_position`.

`_apply_kill_switch_config` switches on and never off, which does no harm on a fresh context.
`_merge_persisted_fields_into_live` copies none of the five fields, so the settings of a context
that is tracked already stay what they were when it came to be tracked.

A `SwitchRun` holds the live position and the risk row.  Its events are the edits of the row, the
hydrations, whatever the runtime does to the context in between, and the end of the tracking; the
five fields are assigned nowhere else, so a move of the runtime leaves them alone.

* `killSwitchSettings_applyKillSwitchConfig`: a fresh context gets the settings in force;
* `hydrations_follow_iff`: every hydration of a run leaves the position with the settings in force
  if and only if each one that finds it tracked finds the settings it came to be tracked with;
* `hydration_keepsDisarmed`: a switch that has been disarmed trips after the hydration.
-/

namespace AdviserConstructor

open PositionContext StepSystem

/-! ## The five settings -/

/-- The `kill_switch_*` settings. -/
structure KillSwitchSettings where
  enabled : Bool := false
  atrSpikeMult : Option ℚ := none
  atrPeriod : Option ℤ := none
  priceMovePct : Option ℚ := none
  cooldownSeconds : Option ℤ := none
  deriving DecidableEq

/-- The settings that `on_tick` reads. -/
def PositionContext.killSwitchSettings (position : PositionContext) : KillSwitchSettings where
  enabled := position.killSwitchEnabled
  atrSpikeMult := position.killSwitchAtrSpikeMult
  atrPeriod := position.killSwitchAtrPeriod
  priceMovePct := position.killSwitchPriceMovePct
  cooldownSeconds := position.killSwitchCooldownSeconds

def RiskConfig.killSwitchSettings (risk : RiskConfig) : KillSwitchSettings where
  enabled := risk.killSwitchEnabled
  atrSpikeMult := risk.killSwitchAtrSpikeMult
  atrPeriod := risk.killSwitchAtrPeriod
  priceMovePct := risk.killSwitchPriceMovePct
  cooldownSeconds := risk.killSwitchCooldownSeconds

/-- The settings in force: those of the row, or all off where it is missing or disarmed. -/
def settingsInForce (risk : Option RiskConfig) : KillSwitchSettings :=
  match risk with
  | none => {}
  | some risk => if risk.killSwitchEnabled then risk.killSwitchSettings else {}

/-- `_apply_kill_switch_config`, with the risk row of the position's strategy. -/
def PositionContext.applyKillSwitchConfig (position : PositionContext)
    (risk : Option RiskConfig) : PositionContext :=
  match risk with
  | none => position
  | some risk =>
      if !risk.killSwitchEnabled then position
      else
        { position with
          killSwitchEnabled := true
          killSwitchAtrSpikeMult := risk.killSwitchAtrSpikeMult
          killSwitchAtrPeriod := risk.killSwitchAtrPeriod
          killSwitchPriceMovePct := risk.killSwitchPriceMovePct
          killSwitchCooldownSeconds := risk.killSwitchCooldownSeconds }

/-- **A fresh context gets the settings in force.** -/
theorem killSwitchSettings_applyKillSwitchConfig {position : PositionContext}
    (hfresh : position.killSwitchSettings = {}) (risk : Option RiskConfig) :
    (position.applyKillSwitchConfig risk).killSwitchSettings = settingsInForce risk := by
  cases risk with
  | none => exact hfresh
  | some risk =>
    cases harmed : risk.killSwitchEnabled with
    | false =>
      simp only [applyKillSwitchConfig, settingsInForce, harmed]
      exact hfresh
    | true =>
      simp only [applyKillSwitchConfig, settingsInForce, harmed, PositionContext.killSwitchSettings,
        RiskConfig.killSwitchSettings, Bool.not_true, Bool.false_eq_true, if_false, if_true]

theorem killSwitchSettings_fromDbRow (row : Row) : (fromDbRow row).killSwitchSettings = {} := rfl

theorem killSwitchSettings_merge (live snapshot : PositionContext) :
    (live.mergePersistedFieldsIntoLive snapshot).killSwitchSettings = live.killSwitchSettings := rfl

/-! ## Runs -/

/-- The position that is tracked under one id, and the risk row of its strategy. -/
structure SwitchRun where
  live : Option PositionContext := none
  risk : Option RiskConfig := none
  /-- the settings that were in force when the position came to be tracked -/
  trackedWith : KillSwitchSettings := {}

/-- What happens next. -/
inductive SwitchEvent where
  | edit (risk : Option RiskConfig)
  /-- the position is tracked with a context built from its row -/
  | hydrate (row : Row)
  /-- the runtime leaves the live position like this -/
  | runtime (moved : PositionContext)
  /-- the position is closed, or the process ends -/
  | untrack

namespace SwitchRun

def step (s : SwitchRun) : SwitchEvent → Option SwitchRun
  | .edit risk => some { s with risk := risk }
  | .hydrate row =>
      some
        { s with
          live := some (trackPosition s.live ((fromDbRow row).applyKillSwitchConfig s.risk) false)
          trackedWith := if s.live.isSome then s.trackedWith else settingsInForce s.risk }
  | .runtime moved =>
      match s.live with
      | none => none
      | some live =>
          if moved.killSwitchSettings = live.killSwitchSettings then
            some { s with live := some moved }
          else none
  | .untrack => some { s with live := none }

/-- The live position has the settings in force. -/
def Follows (s : SwitchRun) : Prop :=
  s.live.map PositionContext.killSwitchSettings = some (settingsInForce s.risk)

instance (s : SwitchRun) : Decidable s.Follows := by
  unfold Follows
  infer_instance

/-- After the hydration the position has the settings in force. -/
def HydrationFollows (s : SwitchRun) : SwitchEvent → Prop
  | .hydrate row => ∀ t, s.step (.hydrate row) = some t → t.Follows
  | _ => True

/-- The condition on a step: a hydration that finds the position tracked finds the settings in force
that it came to be tracked with. -/
def Unedited (s : SwitchRun) : SwitchEvent → Prop
  | .hydrate _ => s.live.isSome = true → settingsInForce s.risk = s.trackedWith
  | _ => True

instance (s : SwitchRun) (e : SwitchEvent) : Decidable (s.Unedited e) := by
  cases e <;> unfold Unedited <;> infer_instance

/-- A tracked position has the settings that it came to be tracked with. -/
def KeepsFirst (s : SwitchRun) : Prop :=
  ∀ live, s.live = some live → live.killSwitchSettings = s.trackedWith

section Steps

variable {s t : SwitchRun} {e : SwitchEvent} {row : Row}

theorem settings_hydrate (hs : s.KeepsFirst) (hstep : s.step (.hydrate row) = some t) :
    t.risk = s.risk ∧
      t.live.map PositionContext.killSwitchSettings = some t.trackedWith ∧
      t.trackedWith = if s.live.isSome then s.trackedWith else settingsInForce s.risk := by
  obtain rfl := Option.some.inj hstep
  refine ⟨rfl, ?_, rfl⟩
  cases hlive : s.live with
  | none =>
    show some _ = some _
    exact congrArg some
      (killSwitchSettings_applyKillSwitchConfig (killSwitchSettings_fromDbRow row) s.risk)
  | some live =>
    show some _ = some _
    exact congrArg some ((killSwitchSettings_merge live _).trans (hs live hlive))

theorem KeepsFirst.step (hs : s.KeepsFirst) (hstep : s.step e = some t) : t.KeepsFirst := by
  cases e with
  | edit risk =>
    obtain rfl := Option.some.inj hstep
    exact hs
  | hydrate row =>
    obtain ⟨-, hmap, -⟩ := settings_hydrate hs hstep
    intro live hlive
    rw [hlive] at hmap
    exact Option.some.inj hmap
  | runtime moved =>
    simp only [SwitchRun.step] at hstep
    cases hlive : s.live with
    | none =>
      rw [hlive] at hstep
      cases hstep
    | some live =>
      simp only [hlive] at hstep
      by_cases hsame : moved.killSwitchSettings = live.killSwitchSettings
      · rw [if_pos hsame] at hstep
        obtain rfl := Option.some.inj hstep
        intro live' hlive'
        obtain rfl := Option.some.inj hlive'
        exact hsame.trans (hs live hlive)
      · rw [if_neg hsame] at hstep
        cases hstep
  | untrack =>
    obtain rfl := Option.some.inj hstep
    exact fun live hlive => absurd hlive (by simp)

/-- **A hydration follows the row** exactly if it finds the position not tracked, or tracked with
the settings in force. -/
theorem hydrationFollows_iff (hs : s.KeepsFirst) : s.HydrationFollows e ↔ s.Unedited e := by
  cases e with
  | hydrate row =>
    have hfollows : ∀ t, s.step (.hydrate row) = some t →
        (t.Follows ↔ (s.live.isSome = true → settingsInForce s.risk = s.trackedWith)) := by
      intro t ht
      obtain ⟨hrisk, hmap, htracked⟩ := settings_hydrate hs ht
      rw [Follows, hmap, hrisk, htracked, Option.some.injEq]
      by_cases hsome : s.live.isSome = true
      · rw [if_pos hsome]
        exact ⟨fun h _ => h.symm, fun h => (h hsome).symm⟩
      · rw [if_neg hsome]
        exact ⟨fun _ h => absurd h hsome, fun _ => rfl⟩
    exact ⟨fun h => (hfollows _ rfl).mp (h _ rfl), fun h t ht => (hfollows t ht).mpr h⟩
  | edit _ => exact Iff.rfl
  | runtime _ => exact Iff.rfl
  | untrack => exact Iff.rfl

end Steps

/-- **Along every run** that starts with an untracked position, each hydration leaves it with the
settings in force if and only if each one that finds it tracked finds the settings in force that it
came to be tracked with. -/
theorem hydrations_follow_iff {risk : Option RiskConfig} {events : List SwitchEvent} {t : SwitchRun}
    (hrun : run step { risk := risk } events = some t) :
    AlongRun step HydrationFollows { risk := risk } events ↔
      AlongRun step Unedited { risk := risk } events := by
  have hstart : KeepsFirst { risk := risk } := fun live hlive => absurd hlive (by simp)
  exact alongRun_iff_of_invariant step (I := KeepsFirst) (fun s e s' hs _ hstep => hs.step hstep)
    (fun s e s' hs _ => hydrationFollows_iff hs) hstart hrun

/-! ## A switch that is disarmed -/

/-- A switch that trips when a bar moves by three per cent. -/
def armed : RiskConfig where
  killSwitchEnabled := true
  killSwitchPriceMovePct := some 3

def liveRow : Row where
  positionId := "1"
  symbol := "BTCUSDT"
  entryPrice := 100
  quantity := 1
  originalQuantity := some 1
  currentQuantity := some 1

/-- The row is armed while no position is tracked, and the hydrations follow it. -/
theorem hydrations_follow_armed :
    ∃ t, run step { risk := none } [.edit (some armed), .hydrate liveRow, .hydrate liveRow] =
        some t ∧
      AlongRun step HydrationFollows { risk := none }
        [.edit (some armed), .hydrate liveRow, .hydrate liveRow] := by
  refine ⟨_, rfl, (hydrations_follow_iff (t := _) rfl).mpr ?_⟩
  decide +kernel

/-- The row is disarmed while the position is open.  The hydration behind it leaves the switch
armed, and a bar that moves by four per cent trips it. -/
theorem hydration_keepsDisarmed :
    ¬(∀ (risk : Option RiskConfig) (events : List SwitchEvent) (t : SwitchRun),
        run step { risk := risk } events = some t →
          AlongRun step HydrationFollows { risk := risk } events) ∧
      (run step { risk := none }
          [.edit (some armed), .hydrate liveRow,
            .edit (some { armed with killSwitchEnabled := false }), .hydrate liveRow]).map
        (fun t => t.live.map fun live =>
          Adjuster.killSwitchTrips ⟨fun _ _ => [], true, "a"⟩ { symbol := "BTCUSDT" }
            ⟨0, 100, 104, 100, 104, 1, true⟩ 10 live) = some (some true) := by
  constructor
  · intro hall
    have halong := hall none [.edit (some armed), .hydrate liveRow,
      .edit (some { armed with killSwitchEnabled := false }), .hydrate liveRow] _ rfl
    have hlast := guarded_of_alongRun step halong
      [.edit (some armed), .hydrate liveRow,
        .edit (some { armed with killSwitchEnabled := false })] (.hydrate liveRow) _
      (List.prefix_refl _) rfl
    have hfollows := hlast _ rfl
    revert hfollows
    decide +kernel
  · decide +kernel

end SwitchRun

end AdviserConstructor
