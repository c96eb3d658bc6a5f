import AdviserConstructor.Library.StepSystem
import AdviserConstructor.SlTp.LiveTracker

/-!
# When the realtime stop only tightens

The stop of a position is meant to be a ratchet.  Two of the three sources keep it; the third,
breakeven, proposes the entry price whatever the stop is, and when a trailing stop has passed
the entry price the proposal loosens it.

A run is a list of ticks fed to one adjuster and its positions.  `BreakevenClear` is the
condition on a tick: for no position that the pipeline is asked about does breakeven regress.

* `stopRatchet_iff`: along a run no stop gets looser and every result is strictly more protective
  than the stop it replaces, if and only if breakeven regresses at none of the ticks.
* `breakeven_loosens_stop`: two bars, of which the second moves a trailing stop back to the entry
  price.
-/

namespace AdviserConstructor
namespace Adjuster

open StepSystem

/-! ## Ticks -/

/-- The adjuster and its positions. -/
structure TrackerState where
  adjuster : Adjuster
  positions : List PositionContext

def step (env : TrackerEnv) (s : TrackerState) (tick : Tick) : Option TrackerState :=
  let (adjuster, visited) := s.adjuster.onTick env tick s.positions
  some ⟨adjuster, visited.map Prod.fst⟩

/-- Looking at one position, as a step of the adjuster. -/
def visitStep (env : TrackerEnv) (killed : List String) (currentPrice now : ℚ) (adj : Adjuster)
    (position : PositionContext) : Option Adjuster :=
  some (adj.afterVisit env killed currentPrice now position)

/-- `P` holds at every visit that the tick makes: of the adjuster at its turn and the position,
given the ids handed to the kill switch and the price. -/
def AtVisits (env : TrackerEnv)
    (P : List String → ℚ → ℚ → Adjuster → PositionContext → Prop) (s : TrackerState)
    (tick : Tick) : Prop :=
  ∀ bar adj, s.adjuster.updateBuffer tick.event = some (bar, adj) → 0 < bar.close →
    let (adj, killed) := adj.checkKillSwitch env bar tick.now s.positions
    AlongRun (visitStep env killed bar.close tick.now) (P killed bar.close tick.now) adj
      s.positions

/-- Every result of the tick is strictly more protective than the stop it replaces. -/
def Ratchets (env : TrackerEnv) : TrackerState → Tick → Prop :=
  AtVisits env fun killed currentPrice now adj position =>
    ∀ result ∈ adj.visitResult env killed currentPrice now position,
      MoreProtective position.side result.newSlPrice position.currentSlPrice

/-- `new` is `old` with a stop that is not looser. -/
def NoLooser (old new : PositionContext) : Prop :=
  new.side = old.side ∧ ¬MoreProtective old.side old.currentSlPrice new.currentSlPrice

instance (old new : PositionContext) : Decidable (NoLooser old new) := by
  unfold NoLooser
  infer_instance

/-- The tick leaves no stop looser, and every result that it applied was strictly more protective
than the stop it replaced. -/
def StopsTighten (env : TrackerEnv) (s : TrackerState) (tick : Tick) : Prop :=
  (∀ t, step env s tick = some t → List.Forall₂ NoLooser s.positions t.positions) ∧
    Ratchets env s tick

/-- The pipeline is asked about the position. -/
def isAsked (killed : List String) (now : ℚ) (adj : Adjuster) (position : PositionContext) : Bool :=
  position.positionId ∉ killed && adj.isPositionEligible position &&
    adj.cooldownElapsed now position.positionId

/-- Breakeven regresses for no position that the pipeline is asked about. -/
def BreakevenClear (env : TrackerEnv) : TrackerState → Tick → Prop :=
  AtVisits env fun killed currentPrice now adj position =>
    adj.isAsked killed now position = true →
      ¬BreakevenRegresses position currentPrice
        (if position.volatilitySlEnabled then adj.computeAtr env position.volatilityAtrPeriod
          else none)

theorem visitResult_eq (env : TrackerEnv) (killed : List String) (currentPrice now : ℚ)
    (adj : Adjuster) (position : PositionContext) :
    adj.visitResult env killed currentPrice now position =
      if adj.isAsked killed now position then adj.evaluate env currentPrice position else none := by
  unfold visitResult isAsked
  by_cases hkilled : position.positionId ∈ killed
  · simp [hkilled]
  · cases adj.isPositionEligible position <;>
      cases adj.cooldownElapsed now position.positionId <;> simp [hkilled]

theorem visit_protective_iff (env : TrackerEnv) (killed : List String) (currentPrice now : ℚ)
    (adj : Adjuster) (position : PositionContext) :
    (∀ result ∈ adj.visitResult env killed currentPrice now position,
        MoreProtective position.side result.newSlPrice position.currentSlPrice) ↔
      (adj.isAsked killed now position = true →
        ¬BreakevenRegresses position currentPrice
          (if position.volatilitySlEnabled then adj.computeAtr env position.volatilityAtrPeriod
            else none)) := by
  rw [visitResult_eq]
  cases adj.isAsked killed now position with
  | false => simp
  | true =>
    simp only [true_imp_iff]
    exact evaluate_protective_iff position currentPrice _

theorem ratchets_iff (env : TrackerEnv) (s : TrackerState) (tick : Tick) :
    Ratchets env s tick ↔ BreakevenClear env s tick := by
  unfold Ratchets BreakevenClear AtVisits
  simp only [visit_protective_iff]

/-! ## The stops after a tick -/

theorem NoLooser.refl (position : PositionContext) : NoLooser position position := by
  refine ⟨rfl, ?_⟩
  cases hside : position.side with
  | short => exact lt_irrefl _
  | long => exact lt_irrefl _
  | both => exact lt_irrefl _

theorem MoreProtective.asymm {side : PositionSide} {new old : ℚ}
    (h : MoreProtective side new old) : ¬MoreProtective side old new := by
  cases side with
  | short => exact not_lt.mpr h.le
  | long => exact not_lt.mpr h.le
  | both => exact not_lt.mpr h.le

theorem applyTracking_side (position : PositionContext) (update : TrackingUpdate) :
    (applyTracking position update).side = position.side := by
  cases update <;> rfl

theorem applyStateChanges_side (position : PositionContext) (result : SLAdjustmentResult) :
    (applyStateChanges position result).side = position.side := by
  have hfold : ∀ (updates : List TrackingUpdate) (p : PositionContext),
      (updates.foldl applyTracking p).side = p.side := by
    intro updates
    induction updates with
    | nil => exact fun p => rfl
    | cons update updates ih =>
      intro p
      rw [List.foldl_cons, ih, applyTracking_side]
  exact hfold result.updateTracking position

theorem visitPosition_noLooser {env : TrackerEnv} {killed : List String} {currentPrice now : ℚ}
    {adj : Adjuster} {position : PositionContext} (nowMs : ℕ)
    (h : ∀ result ∈ adj.visitResult env killed currentPrice now position,
      MoreProtective position.side result.newSlPrice position.currentSlPrice) :
    NoLooser position (adj.visitPosition env killed currentPrice now nowMs position).1 := by
  unfold visitPosition
  cases hresult : adj.visitResult env killed currentPrice now position with
  | none => exact NoLooser.refl position
  | some result =>
    exact ⟨applyStateChanges_side position result, MoreProtective.asymm (h result hresult)⟩

theorem visitAll_noLooser {env : TrackerEnv} {killed : List String} {currentPrice now : ℚ}
    (nowMs : ℕ) {adj : Adjuster} {positions : List PositionContext}
    (h : AlongRun (visitStep env killed currentPrice now)
      (fun adj position => ∀ result ∈ adj.visitResult env killed currentPrice now position,
        MoreProtective position.side result.newSlPrice position.currentSlPrice) adj positions) :
    List.Forall₂ NoLooser positions
      ((visitAll env killed currentPrice now nowMs adj positions).2.map Prod.fst) := by
  induction positions generalizing adj with
  | nil => exact List.Forall₂.nil
  | cons position rest ih =>
    obtain ⟨hvisit, hrest⟩ := h
    exact List.Forall₂.cons (visitPosition_noLooser nowMs hvisit) (ih hrest)

theorem forall₂_noLooser_refl (positions : List PositionContext) :
    List.Forall₂ NoLooser positions positions :=
  List.forall₂_same.mpr fun position _ => NoLooser.refl position

theorem ratchets_noLooser {env : TrackerEnv} {s t : TrackerState} {tick : Tick}
    (h : Ratchets env s tick) (hstep : step env s tick = some t) :
    List.Forall₂ NoLooser s.positions t.positions := by
  have hunvisited :
      (s.positions.map fun position => (position, (none : Option OrderTask))).map Prod.fst =
        s.positions := by
    rw [List.map_map]
    exact List.map_id _
  obtain rfl : _ = t := Option.some.inj hstep
  change List.Forall₂ NoLooser s.positions ((s.adjuster.onTick env tick s.positions).2.map Prod.fst)
  unfold onTick
  cases hbuffer : s.adjuster.updateBuffer tick.event with
  | none =>
    simp only [hunvisited]
    exact forall₂_noLooser_refl _
  | some updated =>
    obtain ⟨bar, adj⟩ := updated
    dsimp only
    split
    · simp only [hunvisited]
      exact forall₂_noLooser_refl _
    · next hclose => exact visitAll_noLooser tick.nowMs (h bar adj hbuffer (not_le.mp hclose))

theorem stopsTighten_iff (env : TrackerEnv) (s : TrackerState) (tick : Tick) :
    StopsTighten env s tick ↔ BreakevenClear env s tick :=
  ⟨fun h => (ratchets_iff env s tick).mp h.2, fun h =>
    have hratchets := (ratchets_iff env s tick).mpr h
    ⟨fun _ ht => ratchets_noLooser hratchets ht, hratchets⟩⟩

/-! ## Runs -/

/-- **The stop is a ratchet along a run** if and only if breakeven regresses at none of its
ticks. -/
theorem stopRatchet_iff (env : TrackerEnv) (s : TrackerState) (ticks : List Tick) :
    AlongRun (step env) (StopsTighten env) s ticks ↔
      AlongRun (step env) (BreakevenClear env) s ticks := by
  have hsame : StopsTighten env = BreakevenClear env :=
    funext fun s => funext fun tick => propext (stopsTighten_iff env s tick)
  rw [hsame]

/-! ## A trailing stop that breakeven loosens -/

/-- A long position at 100 with a trailing stop of one per cent and a breakeven trigger. -/
def trailedPosition : PositionContext where
  positionId := "7"
  symbol := "BTCUSDT"
  state := .open
  stateMachine := { state := .open }
  entryPrice := 100
  originalQuantity := 1
  currentQuantity := 1
  currentSlPrice := 90
  slExchangeOrderId := some "sl-1"
  trailingEnabled := true
  trailingCallbackRate := some 1
  breakevenEnabled := true

def flatBar (openTime : ℤ) (price now : ℚ) : Tick where
  event := .ofList
    [("open_time", .int openTime), ("open", .float price), ("high", .float price),
      ("low", .float price), ("close", .float price)]
  now := now

/-- A tracker without a library for the average true range. -/
def plainTracker : TrackerEnv where
  taAtr _ _ := []
  killSwitchHandler := false
  accountId := "1"

/-- **Breakeven loosens a trailing stop.**  At 105 trailing moves the stop from 90 to 103.95; at
104.8 it has nothing to add, and breakeven moves the stop back to 100. -/
theorem breakeven_loosens_stop :
    ¬AlongRun (step plainTracker) (StopsTighten plainTracker)
      ⟨{ symbol := "BTCUSDT" }, [trailedPosition]⟩ [flatBar 0 105 10, flatBar 60 (524 / 5) 20] := by
  intro h
  have hpairs : ¬AlongRun (step plainTracker)
      (fun s tick => ∀ t ∈ step plainTracker s tick, List.Forall₂ NoLooser s.positions t.positions)
      ⟨{ symbol := "BTCUSDT" }, [trailedPosition]⟩
      [flatBar 0 105 10, flatBar 60 (524 / 5) 20] := by
    decide +kernel
  exact hpairs (AlongRun.mono _ (fun _ _ htick => htick.1) h)

end Adjuster
end AdviserConstructor
