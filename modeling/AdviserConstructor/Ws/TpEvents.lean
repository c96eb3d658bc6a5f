import AdviserConstructor.Library.StepSystem
import AdviserConstructor.Ws.FillTally

/-!
# Fills and the events that describe them

One multi-TP position on an exchange that fills its take-profit orders.  A fill is described
twice, by order events that carry the id of the level's order and by position updates that report
the size behind it, and both kinds arrive at any time after the fill, any number of times, in any
order.  The partial-close reconciler fires when its delay has passed.  A run of `TpRun` is one
such interleaving; it is what the accounting and the reconciler are judged by.

Three components record what has happened, and no handler reads them: `fills` are the levels
that have filled, in order, `reported` the levels that an order event or the reconciler has
reported, in that order, and `shown` is the number of fills that the position updates show.

* `route_of_describesFill`: what a handler makes of an order event of a level.
-/

namespace AdviserConstructor

open PositionContext

/-- The event is a fill of the level `i` and of no other order of the position. -/
def describesFill (position : PositionContext) (event : OrderEvent) (i : ℕ) : Bool :=
  event.isFillEvent && event.orderType ∉ ["stop_loss", "trailing_stop"] &&
    position.slExchangeOrderId ≠ some event.orderIdentifier &&
    i < position.tpLevels.length &&
    position.tpLevels.zipIdx.all fun entry => carries event entry.1 = decide (entry.2 = i)

/-- The position behind a handler, with the cleanup. -/
def Handled.settled (handled : Handled) (answers : Answers) : PositionContext :=
  if handled.cleanup then handled.position.cancelRemaining answers else handled.position

/-- A multi-TP position, its reconciler, and the exchange. -/
structure TpRun where
  position : PositionContext
  reconciler : Option ℚ := none
  /-- the size of the position on the exchange -/
  exchangeSize : ℚ
  /-- the sizes that it has had, with the number of fills behind each -/
  sizes : List (ℚ × ℕ)
  fills : List ℕ := []
  reported : List ℕ := []
  shown : ℕ := 0
  /-- the remaining orders have been cancelled -/
  cleaned : Bool := false

/-- What happens next. -/
inductive TpEvent where
  /-- the take-profit order of a level fills -/
  | fill (level : ℕ)
  /-- an order event that describes the fill of a level -/
  | orderUpdate (level : ℕ) (event : OrderEvent) (answers : Answers)
  /-- a position update with a size that the position has, or has had -/
  | positionUpdate (size : ℚ) (answers : Answers)
  /-- the delay of the pending reconciler has passed -/
  | reconcile (answers : Answers)

namespace TpRun

/-- A fresh position at the start of its run. -/
def initial (start : PositionContext) : TpRun where
  position := start
  exchangeSize := start.originalQuantity
  sizes := [(start.originalQuantity, 0)]

/-- `get_position` in a state sync reports the size that the position has, or fails. -/
def Truthful (s : TpRun) (answers : Answers) : Prop :=
  match answers.sync with
  | .raised => True
  | .noPosition => s.exchangeSize = 0
  | .snapshot live => |live.size| = s.exchangeSize

instance (s : TpRun) (answers : Answers) : Decidable (s.Truthful answers) := by
  unfold Truthful
  split <;> infer_instance

def apply (s : TpRun) (answers : Answers) (handled : Handled) : TpRun :=
  { s with
    position := handled.settled answers
    reconciler := handled.reconciler
    cleaned := s.cleaned || handled.cleanup }

/-- Record that the level `i` has been reported. -/
def report (s : TpRun) (i : ℕ) : TpRun :=
  { s with reported := if i ∈ s.reported then s.reported else s.reported ++ [i] }

def step (s : TpRun) : TpEvent → Option TpRun
  | .fill i =>
      match s.position.tpLevels[i]? with
      | none => none
      | some level =>
          if i ∉ s.fills ∧ 0 < s.exchangeSize then
            let size := max (s.exchangeSize - MultiTp.levelQuantity s.position level) 0
            some
              { s with
                exchangeSize := size
                sizes := s.sizes ++ [(size, s.fills.length + 1)]
                fills := s.fills ++ [i] }
          else none
  | .orderUpdate i event answers =>
      if i ∈ s.fills ∧ describesFill s.position event i = true ∧ s.Truthful answers then
        some
          ((s.apply answers (s.position.routeLifecycleEvent answers event s.reconciler)).report i)
      else none
  | .positionUpdate size answers =>
      match s.sizes.find? fun entry => entry.1 = |size| with
      | none => none
      | some (_, shown) =>
          if s.Truthful answers then
            some
              { s.apply answers
                  (s.position.handlePositionUpdate answers size s.reconciler) with
                shown := max s.shown shown }
          else none
  | .reconcile answers =>
      match s.reconciler with
      | none => none
      | some deltaQty =>
          let reconciled :=
            s.apply answers (s.position.reconcilePartialClose answers deltaQty)
          if s.position.isLive then
            match s.position.closestOpenTpLevelByQty deltaQty with
            | some matched => some (reconciled.report matched)
            | none => some reconciled
          else some reconciled

end TpRun

/-! ## Order events of a level -/

section Describes

variable {position : PositionContext} {event : OrderEvent} {i : ℕ} {level : TPLevel}

theorem carries_iff_of_describesFill (h : describesFill position event i = true) {j : ℕ}
    (hj : position.tpLevels[j]? = some level) : carries event level = true ↔ j = i := by
  simp only [describesFill, Bool.and_eq_true, List.all_eq_true] at h
  have hentry := h.2 (level, j) (List.mem_zipIdx_iff_getElem?.mpr hj)
  simp only [decide_eq_true_eq] at hentry
  rw [hentry, decide_eq_true_eq]

theorem isTpTriggerEvent_of_describesFill (h : describesFill position event i = true) :
    position.isTpTriggerEvent event = true ∧ position.isSlTriggerEvent event = false := by
  have hcarries := fun j level hj => @carries_iff_of_describesFill position event i level h j hj
  simp only [describesFill, Bool.and_eq_true, decide_eq_true_eq] at h
  obtain ⟨⟨⟨⟨hfill, hkind⟩, hstop⟩, hlt⟩, -⟩ := h
  constructor
  · have hany : position.tpLevels.any (carries event) = true :=
      List.any_eq_true.mpr ⟨_, List.getElem_mem hlt,
        (hcarries i _ (List.getElem?_eq_getElem hlt)).mpr rfl⟩
    simp [isTpTriggerEvent, hfill, hany]
  · unfold isSlTriggerEvent
    rw [decide_eq_false hkind]
    cases hsl : position.slExchangeOrderId with
    | none => simp
    | some id =>
      have hne : event.orderIdentifier ≠ id := fun hsame => hstop (by rw [hsl, hsame])
      simp [hne]

theorem eventMatchesTriggeredLevel_of_describesFill (h : describesFill position event i = true)
    (hi : position.tpLevels[i]? = some level) :
    position.eventMatchesTriggeredLevel event = decide (level.status = .triggered) := by
  rw [Bool.eq_iff_iff, decide_eq_true_eq, eventMatchesTriggeredLevel, List.any_eq_true]
  constructor
  · rintro ⟨other, hmem, hother⟩
    obtain ⟨j, hj⟩ := List.getElem?_of_mem hmem
    simp only [Bool.and_eq_true, decide_eq_true_eq] at hother
    have hsame := (carries_iff_of_describesFill h hj).mp hother.2
    rw [hsame, hi] at hj
    rw [Option.some.inj hj]
    exact hother.1
  · intro htriggered
    refine ⟨level, List.mem_of_getElem? hi, ?_⟩
    simp [htriggered, (carries_iff_of_describesFill h hi).mpr rfl]

theorem matchTpLevel_of_describesFill (h : describesFill position event i = true)
    (hi : position.tpLevels[i]? = some level) (hopen : level.status ≠ .triggered) :
    position.matchTpLevel event = some i := by
  have hcarried := (carries_iff_of_describesFill h hi).mpr rfl
  have hids : event.ids ≠ [] := by
    intro hnil
    unfold carries at hcarried
    split at hcarried
    · simp [hnil] at hcarried
    · cases hcarried
  unfold matchTpLevel
  rw [if_pos hids, List.findIdx?_eq_some_iff_getElem]
  obtain ⟨hlt, hget⟩ := List.getElem?_eq_some_iff.mp hi
  refine ⟨hlt, by simp [hget, hopen, hcarried], fun j hj => ?_⟩
  have hjlt : j < position.tpLevels.length := hj.trans hlt
  have hnot := carries_iff_of_describesFill h (List.getElem?_eq_getElem hjlt)
  have hfalse : carries event position.tpLevels[j] = false := by
    rw [← Bool.not_eq_true, hnot]
    exact hj.ne
  simp [hfalse]

theorem route_eq_handleMultiTpEvent (answers : Answers) (reconciler : Option ℚ)
    (hstate : position.state ≠ .entering) (hmulti : position.tpMode = .multi)
    (h : describesFill position event i = true) (hi : position.tpLevels[i]? = some level) :
    position.routeLifecycleEvent answers event reconciler =
      position.handleMultiTpEvent answers event reconciler := by
  obtain ⟨htp, hsl⟩ := isTpTriggerEvent_of_describesFill h
  have hlevels : position.tpLevels ≠ [] := List.ne_nil_of_mem (List.mem_of_getElem? hi)
  simp [routeLifecycleEvent, handleEntryFillEvent, hstate, handleSlTriggeredEvent, hsl,
    handleTpTriggeredEvent, htp, hmulti, hlevels]

theorem route_of_first (answers : Answers) (reconciler : Option ℚ)
    (hstate : position.state ≠ .entering) (hmulti : position.tpMode = .multi)
    (h : describesFill position event i = true) (hi : position.tpLevels[i]? = some level)
    (hopen : level.status ≠ .triggered) :
    position.routeLifecycleEvent answers event reconciler =
      { position := position.fillPosition i
        reconciler := none
        tasks :=
          (MultiTp.handleTpTriggered position i "multi_tp" answers.live answers.now
            answers.nowMs).2.toList
        cleanup := (position.fillPosition i).state = .closed ||
          (position.fillPosition i).currentQuantity ≤ 0 } := by
  have htriggered := eventMatchesTriggeredLevel_of_describesFill h hi
  rw [decide_eq_false hopen] at htriggered
  rw [route_eq_handleMultiTpEvent answers reconciler hstate hmulti h hi, handleMultiTpEvent,
    htriggered, if_neg (by simp), matchTpLevel_of_describesFill h hi hopen]
  have hfst := handleTpTriggered_fst position i "multi_tp" answers.live answers.now answers.nowMs
  dsimp only
  rw [hfst]

/-- **An order event of a level** is a duplicate if the level is triggered, and processes the fill
otherwise; in both cases the reconciler is cancelled. -/
theorem route_of_describesFill (answers : Answers) (reconciler : Option ℚ)
    (hstate : position.state ≠ .entering) (hmulti : position.tpMode = .multi)
    (h : describesFill position event i = true) (hi : position.tpLevels[i]? = some level) :
    (position.routeLifecycleEvent answers event reconciler).reconciler = none ∧
      (position.routeLifecycleEvent answers event reconciler).settled answers =
        (if level.status = .triggered then position else position.processFill answers i) ∧
      ((position.routeLifecycleEvent answers event reconciler).cleanup = true →
        level.status ≠ .triggered ∧ ((position.fillPosition i).state = .closed ∨
          (position.fillPosition i).currentQuantity ≤ 0)) := by
  by_cases hstatus : level.status = .triggered
  · have htriggered := eventMatchesTriggeredLevel_of_describesFill h hi
    rw [route_eq_handleMultiTpEvent answers reconciler hstate hmulti h hi, handleMultiTpEvent,
      htriggered]
    simp [hstatus, Handled.settled]
  · rw [route_of_first answers reconciler hstate hmulti h hi hstatus]
    simp only [hstatus, if_false, Handled.settled, processFill, Bool.or_eq_true,
      decide_eq_true_eq]
    exact ⟨trivial, trivial, fun hcleanup => ⟨hstatus, hcleanup⟩⟩

end Describes

end AdviserConstructor
