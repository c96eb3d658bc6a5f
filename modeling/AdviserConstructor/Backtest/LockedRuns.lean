import AdviserConstructor.Backtest.Service
import AdviserConstructor.Backtest.FillPrices
import AdviserConstructor.Backtest.KnifeRequotes
import AdviserConstructor.Library.SlotRuns

/-!
# The side lock and a locked run

`_apply_ai_side_lock` lets an engine run without a lock, and drops the trades that were entered on a
bar whose lock forbids their side.  A locked run would not enter them: the engine would stay flat on
such a bar, and would be free to enter on a later one.  The knife catcher, the order-block engine
and the intraday engine hold one position at a time, so that a trade which the lock drops afterwards
has kept the slot from others; and the order-block engine does not enter a block again, the knife
catcher drops the order that is filled.

* `trades_result`: what the lock keeps are the trades of the engine that pass it.
* `models_atrMachine`, `models_knifeMachine`, `models_intradayMachine`: the engines are machines
  with a single slot, and their locked runs are those of the machines behind the gate of the lock.
* `equalsLockedRun_iff`: the kept trades are those of the locked run, which holds on every bar what
  the lock lets in of what the engine holds, exactly if the two take in the same on every bar.
-/

namespace AdviserConstructor

namespace Backtest

open LoopTurns SlotRuns

/-! ## Locked runs -/

/-- The lock of the bar of an entry lets its side in. -/
def letsIn (df : Frame) (locks : List AiSideLock) (side : Side) (entryI : ℕ) : Bool :=
  sideAllowed side (lockAt df locks (df.bar entryI).time)

/-- The body of the loop of `atr_ob_backtest`, where an entry that the lock forbids is not taken. -/
def lockedAtrObBar (p : AtrObParams) (df : Frame) (locks : List AiSideLock) (st : AtrObState)
    (i : ℕ) : AtrObState :=
  match st.position with
  | some _ => atrObBar p df st i
  | none =>
      match entryRule p df i with
      | none => st
      | some (block, pos) =>
          if p.oneTradePerOb ∧ block ∈ st.usedOb then st
          else if letsIn df locks .long pos.entryI then
            { st with position := some pos, usedOb := st.usedOb ++ [block] }
          else st

/-- The body of the loop of `knife_catcher_backtest`, where an order whose fill the lock forbids is
not filled. -/
def lockedKnifeBar (p : KnifeParams) (df : Frame) (locks : List AiSideLock) (st : KnifeState)
    (i : ℕ) : KnifeState :=
  match st.position with
  | some _ => knifeBar p df st i
  | none =>
      let pending := requote p st.pending (knifeSignal p df i)
      match (pending.bind (fillKnife p (df.bar (i + 1)) (i + 1))).filter fun pos =>
          letsIn df locks p.side pos.entryI with
      | some pos => { st with pending := none, position := some pos }
      | none => { st with pending := pending }

/-- The body of the loop of `intraday_momentum_backtest`, where an entry that the lock forbids is
not taken. -/
def lockedIntradayBar (p : IntradayParams) (df : Frame) (atr : ℕ → Num) (locks : List AiSideLock)
    (st : IntradayState) (i : ℕ) : IntradayState :=
  let next := intradayBar p df atr st i
  match st.position with
  | some _ => next
  | none =>
      { next with position := next.position.filter fun pos => letsIn df locks p.side pos.entryI }

/-- A run of an engine that the side lock is applied to. -/
inductive LockableRun where
  | atrOrderBlock (p : AtrObParams) (df : Frame)
  | knifeCatcher (p : KnifeParams) (df : Frame)
  | intradayMomentum (p : IntradayParams) (df : Frame) (atr : ℕ → Num)

namespace LockableRun

def engine : LockableRun → EngineRun
  | .atrOrderBlock p df => .atrOrderBlock p df
  | .knifeCatcher p df => .knifeCatcher p df
  | .intradayMomentum p df atr => .intradayMomentum p df atr

def balance : LockableRun → ℚ
  | .atrOrderBlock p _ => p.allocationUsdt
  | .knifeCatcher p _ => p.accountBalance
  | .intradayMomentum p _ _ => p.allocationUsdt

/-- The trades of the locked run, without costs. -/
def lockedGross (locks : List AiSideLock) : LockableRun → List TradeRow
  | .atrOrderBlock p df =>
      ((List.range' 1 (df.length - 1)).foldl (lockedAtrObBar p df locks) {}).trades
  | .knifeCatcher p df => ((List.range (df.length - 1)).foldl (lockedKnifeBar p df locks) {}).trades
  | .intradayMomentum p df atr =>
      ((List.range' (intradayStart p) (df.length - 1 - intradayStart p)).foldl
        (lockedIntradayBar p df atr locks) {}).trades

def lockedResult (run : LockableRun) (locks : List AiSideLock) : EngineResult :=
  finishEngine (run.lockedGross locks) run.engine.charged run.balance

/-- On every bar the locked run holds what the lock lets in of what the engine holds. -/
def HoldsWhatIsLetIn (locks : List AiSideLock) : LockableRun → Prop
  | .atrOrderBlock p df =>
      ((List.range' 1 (df.length - 1)).scanl (lockedAtrObBar p df locks) {}).map
          AtrObState.position =
        ((List.range' 1 (df.length - 1)).scanl (atrObBar p df) {}).map fun st =>
          st.position.filter fun pos => letsIn df locks .long pos.entryI
  | .knifeCatcher p df =>
      ((List.range (df.length - 1)).scanl (lockedKnifeBar p df locks) {}).map KnifeState.position =
        ((List.range (df.length - 1)).scanl (knifeBar p df) {}).map fun st =>
          st.position.filter fun pos => letsIn df locks p.side pos.entryI
  | .intradayMomentum p df atr =>
      ((List.range' (intradayStart p) (df.length - 1 - intradayStart p)).scanl
          (lockedIntradayBar p df atr locks) {}).map IntradayState.position =
        ((List.range' (intradayStart p) (df.length - 1 - intradayStart p)).scanl
          (intradayBar p df atr) {}).map fun st =>
            st.position.filter fun pos => letsIn df locks p.side pos.entryI

end LockableRun

/-- The locks of an overlay; without an overlay no bar is locked. -/
def overlayLocks (overlay : Option (List OverlayBar)) : List AiSideLock :=
  (overlay.getD []).map OverlayBar.sideLock

/-- The trades that the side lock keeps are the trades of the locked run, and the locked run is flat
exactly where the engine is flat or holds a trade that the lock forbids. -/
structure EqualsLockedRun (run : LockableRun) (overlay : Option (List OverlayBar)) : Prop where
  trades : (ServiceRun.result { run := run.engine, lock := overlay }).trades =
    (run.lockedResult (overlayLocks overlay)).trades
  slots : run.HoldsWhatIsLetIn (overlayLocks overlay)

/-! ## The engines as machines with one slot -/

/-- The order-block engine: its memory are the blocks that it has used. -/
def atrMachine (p : AtrObParams) (df : Frame) :
    Machine ℕ (List BullBlock) AtrPosition TradeRow where
  enter used i := (entryRule p df i).bind fun entry =>
    if p.oneTradePerOb ∧ entry.1 ∈ used then none else some (entry.2, used ++ [entry.1])
  pass used _ := used
  serve pos i :=
    if (df.bar i).low ≤ pos.sl then .inr (atrTrade p df pos.stopped i .sl)
    else if (pos.reach (df.bar i).high).targets.all Target.hit then
      .inr (atrTrade p df (pos.reach (df.bar i).high) i .tp)
    else .inl (pos.reach (df.bar i).high)

/-- The knife catcher: its memory is the order that is pending. -/
def knifeMachine (p : KnifeParams) (df : Frame) :
    Machine ℕ (Option PendingKnife) OpenKnife TradeRow where
  enter pending i := ((requote p pending (knifeSignal p df i)).bind
    (fillKnife p (df.bar (i + 1)) (i + 1))).map fun pos => (pos, none)
  pass pending i := requote p pending (knifeSignal p df i)
  serve pos i :=
    (knifeExit p.side pos (df.bar i)).elim (.inl pos) fun x => .inr (knifeTrade p df pos i x.1 x.2)

/-- The entry of the intraday engine on bar `i`, which it skips unless the ATR is positive. -/
def intradayEntryOn (p : IntradayParams) (df : Frame) (atr : ℕ → Num) (i : ℕ) :
    Option IntradayPosition :=
  ((atr i).filter (0 < ·)).bind (intradayEntry p df i)

/-- The intraday engine, which remembers nothing. -/
def intradayMachine (p : IntradayParams) (df : Frame) (atr : ℕ → Num) :
    Machine ℕ Unit IntradayPosition TradeRow where
  enter _ i := (intradayEntryOn p df atr i).map fun pos => (pos, ())
  pass _ _ := ()
  serve pos i :=
    (((atr i).filter (0 < ·)).bind fun _ => intradayExit p df pos i).elim (.inl pos) fun x =>
      .inr (intradayTrade p df pos i x.1 x.2)

/-- The states of the engines, as those of the machines.  The knife catcher has no order while it
holds a position. -/
def AtrObState.view (st : AtrObState) : Run (List BullBlock) AtrPosition TradeRow where
  memory := st.usedOb
  slot := st.position
  log := st.trades

def KnifeState.view (st : KnifeState) : Run (Option PendingKnife) OpenKnife TradeRow where
  memory := if st.position.isSome then none else st.pending
  slot := st.position
  log := st.trades

def IntradayState.view (st : IntradayState) : Run Unit IntradayPosition TradeRow where
  memory := ()
  slot := st.position
  log := st.trades

section

variable {df : Frame} {locks : List AiSideLock}

/-! ### The order-block engine -/

theorem enter_atrMachine_of_none {p : AtrObParams} (used : List BullBlock) {i : ℕ}
    (hentry : entryRule p df i = none) : (atrMachine p df).enter used i = none := by
  show (entryRule p df i).bind _ = _
  rw [hentry]
  rfl

theorem enter_atrMachine_of_used {p : AtrObParams} {used : List BullBlock} {i : ℕ}
    {block : BullBlock} {pos : AtrPosition} (hentry : entryRule p df i = some (block, pos))
    (hused : p.oneTradePerOb ∧ block ∈ used) : (atrMachine p df).enter used i = none := by
  show (entryRule p df i).bind _ = _
  rw [hentry]
  exact if_pos hused

theorem enter_atrMachine_of_unused {p : AtrObParams} {used : List BullBlock} {i : ℕ}
    {block : BullBlock} {pos : AtrPosition} (hentry : entryRule p df i = some (block, pos))
    (hused : ¬(p.oneTradePerOb ∧ block ∈ used)) :
    (atrMachine p df).enter used i = some (pos, used ++ [block]) := by
  show (entryRule p df i).bind _ = _
  rw [hentry]
  exact if_neg hused

/-- The order-block engine is its machine. -/
theorem models_atrMachine (p : AtrObParams) (df : Frame) :
    (atrMachine p df).Models AtrObState.view (atrObBar p df) := by
  rintro ⟨position, used, trades⟩ i
  cases position with
  | none =>
    show AtrObState.view (match entryRule p df i with | none => _ | some (block, pos) => _) = _
    cases hentry : entryRule p df i with
    | none => exact (Machine.step_of_passes (enter_atrMachine_of_none used hentry)).symm
    | some entry =>
      obtain ⟨block, pos⟩ := entry
      show AtrObState.view (if p.oneTradePerOb ∧ block ∈ used then _ else _) = _
      by_cases hused : p.oneTradePerOb = true ∧ block ∈ used
      · rw [if_pos hused]
        exact (Machine.step_of_passes (enter_atrMachine_of_used hentry hused)).symm
      · rw [if_neg hused]
        exact (Machine.step_of_enters (enter_atrMachine_of_unused hentry hused)).symm
  | some pos =>
    show AtrObState.view (if (df.bar i).low ≤ pos.sl then _ else _) = _
    by_cases hstop : (df.bar i).low ≤ pos.sl
    · have hserve : (atrMachine p df).serve pos i = .inr (atrTrade p df pos.stopped i .sl) :=
        if_pos hstop
      rw [if_pos hstop]
      exact (Machine.step_of_leaves (r := ⟨used, some pos, trades⟩) rfl hserve).symm
    · rw [if_neg hstop]
      show AtrObState.view (if (pos.reach (df.bar i).high).targets.all Target.hit then _ else _) = _
      by_cases hall : (pos.reach (df.bar i).high).targets.all Target.hit = true
      · have hserve : (atrMachine p df).serve pos i =
            .inr (atrTrade p df (pos.reach (df.bar i).high) i .tp) :=
          (if_neg hstop).trans (if_pos hall)
        rw [if_pos hall]
        exact (Machine.step_of_leaves (r := ⟨used, some pos, trades⟩) rfl hserve).symm
      · have hserve : (atrMachine p df).serve pos i = .inl (pos.reach (df.bar i).high) :=
          (if_neg hstop).trans (if_neg hall)
        rw [if_neg hall]
        exact (Machine.step_of_stays (r := ⟨used, some pos, trades⟩) rfl hserve).symm

theorem models_lockedAtrObBar (p : AtrObParams) (df : Frame) (locks : List AiSideLock) :
    ((atrMachine p df).gated fun pos => letsIn df locks .long pos.entryI).Models AtrObState.view
      (lockedAtrObBar p df locks) := by
  rintro ⟨position, used, trades⟩ i
  cases position with
  | none =>
    show AtrObState.view (match entryRule p df i with | none => _ | some (block, pos) => _) = _
    cases hentry : entryRule p df i with
    | none =>
      have henter := enter_atrMachine_of_none used hentry
      exact (Machine.step_of_passes (Machine.enter_gated_of_none henter)).symm
    | some entry =>
      obtain ⟨block, pos⟩ := entry
      show AtrObState.view (if p.oneTradePerOb ∧ block ∈ used then _ else _) = _
      by_cases hused : p.oneTradePerOb = true ∧ block ∈ used
      · have henter := enter_atrMachine_of_used hentry hused
        rw [if_pos hused]
        exact (Machine.step_of_passes (Machine.enter_gated_of_none henter)).symm
      · have henter := enter_atrMachine_of_unused hentry hused
        rw [if_neg hused]
        by_cases hlets : letsIn df locks .long pos.entryI = true
        · rw [if_pos hlets]
          exact (Machine.step_of_enters (Machine.enter_gated_of_let_in henter hlets)).symm
        · rw [if_neg hlets]
          exact (Machine.step_of_passes (Machine.enter_gated_of_refused henter hlets)).symm
  | some pos => exact models_atrMachine p df ⟨some pos, used, trades⟩ i

theorem respects_atrMachine (p : AtrObParams) (df : Frame) (locks : List AiSideLock) :
    (atrMachine p df).Respects (fun pos => letsIn df locks .long pos.entryI)
      (isKept df locks) := by
  have hserve : ∀ pos i, (atrMachine p df).serve pos i =
      if (df.bar i).low ≤ pos.sl then .inr (atrTrade p df pos.stopped i .sl)
      else if (pos.reach (df.bar i).high).targets.all Target.hit then
        .inr (atrTrade p df (pos.reach (df.bar i).high) i .tp)
      else .inl (pos.reach (df.bar i).high) := fun _ _ => rfl
  constructor
  · intro pos i pos' h
    rw [hserve] at h
    split_ifs at h
    obtain rfl := Sum.inl.inj h
    rfl
  · intro pos i t h
    rw [hserve] at h
    split_ifs at h
    · obtain rfl := Sum.inr.inj h
      rfl
    · obtain rfl := Sum.inr.inj h
      rfl

/-! ### The knife catcher -/

/-- The knife catcher is its machine. -/
theorem models_knifeMachine (p : KnifeParams) (df : Frame) :
    (knifeMachine p df).Models KnifeState.view (knifeBar p df) := by
  rintro ⟨pending, position, trades⟩ i
  cases position with
  | none =>
    have hsignal : (if passesFilters p (df.bar i) then calcSignal p (df.bar i) else none) =
        knifeSignal p df i := rfl
    dsimp only [knifeBar]
    rw [hsignal]
    cases hfill : (requote p pending (knifeSignal p df i)).bind
        (fillKnife p (df.bar (i + 1)) (i + 1)) with
    | none =>
      have henter : (knifeMachine p df).enter pending i = none := by
        show Option.map _ ((requote p pending (knifeSignal p df i)).bind _) = _
        rw [hfill]
        rfl
      exact (Machine.step_of_passes henter).symm
    | some pos =>
      have henter : (knifeMachine p df).enter pending i = some (pos, none) := by
        show Option.map _ ((requote p pending (knifeSignal p df i)).bind _) = _
        rw [hfill]
        rfl
      exact (Machine.step_of_enters henter).symm
  | some pos =>
    dsimp only [knifeBar]
    cases hexit : knifeExit p.side pos (df.bar i) with
    | none =>
      have hserve : (knifeMachine p df).serve pos i = .inl pos := by
        show (knifeExit p.side pos (df.bar i)).elim _ _ = _
        rw [hexit]
        rfl
      exact (Machine.step_of_stays (r := ⟨none, some pos, trades⟩) rfl hserve).symm
    | some x =>
      obtain ⟨reason, price⟩ := x
      have hserve : (knifeMachine p df).serve pos i =
          .inr (knifeTrade p df pos i reason price) := by
        show (knifeExit p.side pos (df.bar i)).elim _ _ = _
        rw [hexit]
        rfl
      exact (Machine.step_of_leaves (r := ⟨none, some pos, trades⟩) rfl hserve).symm

theorem models_lockedKnifeBar (p : KnifeParams) (df : Frame) (locks : List AiSideLock) :
    ((knifeMachine p df).gated fun pos => letsIn df locks p.side pos.entryI).Models KnifeState.view
      (lockedKnifeBar p df locks) := by
  rintro ⟨pending, position, trades⟩ i
  cases position with
  | none =>
    have henter : ((knifeMachine p df).gated fun pos => letsIn df locks p.side pos.entryI).enter
        pending i = (((requote p pending (knifeSignal p df i)).bind
          (fillKnife p (df.bar (i + 1)) (i + 1))).filter fun pos =>
            letsIn df locks p.side pos.entryI).map fun pos => (pos, none) := Option.filter_map ..
    show KnifeState.view (match ((requote p pending (knifeSignal p df i)).bind
      (fillKnife p (df.bar (i + 1)) (i + 1))).filter _ with | some pos => _ | none => _) = _
    cases hfill : ((requote p pending (knifeSignal p df i)).bind
        (fillKnife p (df.bar (i + 1)) (i + 1))).filter fun pos =>
          letsIn df locks p.side pos.entryI with
    | none =>
      rw [hfill] at henter
      exact (Machine.step_of_passes henter).symm
    | some pos =>
      rw [hfill] at henter
      exact (Machine.step_of_enters henter).symm
  | some pos => exact models_knifeMachine p df ⟨pending, some pos, trades⟩ i

theorem respects_knifeMachine (p : KnifeParams) (df : Frame) (locks : List AiSideLock) :
    (knifeMachine p df).Respects (fun pos => letsIn df locks p.side pos.entryI)
      (isKept df locks) :=
  @Machine.respects_of_exit _ _ _ _ _ _ _ _ (fun pos i => knifeExit p.side pos (df.bar i))
    (fun pos i x => knifeTrade p df pos i x.1 x.2) (fun _ _ => rfl) fun _ _ _ => rfl

/-! ### The intraday engine -/

theorem intradayBar_eq (p : IntradayParams) (df : Frame) (atr : ℕ → Num) (st : IntradayState)
    (i : ℕ) :
    intradayBar p df atr st i =
      match (atr i).filter (0 < ·) with
      | none => st
      | some a =>
          match st.position with
          | none => { st with position := intradayEntry p df i a }
          | some pos =>
              match intradayExit p df pos i with
              | none => st
              | some (reason, price) =>
                  { position := none
                    trades := st.trades ++ [intradayTrade p df pos i reason price] } := by
  rw [intradayBar]
  cases hatr : atr i with
  | none => rfl
  | some a =>
    dsimp only
    by_cases hpos : a ≤ 0
    · rw [if_pos hpos, Option.filter_some, if_neg (by simpa using hpos)]
    · have hfilter : (some a).filter (0 < ·) = some a := by
        rw [Option.filter_some, if_pos (by simpa using hpos)]
      exact (if_neg hpos).trans (hfilter.symm ▸ rfl)

/-- The intraday engine is its machine. -/
theorem models_intradayMachine (p : IntradayParams) (df : Frame) (atr : ℕ → Num) :
    (intradayMachine p df atr).Models IntradayState.view (intradayBar p df atr) := by
  rintro ⟨position, trades⟩ i
  rw [intradayBar_eq]
  cases position with
  | none =>
    have henter : (intradayMachine p df atr).enter () i =
        (((atr i).filter (0 < ·)).bind (intradayEntry p df i)).map fun pos => (pos, ()) := rfl
    cases hatr : (atr i).filter (0 < ·) with
    | none =>
      rw [hatr] at henter
      exact (Machine.step_of_passes henter).symm
    | some a =>
      rw [hatr, Option.bind_some] at henter
      show IntradayState.view { position := intradayEntry p df i a, trades := trades } = _
      cases hentry : intradayEntry p df i a with
      | none =>
        rw [hentry] at henter
        exact (Machine.step_of_passes henter).symm
      | some pos =>
        rw [hentry] at henter
        exact (Machine.step_of_enters henter).symm
  | some pos =>
    have hserve : (intradayMachine p df atr).serve pos i =
        (((atr i).filter (0 < ·)).bind fun _ => intradayExit p df pos i).elim (.inl pos) fun x =>
          .inr (intradayTrade p df pos i x.1 x.2) := rfl
    cases hatr : (atr i).filter (0 < ·) with
    | none =>
      rw [hatr] at hserve
      exact (Machine.step_of_stays (r := ⟨(), some pos, trades⟩) rfl hserve).symm
    | some a =>
      rw [hatr] at hserve
      show IntradayState.view (match intradayExit p df pos i with
        | none => _ | some (reason, price) => _) = _
      cases hexit : intradayExit p df pos i with
      | none =>
        rw [hexit] at hserve
        exact (Machine.step_of_stays (r := ⟨(), some pos, trades⟩) rfl hserve).symm
      | some x =>
        rw [hexit] at hserve
        exact (Machine.step_of_leaves (r := ⟨(), some pos, trades⟩) rfl hserve).symm

theorem intradayBar_of_free (p : IntradayParams) (df : Frame) (atr : ℕ → Num)
    (trades : List TradeRow) (i : ℕ) :
    intradayBar p df atr { position := none, trades := trades } i =
      { position := intradayEntryOn p df atr i, trades := trades } := by
  rw [intradayBar_eq, intradayEntryOn]
  cases (atr i).filter (0 < ·) with
  | none => rfl
  | some a => rfl

theorem models_lockedIntradayBar (p : IntradayParams) (df : Frame) (atr : ℕ → Num)
    (locks : List AiSideLock) :
    ((intradayMachine p df atr).gated fun pos => letsIn df locks p.side pos.entryI).Models
      IntradayState.view (lockedIntradayBar p df atr locks) := by
  rintro ⟨position, trades⟩ i
  cases position with
  | none =>
    have henter : ((intradayMachine p df atr).gated fun pos =>
        letsIn df locks p.side pos.entryI).enter () i =
          ((intradayEntryOn p df atr i).filter fun pos => letsIn df locks p.side pos.entryI).map
            fun pos => (pos, ()) := Option.filter_map ..
    have hbar : lockedIntradayBar p df atr locks { position := none, trades := trades } i =
        { position := (intradayEntryOn p df atr i).filter fun pos =>
            letsIn df locks p.side pos.entryI
          trades := trades } := by
      rw [lockedIntradayBar]
      rw [intradayBar_of_free]
    rw [hbar]
    cases hentry : (intradayEntryOn p df atr i).filter fun pos =>
        letsIn df locks p.side pos.entryI with
    | none =>
      rw [hentry] at henter
      exact (Machine.step_of_passes henter).symm
    | some pos =>
      rw [hentry] at henter
      exact (Machine.step_of_enters henter).symm
  | some pos => exact models_intradayMachine p df atr ⟨some pos, trades⟩ i

theorem respects_intradayMachine (p : IntradayParams) (df : Frame) (atr : ℕ → Num)
    (locks : List AiSideLock) :
    (intradayMachine p df atr).Respects (fun pos => letsIn df locks p.side pos.entryI)
      (isKept df locks) :=
  @Machine.respects_of_exit _ _ _ _ _ _ _ _
    (fun pos i => ((atr i).filter (0 < ·)).bind fun _ => intradayExit p df pos i)
    (fun pos i x => intradayTrade p df pos i x.1 x.2) (fun _ _ => rfl) fun _ _ _ => rfl

end

/-! ## What the lock keeps -/

section

variable {df : Frame} {locks : List AiSideLock} {overlay : Option (List OverlayBar)}
  {trades : List TradeRow} {cost : CostModel}

theorem isKept_of_all_none (hnone : (locks.all fun lock => decide (lock = .none)) = true)
    (t : TradeRow) : isKept df locks t = true := by
  rw [isKept, lockAt_of_all_none hnone]
  rfl

theorem trades_applyAiSideLock (result : EngineResult)
    (hresult : ∀ t ∈ result.trades, t.withRMultiple = t) :
    (applyAiSideLock df overlay result).trades =
      result.trades.filter (isKept df (overlayLocks overlay)) := by
  cases overlay with
  | none => exact (List.filter_eq_self.mpr fun t _ => isKept_of_all_none rfl t).symm
  | some bars =>
    show _ = result.trades.filter (isKept df (bars.map OverlayBar.sideLock))
    rw [applyAiSideLock]
    dsimp only
    split_ifs with hnone hlength
    · exact (List.filter_eq_self.mpr fun t _ => isKept_of_all_none hnone t).symm
    · exact (List.filter_sublist.eq_of_length hlength).symm
    · show (result.trades.filter _).map TradeRow.withRMultiple = _
      refine (List.map_congr_left fun t ht => ?_).trans (List.map_id _)
      exact hresult t (List.mem_of_mem_filter ht)

theorem filter_applyCostModel :
    ((applyCostModel trades cost).map TradeRow.withRMultiple).filter (isKept df locks) =
      (applyCostModel (trades.filter (isKept df locks)) cost).map TradeRow.withRMultiple := by
  rw [List.filter_map, applyCostModel, applyCostModel]
  have hmultiple : isKept df locks ∘ TradeRow.withRMultiple = isKept df locks := rfl
  rw [hmultiple]
  by_cases hzero : cost.isZero = true
  · rw [if_pos hzero, if_pos hzero]
  · have hnet : isKept df locks ∘ TradeRow.netOf cost = isKept df locks := by
      funext t
      obtain ⟨paid, pnl, hnet⟩ := netOf_frame cost t
      rw [Function.comp_apply, hnet]
      rfl
    rw [if_neg hzero, if_neg hzero, List.filter_map, hnet]

end

namespace LockableRun

variable (run : LockableRun) (overlay : Option (List OverlayBar))

/-- **What the lock keeps** of a run are the trades of the engine that pass it, after the costs. -/
theorem trades_result :
    (ServiceRun.result { run := run.engine, lock := overlay }).trades =
      (applyCostModel (run.engine.gross.filter (isKept run.engine.frame (overlayLocks overlay)))
        run.engine.charged).map TradeRow.withRMultiple := by
  have hresult : ServiceRun.result { run := run.engine, lock := overlay } =
      applyAiSideLock run.engine.frame overlay run.engine.result := by
    cases run with
    | atrOrderBlock p df => rfl
    | knifeCatcher p df => rfl
    | intradayMomentum p df atr => rfl
  have hmultiple : ∀ t ∈ run.engine.result.trades, t.withRMultiple = t := by
    intro t ht
    rw [run.engine.trades_result] at ht
    obtain ⟨u, _, rfl⟩ := List.mem_map.mp ht
    rfl
  rw [hresult, trades_applyAiSideLock _ hmultiple, run.engine.trades_result, filter_applyCostModel]

/-- No entry that the lock lets in is hidden by a trade that it forbids: on every bar on which the
locked run would be flat, it would enter what the lock lets in of what the engine enters.  The
blocks that the locked run has used, and the order that it has pending, are followed beside the
engine. -/
def NothingHidden (locks : List AiSideLock) : LockableRun → Prop
  | .atrOrderBlock p df => (atrMachine p df).AgreesThroughout
      (fun pos => letsIn df locks .long pos.entryI) [] (List.range' 1 (df.length - 1))
  | .knifeCatcher p df => (knifeMachine p df).AgreesThroughout
      (fun pos => letsIn df locks p.side pos.entryI) none (List.range (df.length - 1))
  | .intradayMomentum p df atr => (intradayMachine p df atr).AgreesThroughout
      (fun pos => letsIn df locks p.side pos.entryI) ()
      (List.range' (intradayStart p) (df.length - 1 - intradayStart p))

variable {run} {locks : List AiSideLock}

theorem holdsWhatIsLetIn_iff : run.HoldsWhatIsLetIn locks ↔ run.NothingHidden locks := by
  cases run with
  | atrOrderBlock p df =>
    exact slots_loop_iff (respects_atrMachine p df locks) (models_atrMachine p df)
      (models_lockedAtrObBar p df locks) rfl _
  | knifeCatcher p df =>
    exact slots_loop_iff (respects_knifeMachine p df locks) (models_knifeMachine p df)
      (models_lockedKnifeBar p df locks) rfl _
  | intradayMomentum p df atr =>
    exact slots_loop_iff (respects_intradayMachine p df atr locks)
      (models_intradayMachine p df atr) (models_lockedIntradayBar p df atr locks) rfl _

theorem lockedGross_of_nothingHidden (h : run.NothingHidden locks) :
    run.lockedGross locks = run.engine.gross.filter (isKept run.engine.frame locks) := by
  cases run with
  | atrOrderBlock p df =>
    exact log_loop_of_agrees (respects_atrMachine p df locks) (models_atrMachine p df)
      (models_lockedAtrObBar p df locks) rfl h
  | knifeCatcher p df =>
    exact log_loop_of_agrees (respects_knifeMachine p df locks) (models_knifeMachine p df)
      (models_lockedKnifeBar p df locks) rfl h
  | intradayMomentum p df atr =>
    exact log_loop_of_agrees (respects_intradayMachine p df atr locks)
      (models_intradayMachine p df atr) (models_lockedIntradayBar p df atr locks) rfl h

end LockableRun

/-- **The side lock equals a locked run**, trade by trade and bar by bar, exactly if no trade that
the lock forbids hides an entry that it lets in. -/
theorem equalsLockedRun_iff (run : LockableRun) (overlay : Option (List OverlayBar)) :
    EqualsLockedRun run overlay ↔ run.NothingHidden (overlayLocks overlay) := by
  constructor
  · exact fun h => LockableRun.holdsWhatIsLetIn_iff.mp h.slots
  · intro h
    refine ⟨?_, LockableRun.holdsWhatIsLetIn_iff.mpr h⟩
    rw [LockableRun.trades_result, ← LockableRun.lockedGross_of_nothingHidden h]
    rfl

/-- Bar 1 fills an order, whose position is held up to its target on bar 4; so would be the one that
bar 3 fills. -/
def hidingFrame : Frame :=
  [⟨0, 100, 100, 99, 995 / 10, 0⟩, ⟨1, 994 / 10, 995 / 10, 993 / 10, 994 / 10, 0⟩,
    ⟨2, 997 / 10, 997 / 10, 991 / 10, 992 / 10, 0⟩, ⟨3, 993 / 10, 995 / 10, 992 / 10, 994 / 10, 0⟩,
    ⟨4, 995 / 10, 100, 994 / 10, 100, 0⟩, ⟨5, 100, 100, 100, 100, 0⟩]

/-- The overlay of a bear forecast that is made for bar 1 alone. -/
def hidingOverlay : List OverlayBar :=
  ⟨.flat, false, false, none, none⟩ :: ⟨.bear, true, true, some 1, some 1⟩ ::
    List.replicate 4 ⟨.flat, false, false, some 1, some 1⟩

def hidingRun : LockableRun :=
  .knifeCatcher { useMaxRangeFilter := false, useWickFilter := false } hidingFrame

/-- The lock drops the only trade of the engine, and the locked run has another one. -/
theorem not_equalsLockedRun_hidingRun :
    ¬∀ (run : LockableRun) (overlay : Option (List OverlayBar)),
      (ServiceRun.result { run := run.engine, lock := overlay }).trades =
        (run.lockedResult (overlayLocks overlay)).trades := by
  intro h
  have hlength := congrArg List.length (h hidingRun (some hidingOverlay))
  revert hlength
  decide +kernel

end Backtest

end AdviserConstructor
