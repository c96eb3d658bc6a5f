import AdviserConstructor.Library.Slots
import AdviserConstructor.AutoTrade.RiskEngine
import AdviserConstructor.Library.StepSystem

/-!
# The caps of a portfolio

Entries that `check_pre_trade` of `app/services/auto_trade/risk/engine.py` has let through, and
closings, one after the other.  The caps on the open positions, on those of a symbol and on the
exposure stand in the risk row of a configuration, but count the positions of its user, so that
they are caps of the portfolio where the configurations of the user share them.

* `withinCaps_of_run`: they hold in every state that is reached if every configuration of the user
  has them in a risk row that is on, and a blocked entry stays blocked.
* `exceeds_withRowOff`: a risk row that is off has the same caps and lets its entries through.

A check and the opening behind it are one step, as in the signal queue of a single configuration.
-/

namespace AdviserConstructor

/-! ## Entries and closings -/

/-- An entry: what it is judged by, and the columns that the opening writes.  The configuration has
a positive size, as its table checks. -/
structure PortfolioEntry where
  preTrade : PreTrade
  columns : Row
  positive : 0 < preTrade.config.positionSizeUsdt

/-- The row of the position that an entry opens. -/
def PortfolioEntry.openedRow (e : PortfolioEntry) (side : PositionSide) : PositionRow :=
  { e.columns with
    symbol := e.preTrade.executionSymbol
    side := side
    userId := e.preTrade.config.userId
    configId := e.preTrade.config.id
    profileId := e.preTrade.config.profileId
    accountId := e.preTrade.config.accountId
    status := .open
    positionSizeUsdt := e.preTrade.config.positionSizeUsdt
    leverage := e.preTrade.config.leverage.toNat }

/-- What happens to the positions. -/
inductive PortfolioEvent where
  | enter (e : PortfolioEntry)
  | close (index : ℕ) (failed : Bool)

/-- The row of a position that is closed. -/
def closedRow (failed : Bool) (p : PositionRow) : PositionRow :=
  { p with status := if failed then .error else .closed }

/-- An entry that is let through is opened, and a position is closed. -/
def portfolioStep (table : PositionTable) : PortfolioEvent → Option PositionTable
  | .enter e =>
      match e.preTrade.signal.trend.entrySide with
      | none => none
      | some side =>
          if (checkPreTrade table.rows e.preTrade).allowed then
            some
              { rows := table.rows ++ [e.openedRow side]
                positive := by
                  intro p hp
                  rcases List.mem_append.mp hp with hp | hp
                  · exact table.positive p hp
                  · rw [List.mem_singleton.mp hp]
                    exact e.positive }
          else none
  | .close index failed =>
      some
        { rows := table.rows.modify index (closedRow failed)
          positive := by
            intro p hp
            obtain ⟨q, hq, rfl | rfl⟩ := List.mem_modify hp
            · exact table.positive _ hq
            · have hsize : 0 < q.positionSizeUsdt := table.positive q hq
              exact hsize }

/-! ## The caps -/

/-- The caps that the configurations of a user share.  They are positive, as the table of the risk
rows checks. -/
structure SharedCaps where
  maxOpenPositions : Option ℤ
  maxOpenPositionsPerSymbol : Option ℤ
  exposureCapUsdt : Option ℚ
  blockOpposite : Bool
  maxOpenPositions_pos : ∀ n ∈ maxOpenPositions, 1 ≤ n
  maxOpenPositionsPerSymbol_pos : ∀ n ∈ maxOpenPositionsPerSymbol, 1 ≤ n
  exposureCapUsdt_pos : ∀ cap ∈ exposureCapUsdt, 0 < cap

/-- The open positions of a user keep the caps. -/
structure WithinCaps (caps : SharedCaps) (held : List PositionRow) : Prop where
  count : ∀ n ∈ caps.maxOpenPositions, (held.length : ℤ) ≤ n
  perSymbol : ∀ n ∈ caps.maxOpenPositionsPerSymbol, ∀ symbol,
    ((held.filter fun p => p.symbol = symbol).length : ℤ) ≤ n
  exposure : ∀ cap ∈ caps.exposureCapUsdt, (held.map PositionRow.positionSizeUsdt).sum ≤ cap
  oneSided : caps.blockOpposite = true → ∀ p ∈ held, ∀ q ∈ held, p.symbol = q.symbol →
    p.side = .long → q.side ≠ .short

/-- An entry of the user has the caps in its risk row. -/
def SharesCaps (caps : SharedCaps) (userId : ℕ) : PortfolioEvent → Prop
  | .close _ _ => True
  | .enter e =>
      e.preTrade.config.userId = userId →
        ∃ risk, e.preTrade.riskCfg = some risk ∧
          risk.maxOpenPositions = caps.maxOpenPositions ∧
          risk.maxOpenPositionsPerSymbol = caps.maxOpenPositionsPerSymbol ∧
          risk.exposureCapUsdt = caps.exposureCapUsdt ∧
          (caps.blockOpposite = true → risk.conflictingSignalPolicy = .blockOpposite)

/-- The risk row of an entry of the user is on. -/
def RowOn (userId : ℕ) : PortfolioEvent → Prop
  | .close _ _ => True
  | .enter e =>
      e.preTrade.config.userId = userId →
        ∀ risk, e.preTrade.riskCfg = some risk → risk.enabled = true

section Caps

variable {caps : SharedCaps} {userId : ℕ}

theorem withinCaps_nil : WithinCaps caps [] where
  count := fun n hn => by
    have := caps.maxOpenPositions_pos n hn
    rw [List.length_nil]
    omega
  perSymbol := fun n hn symbol => by
    have := caps.maxOpenPositionsPerSymbol_pos n hn
    rw [List.filter_nil, List.length_nil]
    omega
  exposure := fun cap hcap => (caps.exposureCapUsdt_pos cap hcap).le
  oneSided := fun _ p hp => absurd hp List.not_mem_nil

theorem WithinCaps.sublist {held held' : List PositionRow} (h : WithinCaps caps held)
    (hpos : ∀ p ∈ held, 0 < p.positionSizeUsdt) (hsub : held'.Sublist held) :
    WithinCaps caps held' where
  count := fun n hn => by
    have hlen := hsub.length_le
    have := h.count n hn
    omega
  perSymbol := fun n hn symbol => by
    have hlen := (hsub.filter fun p => decide (p.symbol = symbol)).length_le
    have := h.perSymbol n hn symbol
    omega
  exposure := fun cap hcap => by
    refine le_trans ((hsub.map _).sum_le_sum fun size hsize => ?_) (h.exposure cap hcap)
    obtain ⟨p, hp, rfl⟩ := List.mem_map.mp hsize
    exact (hpos p hp).le
  oneSided := fun hblock p hp q hq => h.oneSided hblock p (hsub.subset hp) q (hsub.subset hq)

/-- What an entry must find so that its position may be opened. -/
structure Admits (caps : SharedCaps) (held : List PositionRow) (row : PositionRow) : Prop where
  count : ∀ n ∈ caps.maxOpenPositions, (held.length : ℤ) < n
  perSymbol : ∀ n ∈ caps.maxOpenPositionsPerSymbol,
    ((held.filter fun p => p.symbol = row.symbol).length : ℤ) < n
  exposure : ∀ cap ∈ caps.exposureCapUsdt,
    (held.map PositionRow.positionSizeUsdt).sum + row.positionSizeUsdt ≤ cap
  oneSided : caps.blockOpposite = true → ∀ p ∈ held, p.symbol = row.symbol →
    p.side ≠ oppositeSide row.side

theorem WithinCaps.append {held : List PositionRow} {row : PositionRow} (h : WithinCaps caps held)
    (admits : Admits caps held row) : WithinCaps caps (held ++ [row]) where
  count := fun n hn => by
    have := admits.count n hn
    rw [List.length_append, List.length_singleton]
    omega
  perSymbol := fun n hn symbol => by
    rw [List.filter_append, List.length_append]
    by_cases hsymbol : row.symbol = symbol
    · have := admits.perSymbol n hn
      rw [hsymbol] at this
      simp only [List.filter_cons, hsymbol, decide_true, if_true, List.filter_nil,
        List.length_singleton]
      omega
    · have := h.perSymbol n hn symbol
      simp only [List.filter_cons, hsymbol, decide_false, Bool.false_eq_true, if_false,
        List.filter_nil, List.length_nil]
      omega
  exposure := fun cap hcap => by
    have := admits.exposure cap hcap
    rw [List.map_append, List.sum_append, List.map_singleton, List.sum_singleton]
    exact this
  oneSided := by
    intro hblock p hp q hq hsymbol hlong hshort
    rw [List.mem_append, List.mem_singleton] at hp hq
    rcases hp with hp | rfl <;> rcases hq with hq | rfl
    · exact h.oneSided hblock p hp q hq hsymbol hlong hshort
    · refine admits.oneSided hblock p hp hsymbol ?_
      rw [hshort, hlong]
      rfl
    · refine admits.oneSided hblock q hq hsymbol.symm ?_
      rw [hlong, hshort]
      rfl
    · rw [hlong] at hshort
      cases hshort

theorem admits_of_allowed {table : PositionTable} {e : PortfolioEntry} {side : PositionSide}
    (hshares : SharesCaps caps userId (.enter e)) (hon : RowOn userId (.enter e))
    (huser : e.preTrade.config.userId = userId)
    (hside : e.preTrade.signal.trend.entrySide = some side)
    (hallowed : (checkPreTrade table.rows e.preTrade).allowed = true) :
    Admits caps (openRows table.rows userId) (e.openedRow side) := by
  obtain ⟨risk, hrisk, hopen, hsymbol, hcap, hpolicy⟩ := hshares huser
  have hrules := (checkPreTrade_allowed_iff _ _).mp hallowed risk hrisk (hon huser risk hrisk)
  simp only [riskRules, List.mem_cons, List.not_mem_nil, or_false, forall_eq_or_imp] at hrules
  obtain ⟨-, hcount, hperSymbol, hconflict, hexposure, -, -⟩ := hrules
  subst huser
  refine ⟨?_, ?_, ?_, ?_⟩
  · intro n hn
    by_contra hreached
    refine limitRule_ne_none_iff.mpr ⟨n, ?_, ?_⟩ hcount
    · rw [hopen]
      exact hn
    · exact not_lt.mp hreached
  · intro n hn
    by_contra hreached
    refine limitRule_ne_none_iff.mpr ⟨n, ?_, ?_⟩ hperSymbol
    · rw [hsymbol]
      exact hn
    · exact not_lt.mp hreached
  · intro cap hcap'
    by_contra hexceeds
    refine limitRule_ne_none_iff.mpr ⟨cap, ?_, ?_⟩ hexposure
    · rw [hcap]
      exact hcap'
    · exact not_le.mp hexceeds
  · intro hblock p hp hsame hopposite
    refine conflictingSignalRule_ne_none_iff.mpr ⟨hpolicy hblock, side, hside, p, ?_, hopposite⟩
      hconflict
    exact List.mem_filter.mpr ⟨hp, decide_eq_true hsame⟩

theorem openRows_modify_sublist (rows : List PositionRow) (userId index : ℕ) (failed : Bool) :
    (openRows (rows.modify index (closedRow failed)) userId).Sublist (openRows rows userId) := by
  unfold openRows
  induction rows generalizing index with
  | nil => simp
  | cons row rest ih =>
      cases index with
      | zero =>
          have hclosed : ¬((closedRow failed row).userId = userId ∧
              (closedRow failed row).status = .open) := by
            rintro ⟨-, hopen⟩
            cases failed <;> cases hopen
          rw [List.modify_zero_cons, List.filter_cons_of_neg (by simpa using hclosed)]
          exact (List.sublist_cons_self row rest).filter _
      | succ index =>
          rw [List.modify_succ_cons, List.filter_cons, List.filter_cons]
          split
          · exact (ih index).cons_cons row
          · exact ih index

theorem withinCaps_step {table table' : PositionTable} {event : PortfolioEvent}
    (h : WithinCaps caps (openRows table.rows userId))
    (hevent : SharesCaps caps userId event ∧ RowOn userId event)
    (hstep : portfolioStep table event = some table') :
    WithinCaps caps (openRows table'.rows userId) := by
  cases event with
  | close index failed =>
      obtain rfl := Option.some.inj hstep
      refine h.sublist ?_ (openRows_modify_sublist table.rows userId index failed)
      exact fun p hp => table.positive p (List.mem_of_mem_filter hp)
  | enter e =>
      rw [portfolioStep] at hstep
      cases hside : e.preTrade.signal.trend.entrySide with
      | none => simp [hside] at hstep
      | some side =>
          simp only [hside, Option.ite_none_right_eq_some, Option.some.injEq] at hstep
          obtain ⟨hallowed, rfl⟩ := hstep
          by_cases huser : e.preTrade.config.userId = userId
          · have hopened : openRows [e.openedRow side] userId = [e.openedRow side] := by
              simp [openRows, PortfolioEntry.openedRow, huser]
            have hrows : openRows (table.rows ++ [e.openedRow side]) userId =
                openRows table.rows userId ++ [e.openedRow side] := by
              rw [openRows, List.filter_append]
              exact congrArg _ hopened
            rw [hrows]
            exact h.append (admits_of_allowed hevent.1 hevent.2 huser hside hallowed)
          · have hopened : openRows [e.openedRow side] userId = [] := by
              simp [openRows, PortfolioEntry.openedRow, huser]
            have hrows : openRows (table.rows ++ [e.openedRow side]) userId =
                openRows table.rows userId := by
              rw [openRows, List.filter_append]
              exact (congrArg _ hopened).trans (List.append_nil _)
            rw [hrows]
            exact h

end Caps

/-! ## Runs -/

/-- Blocked entries stay blocked when more positions of the user are open and when limits are
lowered. -/
def BlocksMonotonely : Prop :=
  ∀ (table table' : PositionTable) (t : PreTrade) (risk risk' : RiskConfig),
    t.riskCfg = some risk → Tightened risk risk' →
    (openRows table.rows t.config.userId).Subperm (openRows table'.rows t.config.userId) →
    (checkPreTrade table.rows t).allowed = false →
      (checkPreTrade table'.rows { t with riskCfg := some risk' }).allowed = false

/-- **The caps of a portfolio.**  They hold in every state that is reached from one without open
positions of the user, if all entries of the user have them in a risk row that is on; and blocked
entries stay blocked. -/
theorem withinCaps_of_run (caps : SharedCaps) (userId : ℕ) {start table : PositionTable}
    {events : List PortfolioEvent} (hstart : openRows start.rows userId = [])
    (hevents : ∀ event ∈ events, SharesCaps caps userId event ∧ RowOn userId event)
    (hrun : StepSystem.run portfolioStep start events = some table) :
    WithinCaps caps (openRows table.rows userId) ∧ BlocksMonotonely := by
  refine ⟨?_, ?_⟩
  · refine @StepSystem.invariant_of_alongRun _ _ portfolioStep
      (fun _ event => SharesCaps caps userId event ∧ RowOn userId event)
      (fun table => WithinCaps caps (openRows table.rows userId))
      (fun _ _ _ hwithin hevent hstep => withinCaps_step hwithin hevent hstep) start table events
      ?_ (StepSystem.alongRun_of_forall portfolioStep hevents) hrun
    rw [hstart]
    exact withinCaps_nil
  · intro table table' t risk risk' hrisk htight hmore hblocked
    exact allowed_eq_false_of_more rfl hrisk htight hmore hblocked

def noPositions : PositionTable where
  rows := []
  positive := fun _ hp => absurd hp List.not_mem_nil

/-- A long entry of 100 USDT on a symbol, by a risk row that allows one position a symbol, 250 USDT
and no opposite ones. -/
def longEntry (symbol : String) (enabled : Bool) : PortfolioEvent :=
  .enter
    { preTrade :=
        { config := { id := 1, userId := 1 }
          riskCfg := some
            { enabled := enabled, maxOpenPositionsPerSymbol := some 1, exposureCapUsdt := some 250,
              conflictingSignalPolicy := .blockOpposite }
          signal := { trend := .long, confidencePct := 90, priceCurrent := 100 }
          executionSymbol := symbol }
      columns := { entryPrice := 100, quantity := 1 }
      positive := (by decide : (0 : ℚ) < 100) }

def rowCaps : SharedCaps where
  maxOpenPositions := none
  maxOpenPositionsPerSymbol := some 1
  exposureCapUsdt := some 250
  blockOpposite := true
  maxOpenPositions_pos := by simp
  maxOpenPositionsPerSymbol_pos := by simp
  exposureCapUsdt_pos := by simp

theorem sharesCaps_longEntry (symbol : String) (enabled : Bool) :
    SharesCaps rowCaps 1 (longEntry symbol enabled) :=
  fun _ => ⟨_, rfl, rfl, rfl, rfl, fun _ => rfl⟩

/-- Two entries on two symbols keep the caps. -/
theorem withinCaps_twoSymbols :
    ∃ table, StepSystem.run portfolioStep noPositions
        [longEntry "BTCUSDT" true, longEntry "ETHUSDT" true] = some table ∧
      WithinCaps rowCaps (openRows table.rows 1) ∧ BlocksMonotonely := by
  have hrun : (StepSystem.run portfolioStep noPositions
      [longEntry "BTCUSDT" true, longEntry "ETHUSDT" true]).isSome = true := by decide +kernel
  obtain ⟨table, htable⟩ := Option.isSome_iff_exists.mp hrun
  refine ⟨table, htable, withinCaps_of_run rowCaps 1 rfl ?_ htable⟩
  intro event hevent
  have hon : ∀ symbol, RowOn 1 (longEntry symbol true) := by
    rintro symbol - risk hrisk
    rw [← Option.some.inj hrisk]
  rcases List.mem_cons.mp hevent with rfl | hevent
  · exact ⟨sharesCaps_longEntry "BTCUSDT" true, hon _⟩
  · rw [List.mem_singleton.mp hevent]
    exact ⟨sharesCaps_longEntry "ETHUSDT" true, hon _⟩

/-- With the same caps in a row that is off, a second position is opened on one symbol. -/
theorem exceeds_withRowOff :
    ∃ events table, (∀ event ∈ events, SharesCaps rowCaps 1 event) ∧
      StepSystem.run portfolioStep noPositions events = some table ∧
      ¬WithinCaps rowCaps (openRows table.rows 1) := by
  have hcount : (StepSystem.run portfolioStep noPositions
      [longEntry "BTCUSDT" true, longEntry "BTCUSDT" false]).map (fun table =>
        ((openRows table.rows 1).filter fun p => p.symbol = "BTCUSDT").length) = some 2 := by
    decide +kernel
  obtain ⟨table, htable, hlength⟩ := Option.map_eq_some_iff.mp hcount
  refine ⟨_, table, ?_, htable, fun within => ?_⟩
  · intro event hevent
    rcases List.mem_cons.mp hevent with rfl | hevent
    · exact sharesCaps_longEntry "BTCUSDT" true
    · rw [List.mem_singleton.mp hevent]
      exact sharesCaps_longEntry "BTCUSDT" false
  · have hcap := within.perSymbol 1 rfl "BTCUSDT"
    rw [hlength] at hcap
    exact absurd hcap (by decide)

end AdviserConstructor
