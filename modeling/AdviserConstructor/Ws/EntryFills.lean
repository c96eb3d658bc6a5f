import AdviserConstructor.Position.EmergencyEscalation
import AdviserConstructor.Ws.FillTally
import AdviserConstructor.Ws.TpEvents

/-!
# Entries that fill in parts

An order fills in one or more executions.  The events that report them are cumulative, with the
quantity filled so far and its average price, as the order events of both exchanges, or are about
the execution alone, as the execution events of one of them.  Every event may come again.

`_handle_entry_fill_event` is for positions that are `ENTERING`.  The first event writes what it
reports as the quantity of the position, opens it, and enqueues its protection; every later one
finds an open position, and no other handler takes it.

* `executions_of_delivers`: the first event is about the first execution.
* `entryRun_eq`: a run of fill events leaves what the first one has booked.
* `entryAccumulated_iff`: the position and its protection have the size of the whole order exactly
  if the order fills in one execution.
-/

namespace AdviserConstructor

open PositionContext TaskParams

/-! ## Orders and their events -/

/-- A fill of an order. -/
structure Execution where
  quantity : ℚ
  price : ℚ

/-- What some executions fill in total. -/
def totalQuantity (executions : List Execution) : ℚ := (executions.map Execution.quantity).sum

/-- The volume-weighted price of some executions. -/
def volumeWeightedPrice (executions : List Execution) : ℚ :=
  (executions.map fun e => e.quantity * e.price).sum / totalQuantity executions

/-- An entry order that fills. -/
structure EntryOrder where
  orderId : String
  clientOrderId : String
  executions : List Execution
  fills : executions ≠ []
  positive : ∀ e ∈ executions, 0 < e.quantity ∧ 0 < e.price

namespace EntryOrder

/-- The ids under which the order is reported. -/
def ids (order : EntryOrder) : List String :=
  [order.orderId, order.clientOrderId].filter (· ≠ "")

/-- The order is none of those that protect the position. -/
structure Foreign (order : EntryOrder) (position : PositionContext) : Prop where
  sl : ∀ id, position.slExchangeOrderId = some id → id ∉ order.ids
  levels : ∀ level ∈ position.tpLevels, ∀ id, level.exchangeOrderId = some id → id ∉ order.ids

end EntryOrder

/-- A cumulative event: what has been filled so far. -/
def OrderEvent.Cumulates (event : OrderEvent) (executions : List Execution) : Prop :=
  event.filledQuantity = totalQuantity executions ∧
    event.averagePrice = volumeWeightedPrice executions

def OrderEvent.Shows (event : OrderEvent) (execution : Execution) : Prop :=
  event.filledQuantity = execution.quantity ∧ event.averagePrice = 0 ∧ event.lastFillPrice = 0 ∧
    event.price = execution.price

/-- The event reports an execution of the order, by its number. -/
structure EntryOrder.Reports (order : EntryOrder) (k : ℕ) (event : OrderEvent) : Prop where
  ids : event.ids = order.ids
  plain : event.isConditionalOrderEvent = false
  opening : event.isReduceOnlyEvent = false
  figures : ∃ execution, order.executions[k]? = some execution ∧
    (event.Cumulates (order.executions.take (k + 1)) ∨ event.Shows execution)

/-- The events report every execution, in their order; each may come again at any time. -/
def EntryOrder.Delivers (order : EntryOrder) (events : List OrderEvent) : Prop :=
  ∃ ks : List ℕ, ks.eraseDups = List.range order.executions.length ∧
    List.Forall₂ order.Reports ks events

/-! ## Runs -/

/-- What happens behind the first event. -/
inductive EntryStep where
  | order (answers : Answers) (event : OrderEvent)
  /-- the exchange has placed a protection order -/
  | placed (source : ConditionalSource) (levelIndex : Option ℕ) (result : ConditionalOrderResult)

def EntryStep.event? : EntryStep → Option OrderEvent
  | .order _ event => some event
  | .placed .. => none

def entryTurn (handled : Handled) : EntryStep → Handled
  | .order answers event =>
      let next := handled.position.routeLifecycleEvent answers event handled.reconciler
      { position := next.settled answers
        reconciler := next.reconciler
        tasks := handled.tasks ++ next.tasks }
  | .placed source levelIndex result =>
      { handled with
        position := handled.position.applyConditionalOrder source levelIndex result }

/-- A run from a position that is entering. -/
def entryRun (start : PositionContext) (answers : Answers) (event : OrderEvent)
    (rest : List EntryStep) : Handled :=
  (EntryStep.order answers event :: rest).foldl entryTurn { position := start, reconciler := none }

/-- A position is entering by the order, and the run delivers its events. -/
structure Enters (order : EntryOrder) (start : PositionContext) (event : OrderEvent)
    (rest : List EntryStep) : Prop where
  state : start.state = .entering
  machine : start.stateMachine.state = .entering
  foreign : order.Foreign start
  placed : ∀ source levelIndex result, .placed source levelIndex result ∈ rest →
    result.exchangeOrderId ∉ order.ids
  delivers : order.Delivers (event :: rest.filterMap EntryStep.event?)

def taskSize (task : OrderTask) : TaskAction × PyVal :=
  (task.action, task.params.lookup "quantity")

/-- The protection orders of a position of some size: the stop closes all of it, a level its part,
and a single take-profit all of it. -/
def protectionSizes (position : PositionContext) (size : ℚ) : List (TaskAction × PyVal) :=
  (if 0 < position.currentSlPrice then [(.placeSl, .float size)] else []) ++
    if position.tpMode = .multi ∧ position.tpLevels ≠ [] then
      (position.tpLevels.filter fun level => level.status = .pending).map fun level =>
        (.placeTp, .float (size * (level.closePct / 100)))
    else if 0 < position.currentTpPrice.getD 0 then [(.placeTp, .float size)]
    else []

/-- The position has what the order has filled, at its volume-weighted price, and the orders that
protect it are sized for that. -/
structure EntryAccumulated (order : EntryOrder) (start : PositionContext) (handled : Handled) :
    Prop where
  original : handled.position.originalQuantity = totalQuantity order.executions
  current : handled.position.currentQuantity = totalQuantity order.executions
  entryPrice : handled.position.entryPrice = volumeWeightedPrice order.executions
  protection : handled.tasks.map taskSize =
    protectionSizes start (totalQuantity order.executions)

/-! ## The first event -/

theorem volumeWeightedPrice_singleton {e : Execution} (h : 0 < e.quantity) :
    volumeWeightedPrice [e] = e.price := by
  unfold volumeWeightedPrice totalQuantity
  simp only [List.map_cons, List.map_nil, List.sum_cons, List.sum_nil, add_zero]
  exact mul_div_cancel_left₀ e.price h.ne'

theorem totalQuantity_cons (e : Execution) (executions : List Execution) :
    totalQuantity (e :: executions) = e.quantity + totalQuantity executions := by
  unfold totalQuantity
  rw [List.map_cons, List.sum_cons]

theorem totalQuantity_pos {executions : List Execution} (hne : executions ≠ [])
    (h : ∀ e ∈ executions, 0 < e.quantity) : 0 < totalQuantity executions := by
  refine List.sum_pos _ ?_ (by simpa using hne)
  rw [List.forall_mem_map]
  exact h

section

variable {order : EntryOrder} {start position : PositionContext} {answers : Answers}
  {event : OrderEvent} {events : List OrderEvent} {rest : List EntryStep}

/-- **The first event** is about the first execution, and shows its quantity and its price. -/
theorem executions_of_delivers (h : order.Delivers (event :: events)) :
    ∃ e es, order.executions = e :: es ∧ order.Reports 0 event ∧ event.filledQuantity = e.quantity ∧
      ∀ fallback, event.resolveFillPrice fallback = e.price := by
  obtain ⟨ks, hks, hreports⟩ := h
  cases hreports with
  | @cons k _ ks _ hfirst _ =>
    obtain ⟨e, es, hexecutions⟩ := List.exists_cons_of_ne_nil order.fills
    have hzero : k = 0 := by
      rw [hexecutions, List.length_cons, List.range_succ_eq_map, List.eraseDups_cons] at hks
      exact (List.cons_eq_cons.mp hks).1
    subst hzero
    obtain ⟨hquantity, hprice⟩ := order.positive e (by rw [hexecutions]; exact List.mem_cons_self)
    refine ⟨e, es, hexecutions, hfirst, ?_⟩
    obtain ⟨e', he', hfigures⟩ := hfirst.figures
    obtain rfl : e = e' := by
      rw [hexecutions] at he'
      exact Option.some.inj he'
    rcases hfigures with ⟨hfilled, haverage⟩ | ⟨hfilled, haverage, hlast, hshown⟩
    · rw [hexecutions] at hfilled haverage
      change _ = totalQuantity [e] at hfilled
      change _ = volumeWeightedPrice [e] at haverage
      rw [volumeWeightedPrice_singleton hquantity] at haverage
      refine ⟨?_, fun fallback => ?_⟩
      · rw [hfilled, totalQuantity_cons, totalQuantity, List.map_nil, List.sum_nil, add_zero]
      · unfold OrderEvent.resolveFillPrice
        rw [haverage, List.find?_cons_of_pos (by simpa using hprice)]
    · refine ⟨hfilled, fun fallback => ?_⟩
      unfold OrderEvent.resolveFillPrice
      rw [haverage, hlast, hshown, List.find?_cons_of_neg (by simp),
        List.find?_cons_of_neg (by simp), List.find?_cons_of_pos (by simpa using hprice)]

theorem EntryOrder.Reports.filled {k : ℕ} (h : order.Reports k event) :
    0 < event.filledQuantity := by
  obtain ⟨e, he, hfigures⟩ := h.figures
  have hmem : e ∈ order.executions := List.mem_of_getElem? he
  rcases hfigures with ⟨hfilled, -⟩ | ⟨hfilled, -⟩
  · rw [hfilled]
    refine totalQuantity_pos ?_ fun e he => (order.positive e (List.mem_of_mem_take he)).1
    simpa using order.fills
  · rw [hfilled]
    exact (order.positive e hmem).1

/-- The position that is booked by a fill. -/
def booked (position : PositionContext) (e : Execution) : PositionContext :=
  { position with
    entryPrice := e.price
    originalQuantity := e.quantity
    currentQuantity := e.quantity }

def opened (position : PositionContext) (e : Execution) (machine : PositionStateMachine) :
    PositionContext :=
  { booked position e with stateMachine := machine, state := .open }

/-- The tasks that protect a position. -/
def protectionTasks (answers : Answers) (position : PositionContext) : List OrderTask :=
  (enqueueInitialProtectionSl answers.accountId position answers.now answers.nowMs).toList ++
    position.enqueueInitialProtectionTps answers

theorem initialProtectionSl_sizes (accountId : String) (now : ℚ) (nowMs : ℕ) :
    (enqueueInitialProtectionSl accountId position now nowMs).toList.map taskSize =
      if 0 < position.currentSlPrice then [(.placeSl, .float position.currentQuantity)]
      else [] := by
  unfold enqueueInitialProtectionSl
  split
  · simp [taskSize, InsertionDict.ofList, lookup_assign]
  · rfl

theorem initialProtectionTps_sizes :
    (position.enqueueInitialProtectionTps answers).map taskSize =
      if position.tpMode = .multi ∧ position.tpLevels ≠ [] then
        (position.tpLevels.filter fun level => level.status = .pending).map fun level =>
          (.placeTp, .float (position.originalQuantity * (level.closePct / 100)))
      else if 0 < position.currentTpPrice.getD 0 then [(.placeTp, .float position.currentQuantity)]
      else [] := by
  unfold enqueueInitialProtectionTps
  split
  · have hlevels : (position.tpLevels.filter fun level => level.status = .pending) =
        (position.tpLevels.zipIdx.filter fun entry => entry.1.status = .pending).map Prod.fst := by
      conv_lhs => rw [← List.zipIdx_map_fst 0 position.tpLevels]
      rw [List.filter_map]
      rfl
    rw [hlevels, List.map_map, List.map_map]
    refine List.map_congr_left fun entry _ => ?_
    simp [taskSize, InsertionDict.ofList, lookup_assign, MultiTp.levelQuantity]
  · cases position.currentTpPrice with
    | none => simp
    | some price =>
      by_cases hprice : price ≤ 0
      · simp [not_lt.mpr hprice]
      · simp [hprice, taskSize, InsertionDict.ofList, lookup_assign]

/-- **The first event opens the position** with what it reports, and enqueues its protection. -/
theorem routeLifecycleEvent_entering {e : Execution} {reconciler : Option ℚ}
    (hstate : position.state = .entering) (hmachine : position.stateMachine.state = .entering)
    (hreports : order.Reports 0 event) (hquantity : event.filledQuantity = e.quantity)
    (hprice : ∀ fallback, event.resolveFillPrice fallback = e.price)
    (hpositive : 0 < e.quantity ∧ 0 < e.price) :
    ∃ machine, position.routeLifecycleEvent answers event reconciler =
      { position := opened position e machine
        reconciler := reconciler
        tasks := protectionTasks answers (opened position e machine) } := by
  have hresolved : ∀ fallback, event.resolveFilledQuantity fallback = e.quantity := by
    intro fallback
    unfold OrderEvent.resolveFilledQuantity
    rw [List.find?_cons_of_pos (by simpa using hreports.filled), hquantity]
  have hfill : event.isFillEvent = true := by
    unfold OrderEvent.isFillEvent
    simp [hreports.filled]
  obtain ⟨machine, -, hopened⟩ :=
    @applyTransition_of_valid (booked position e) .entryFilled .open answers (by simp)
      (by change validTransitions position.stateMachine.state .entryFilled = _; rw [hmachine]; rfl)
  refine ⟨machine, ?_⟩
  have hhandled : position.handleEntryFillEvent answers event reconciler =
      some
        { position := opened position e machine
          reconciler := reconciler
          tasks := protectionTasks answers (opened position e machine) } := by
    unfold handleEntryFillEvent
    rw [if_neg (by simp [hstate, hreports.plain, hreports.opening, hfill])]
    simp only [hresolved, hprice, if_pos hpositive.1, if_pos hpositive.2]
    have hbooked : ({ position with
        entryPrice := e.price
        originalQuantity := e.quantity
        currentQuantity := e.quantity } : PositionContext) = booked position e := rfl
    rw [hbooked, hopened]
    rfl
  unfold routeLifecycleEvent
  rw [hhandled]
  rfl

/-! ## The events behind it -/

theorem orderIdentifier_mem_ids (h : event.orderIdentifier ≠ "") :
    event.orderIdentifier ∈ event.ids := by
  unfold OrderEvent.orderIdentifier at h ⊢
  unfold OrderEvent.ids
  split
  · next hid => simp [hid]
  · next hid =>
    rw [if_neg hid] at h
    simp [h]

theorem isSlTriggerEvent_of_foreign {k : ℕ} (hforeign : order.Foreign position)
    (hreports : order.Reports k event)
    (hplain : event.orderType ∉ ["stop_loss", "take_profit", "trailing_stop"]) :
    position.isSlTriggerEvent event = false := by
  have htype : event.orderType ∉ ["stop_loss", "trailing_stop"] := by
    intro htype
    refine hplain ?_
    simp only [List.mem_cons, List.not_mem_nil] at htype ⊢
    exact htype.imp id Or.inr
  unfold isSlTriggerEvent
  rw [decide_eq_false htype]
  cases hid : position.slExchangeOrderId with
  | none => exact Bool.and_false _
  | some id =>
    have hother : ¬(event.orderIdentifier ≠ "" ∧ id ≠ "" ∧ event.orderIdentifier = id) := by
      rintro ⟨hne, -, rfl⟩
      refine hforeign.sl _ hid ?_
      rw [← hreports.ids]
      exact orderIdentifier_mem_ids hne
    simpa using fun _ hne hne' hsame => hother ⟨hne, hne', hsame⟩

theorem isTpTriggerEvent_of_foreign {k : ℕ} (hforeign : order.Foreign position)
    (hreports : order.Reports k event)
    (hplain : event.orderType ∉ ["stop_loss", "take_profit", "trailing_stop"]) :
    position.isTpTriggerEvent event = false := by
  have htype : event.orderType ≠ "take_profit" := by
    rintro htype
    rw [htype] at hplain
    exact hplain (by simp)
  have hcarries : ∀ level ∈ position.tpLevels, ¬carries event level = true := by
    intro level hlevel
    unfold carries
    cases hid : level.exchangeOrderId with
    | none => simp
    | some id =>
      have hother := hforeign.levels level hlevel id hid
      rw [← hreports.ids] at hother
      simp [hother]
  unfold isTpTriggerEvent
  rw [decide_eq_false htype, List.any_eq_false.mpr hcarries, Bool.or_false, Bool.and_false]

theorem routeLifecycleEvent_ignored {k : ℕ} {reconciler : Option ℚ}
    (hstate : position.state ≠ .entering) (hforeign : order.Foreign position)
    (hreports : order.Reports k event) :
    position.routeLifecycleEvent answers event reconciler =
      { position := position, reconciler := reconciler } := by
  have hplain : event.orderType ∉ ["stop_loss", "take_profit", "trailing_stop"] := by
    have h := hreports.plain
    exact of_decide_eq_false (Bool.or_eq_false_iff.mp h).1
  unfold routeLifecycleEvent handleEntryFillEvent handleSlTriggeredEvent handleTpTriggeredEvent
  rw [if_pos (Or.inl hstate), isSlTriggerEvent_of_foreign hforeign hreports hplain,
    isTpTriggerEvent_of_foreign hforeign hreports hplain]
  rfl

/-- A run behind its first event: the position has what that one has booked. -/
structure BehindFirst (order : EntryOrder) (e : Execution) (tasks : List OrderTask)
    (handled : Handled) : Prop where
  state : handled.position.state = .open
  original : handled.position.originalQuantity = e.quantity
  current : handled.position.currentQuantity = e.quantity
  entryPrice : handled.position.entryPrice = e.price
  tasks : handled.tasks = tasks
  foreign : order.Foreign handled.position

/-- The order of a step is the entry order, or one that protects the position. -/
def EntryStep.Of (order : EntryOrder) : EntryStep → Prop
  | .order _ event => ∃ k, order.Reports k event
  | .placed _ _ result => result.exchangeOrderId ∉ order.ids

theorem foreign_applyConditionalOrder {source : ConditionalSource} {levelIndex : Option ℕ}
    {result : ConditionalOrderResult} (hforeign : order.Foreign position)
    (hresult : result.exchangeOrderId ∉ order.ids) :
    order.Foreign (position.applyConditionalOrder source levelIndex result) := by
  cases source with
  | sl => exact ⟨fun id hid => Option.some.inj hid ▸ hresult, hforeign.levels⟩
  | tp =>
    cases levelIndex with
    | none => exact hforeign
    | some i =>
      refine ⟨hforeign.sl, fun level hlevel id hid => ?_⟩
      obtain ⟨j, hj, rfl⟩ := List.mem_iff_getElem.mp hlevel
      have hlevels : (position.applyConditionalOrder .tp (some i) result).tpLevels =
          position.tpLevels.modify i fun level =>
            { level with exchangeOrderId := some result.exchangeOrderId, status := .open } := rfl
      have hj' : j < position.tpLevels.length := by
        rw [hlevels, List.length_modify] at hj
        exact hj
      simp only [hlevels, List.getElem_modify] at hid
      split at hid
      · exact Option.some.inj hid ▸ hresult
      · exact hforeign.levels _ (List.getElem_mem hj') id hid

theorem BehindFirst.entryTurn {e : Execution} {tasks : List OrderTask} {handled : Handled}
    {step : EntryStep} (h : BehindFirst order e tasks handled) (hstep : step.Of order) :
    BehindFirst order e tasks (entryTurn handled step) := by
  cases step with
  | order answers event =>
    obtain ⟨k, hreports⟩ := hstep
    have hsame := @routeLifecycleEvent_ignored order handled.position answers event k
      handled.reconciler (by rw [h.state]; simp) h.foreign hreports
    unfold AdviserConstructor.entryTurn
    dsimp only
    rw [hsame]
    exact ⟨h.state, h.original, h.current, h.entryPrice, by rw [List.append_nil]; exact h.tasks,
      h.foreign⟩
  | placed source levelIndex result =>
    have hforeign := @foreign_applyConditionalOrder order handled.position source levelIndex result
      h.foreign hstep
    cases source <;> cases levelIndex <;>
      exact ⟨h.state, h.original, h.current, h.entryPrice, h.tasks, hforeign⟩

theorem Enters.of_order (h : Enters order start event rest) : ∀ step ∈ rest, step.Of order := by
  intro step hstep
  cases hcase : step with
  | placed source levelIndex result => exact h.placed source levelIndex result (hcase ▸ hstep)
  | order answers event =>
    obtain ⟨ks, -, hreports⟩ := h.delivers
    have hmem : event ∈ rest.filterMap EntryStep.event? :=
      List.mem_filterMap.mpr ⟨step, hstep, by rw [hcase]; rfl⟩
    obtain ⟨i, hi, hget⟩ := List.mem_iff_getElem.mp (List.mem_cons_of_mem _ hmem)
    have hk := hreports.get (hreports.length_eq ▸ hi) hi
    rw [List.get_eq_getElem, List.get_eq_getElem, hget] at hk
    exact ⟨_, hk⟩

/-- **A run of fill events leaves what the first one has booked**, with the protection for that. -/
theorem behindFirst_entryRun (h : Enters order start event rest) :
    ∃ e es, order.executions = e :: es ∧ ∃ tasks, tasks.map taskSize =
      protectionSizes start e.quantity ∧
      BehindFirst order e tasks (entryRun start answers event rest) := by
  obtain ⟨e, es, hexecutions, hfirst, hquantity, hprice⟩ := executions_of_delivers h.delivers
  have hpositive := order.positive e (by rw [hexecutions]; exact List.mem_cons_self)
  obtain ⟨machine, hopened⟩ := @routeLifecycleEvent_entering order start answers event e none
    h.state h.machine hfirst hquantity hprice hpositive
  refine ⟨e, es, hexecutions, protectionTasks answers (opened start e machine), ?_, ?_⟩
  · unfold protectionTasks
    rw [List.map_append, initialProtectionSl_sizes, initialProtectionTps_sizes]
    rfl
  · have hbehind : BehindFirst order e (protectionTasks answers (opened start e machine))
        (AdviserConstructor.entryTurn { position := start, reconciler := none }
          (.order answers event)) := by
      unfold AdviserConstructor.entryTurn
      dsimp only
      rw [hopened]
      exact ⟨rfl, rfl, rfl, rfl, rfl, ⟨h.foreign.sl, h.foreign.levels⟩⟩
    refine List.foldlRecOn rest _ hbehind fun handled hhandled step hstep => ?_
    exact hhandled.entryTurn (h.of_order step hstep)

end

/-! ## The condition -/

/-- **An entry accumulates** exactly if it fills in one execution: the quantity of the position, its
price and its protection are those of the first execution, and what fills later is in none. -/
theorem entryAccumulated_iff {order : EntryOrder} {start : PositionContext} {answers : Answers}
    {event : OrderEvent} {rest : List EntryStep} (h : Enters order start event rest) :
    EntryAccumulated order start (entryRun start answers event rest) ↔
      order.executions.length = 1 := by
  obtain ⟨e, es, hexecutions, tasks, hsizes, hbehind⟩ := @behindFirst_entryRun _ _ answers _ _ h
  have htotal : totalQuantity order.executions = e.quantity + totalQuantity es := by
    rw [hexecutions, totalQuantity_cons]
  constructor
  · intro haccumulated
    have hrest : totalQuantity es = 0 := by
      have horiginal := haccumulated.original
      rw [hbehind.original] at horiginal
      linarith
    have hnil : es = [] := by
      by_contra hne
      have hpositive : ∀ e ∈ es, 0 < e.quantity := fun e he =>
        (order.positive e (by rw [hexecutions]; exact List.mem_cons_of_mem _ he)).1
      exact absurd hrest (totalQuantity_pos hne hpositive).ne'
    rw [hexecutions, hnil]
    rfl
  · intro hone
    have hnil : es = [] := by
      rw [hexecutions, List.length_cons] at hone
      exact List.length_eq_zero_iff.mp (by omega)
    have hquantity := (order.positive e (by rw [hexecutions]; exact List.mem_cons_self)).1
    have hsame : totalQuantity order.executions = e.quantity := by
      rw [htotal, hnil, totalQuantity, List.map_nil, List.sum_nil, add_zero]
    refine ⟨hbehind.original.trans hsame.symm, hbehind.current.trans hsame.symm, ?_, ?_⟩
    · rw [hbehind.entryPrice, hexecutions, hnil, volumeWeightedPrice_singleton hquantity]
    · rw [hbehind.tasks, hsame, hsizes]

/-- A long entry with a stop and two levels. -/
def enteringLong : PositionContext where
  state := .entering
  stateMachine := { state := .entering }
  currentSlPrice := 90
  tpMode := .multi
  tpLevels :=
    [{ level := 1, closePct := 50, triggerPrice := 120 },
      { level := 2, closePct := 50, triggerPrice := 130 }]

/-- A cumulative event of the order `42`. -/
def entryEvent (status : String) (filledQuantity averagePrice : ℚ) : OrderEvent where
  orderId := "42"
  orderType := "market"
  status := status
  filledQuantity := filledQuantity
  averagePrice := averagePrice

def fillsAtOnce : EntryOrder where
  orderId := "42"
  clientOrderId := ""
  executions := [⟨1, 100⟩]
  fills := by simp
  positive := by simp

def placedStop : ConditionalOrderResult where
  exchangeOrderId := "43"
  clientOrderId := ""
  orderType := .stopLoss
  triggerPrice := 90
  quantity := 1

/-- The stop is placed, and the event comes again. -/
theorem entryAccumulated_fillsAtOnce :
    EntryAccumulated fillsAtOnce enteringLong
      (entryRun enteringLong {} (entryEvent "filled" 1 100)
        [.placed .sl none placedStop, .order {} (entryEvent "filled" 1 100)]) := by
  have hreports : fillsAtOnce.Reports 0 (entryEvent "filled" 1 100) := by
    refine ⟨by decide, by decide, by decide, ⟨1, 100⟩, rfl, Or.inl ⟨?_, ?_⟩⟩ <;> decide +kernel
  refine (entryAccumulated_iff ⟨rfl, rfl, ⟨?_, ?_⟩, ?_, [0, 0], by decide, ?_⟩).mpr rfl
  · exact fun id hid => absurd hid (by simp [enteringLong])
  · simp [enteringLong]
  · intro source levelIndex result hplaced
    obtain ⟨-, -, rfl⟩ : source = .sl ∧ levelIndex = none ∧ result = placedStop := by
      simpa using hplaced
    decide
  · exact .cons hreports (.cons hreports .nil)

/-- An order that fills in two parts. -/
def fillsInTwo : EntryOrder where
  orderId := "42"
  clientOrderId := ""
  executions := [⟨2 / 5, 100⟩, ⟨3 / 5, 110⟩]
  fills := by simp
  positive := by norm_num

/-- **The second part of an entry is lost**: the position stays at two fifths of the order. -/
theorem not_entryAccumulated_fillsInTwo :
    Enters fillsInTwo enteringLong (entryEvent "partially_filled" (2 / 5) 100)
        [.order {} (entryEvent "filled" 1 106)] ∧
      ¬EntryAccumulated fillsInTwo enteringLong
        (entryRun enteringLong {} (entryEvent "partially_filled" (2 / 5) 100)
          [.order {} (entryEvent "filled" 1 106)]) := by
  refine ⟨⟨rfl, rfl, ⟨?_, ?_⟩, by simp, [0, 1], by decide, .cons ?_ (.cons ?_ .nil)⟩, fun h => ?_⟩
  · exact fun id hid => absurd hid (by simp [enteringLong])
  · simp [enteringLong]
  · refine ⟨by decide, by decide, by decide, ⟨2 / 5, 100⟩, rfl, Or.inl ⟨?_, ?_⟩⟩ <;> decide +kernel
  · refine ⟨by decide, by decide, by decide, ⟨3 / 5, 110⟩, rfl, Or.inl ⟨?_, ?_⟩⟩ <;> decide +kernel
  · exact absurd h.original (by decide +kernel)

end AdviserConstructor
