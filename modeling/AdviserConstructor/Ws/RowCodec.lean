import AdviserConstructor.Position.TaskParams
import AdviserConstructor.Ws.Hydration
import AdviserConstructor.Ws.RuntimeStates

/-!
# The columns of a position

`Ws.Hydration` speaks of a row by what its columns are parsed to.  Here the columns are what the
database has: texts, numbers, and JSON values.  `to_db_dict` encodes a context under the keys of
`app/services/position/context.py`, `_merge_position_context_into_row` assigns the columns, and
`from_db_row` reads them back, with its coercions, defaults and fallbacks.

* `decode_toJson`: the JSON of a level, of a history and of a configuration is read back.
* `parse_mergePositionContext`: what a merge writes is read back as what `Ws.Hydration` says of it.

The watchers, the time stamps, the fees and profits are left out, as they are from a context.  The
transition log is a list of dictionaries that both sides copy; it is not encoded here either.
-/

namespace AdviserConstructor

open DecimalText TaskParams

/-! ## Values of columns -/

/-- A JSON object without further nesting; its values are those that parameters have. -/
abbrev JsonDict := TaskParams

/-- An item of a JSON list. -/
inductive JsonItem where
  | value (v : PyVal)
  | dict (d : JsonDict)
  deriving DecidableEq

/-- A JSON column. -/
inductive JsonColumn where
  | value (v : PyVal)
  | dict (d : JsonDict)
  | list (items : List JsonItem)
  deriving DecidableEq

/-- The conversions from and to text that are only needed where a column holds something of an
unexpected type. -/
structure PythonTexts where
  /-- `str` of an item that is no text -/
  str : JsonItem → String
  /-- `json.loads`; `none` is a `JSONDecodeError` -/
  loads : String → Option JsonColumn

namespace JsonColumn

def items : JsonColumn → List JsonItem
  | .list items => items
  | _ => []

/-- The items that are dictionaries, if it is a list. -/
def dicts (column : JsonColumn) : List JsonDict :=
  column.items.filterMap fun item =>
    match item with
    | .dict d => some d
    | .value _ => none

/-- The dictionary; on anything else `get` raises. -/
def dict? : JsonColumn → Option JsonDict
  | .dict d => some d
  | _ => none

@[simp] theorem dicts_list_map {α : Type} (encode : α → JsonDict) (xs : List α) :
    (JsonColumn.list (xs.map fun x => .dict (encode x))).dicts = xs.map encode := by
  unfold dicts items
  rw [List.filterMap_map]
  exact List.filterMap_eq_map_iff_forall_eq_some.mpr fun _ _ => rfl

end JsonColumn

namespace PyVal

/-- `_to_float`. -/
def toFloat (value : PyVal) (default : ℚ) : ℚ := value.toFloat?.getD default

/-- `_to_int`. -/
def toInt (value : PyVal) (default : ℤ) : ℤ := value.toInt?.getD default

/-- `_to_bool`. -/
def toBool (value : PyVal) (default : Bool) : Bool :=
  match value with
  | .none => default
  | .bool b => b
  | .str s => normalized s ∈ ["1", "true", "yes", "y", "on"]
  | value => value.truthy

/-- `None if value is None else _to_float(value)`. -/
def optionalFloat (value : PyVal) : Option ℚ :=
  if value = .none then Option.none else some (value.toFloat 0)

/-- `str(value)`. -/
def toText (texts : PythonTexts) : PyVal → String
  | .str s => s
  | value => texts.str (.value value)

/-- `None if value is None else str(value)`. -/
def optionalText (texts : PythonTexts) (value : PyVal) : Option String :=
  if value = .none then Option.none else some (value.toText texts)

/-- A float or `None`. -/
def ofFloat? : Option ℚ → PyVal
  | Option.none => .none
  | some x => .float x

/-- A text or `None`. -/
def ofText? : Option String → PyVal
  | Option.none => .none
  | some s => .str s

@[simp] theorem optionalFloat_ofFloat? (x : Option ℚ) : (ofFloat? x).optionalFloat = x := by
  cases x <;> rfl

@[simp] theorem optionalText_ofText? (texts : PythonTexts) (s : Option String) :
    (ofText? s).optionalText texts = s := by
  cases s <;> rfl

end PyVal

namespace PythonTexts

/-- `_parse_json`. -/
def parseJson (texts : PythonTexts) (column default : JsonColumn) : JsonColumn :=
  match column with
  | .value .none => default
  | .value (.str s) =>
      if strip s.toList = [] then default
      else (texts.loads (String.ofList (strip s.toList))).getD default
  | column => column

end PythonTexts

@[simp] theorem PythonTexts.parseJson_list (texts : PythonTexts) (items : List JsonItem)
    (default : JsonColumn) : texts.parseJson (.list items) default = .list items := rfl

@[simp] theorem PythonTexts.parseJson_dict (texts : PythonTexts) (d : JsonDict)
    (default : JsonColumn) : texts.parseJson (.dict d) default = .dict d := rfl

/-! ## Enumerations -/

namespace PositionState

def members : List PositionState :=
  [.pending, .entering, .open, .adjusting, .closing, .closed, .cancelled, .failed, .reconnecting,
    .errorRecovery]

def value : PositionState → String
  | .pending => "pending"
  | .entering => "entering"
  | .open => "open"
  | .adjusting => "adjusting"
  | .closing => "closing"
  | .closed => "closed"
  | .cancelled => "cancelled"
  | .failed => "failed"
  | .reconnecting => "reconnecting"
  | .errorRecovery => "error_recovery"

def memberName : PositionState → String
  | .pending => "PENDING"
  | .entering => "ENTERING"
  | .open => "OPEN"
  | .adjusting => "ADJUSTING"
  | .closing => "CLOSING"
  | .closed => "CLOSED"
  | .cancelled => "CANCELLED"
  | .failed => "FAILED"
  | .reconnecting => "RECONNECTING"
  | .errorRecovery => "ERROR_RECOVERY"

end PositionState

namespace PositionSide

def members : List PositionSide := [.long, .short, .both]

def value : PositionSide → String
  | .long => "long"
  | .short => "short"
  | .both => "both"

def memberName : PositionSide → String
  | .long => "LONG"
  | .short => "SHORT"
  | .both => "BOTH"

end PositionSide

/-- The member that a text names, by its value or by its name. -/
def parseMember {α : Type} (members : List α) (value memberName : α → String) (default : α)
    (text : String) : α :=
  let raw := String.ofList (strip text.toList)
  if raw = "" then default
  else
    ((members.find? fun member => value member = lowered raw).or
      (members.find? fun member => memberName member = uppered raw)).getD default

/-- `_parse_position_state`. -/
def parsePositionState (texts : PythonTexts) (value : PyVal) : PositionState :=
  if value = .none then .pending
  else
    parseMember PositionState.members PositionState.value PositionState.memberName .pending
      (value.toText texts)

/-- `_parse_position_side`. -/
def parsePositionSide (texts : PythonTexts) (value : PyVal) : PositionSide :=
  if value = .none then .long
  else
    parseMember PositionSide.members PositionSide.value PositionSide.memberName .long
      (value.toText texts)

@[simp] theorem parsePositionState_value (texts : PythonTexts) (state : PositionState) :
    parsePositionState texts (.str state.value) = state := by
  simp only [parsePositionState, PyVal.toText, reduceCtorEq]
  cases state <;> decide +kernel

theorem parsePositionSide_memberName (texts : PythonTexts) (side : PositionSide) :
    parsePositionSide texts (.str side.memberName) = side := by
  simp only [parsePositionSide, PyVal.toText, reduceCtorEq]
  cases side <;> decide +kernel

/-! ## The JSON of a context -/

def TPStatus.text : TPStatus → String
  | .pending => "pending"
  | .open => "open"
  | .triggered => "triggered"
  | .cancelled => "cancelled"
  | .other name => name

/-- The status that a text stands for. -/
def TPStatus.ofText (text : String) : TPStatus :=
  if text = "pending" then .pending
  else if text = "open" then .open
  else if text = "triggered" then .triggered
  else if text = "cancelled" then .cancelled
  else .other text

@[simp] theorem TPStatus.text_ofText (text : String) : (TPStatus.ofText text).text = text := by
  unfold TPStatus.ofText
  split_ifs with hpending hopen htriggered hcancelled
  · exact hpending.symm
  · exact hopen.symm
  · exact htriggered.symm
  · exact hcancelled.symm
  · rfl

def TpMode.text : TpMode → String
  | .single => "single"
  | .multi => "multi"

/-- The mode that a text stands for; everything but `"multi"` is handled as `"single"` is. -/
def TpMode.ofText (text : String) : TpMode := if text = "multi" then .multi else .single

@[simp] theorem TpMode.ofText_text (mode : TpMode) : TpMode.ofText mode.text = mode := by
  cases mode <;> decide

namespace TPLevel

/-- `asdict`, with the offset that the level was computed from. -/
def toJson (priceOffsetPct : ℚ) (level : TPLevel) : JsonDict :=
  .ofList
    [("level", .int level.level),
     ("price_offset_pct", .float priceOffsetPct),
     ("close_pct", .float level.closePct),
     ("trigger_price", .float level.triggerPrice),
     ("status", .str level.status.text),
     ("exchange_order_id", .ofText? level.exchangeOrderId),
     ("move_sl_to", .ofText? level.moveSlTo),
     ("sl_lock_pct", .ofFloat? level.slLockPct)]

/-- `compute_trigger_price`. -/
def computeTriggerPrice (entryPrice priceOffsetPct : ℚ) (side : PositionSide) : ℚ :=
  if side = .short then entryPrice * (1 - priceOffsetPct / 100)
  else entryPrice * (1 + priceOffsetPct / 100)

/-- `from_dict`. -/
def fromDict (texts : PythonTexts) (entryPrice : ℚ) (side : PositionSide) (raw : JsonDict) :
    TPLevel where
  level := (raw.lookup "level").toInt 0
  closePct := (raw.lookup "close_pct").toFloat 0
  triggerPrice :=
    if raw.lookup "trigger_price" = .none then
      computeTriggerPrice entryPrice ((raw.lookup "price_offset_pct").toFloat 0) side
    else (raw.lookup "trigger_price").toFloat 0
  status := .ofText ((raw.getD "status" (.str "pending")).toText texts)
  exchangeOrderId := (raw.lookup "exchange_order_id").optionalText texts
  moveSlTo := (raw.lookup "move_sl_to").optionalText texts
  slLockPct := (raw.lookup "sl_lock_pct").optionalFloat

/-- A level whose status is the one that its text stands for. -/
def canonical (level : TPLevel) : TPLevel := { level with status := .ofText level.status.text }

theorem fromDict_toJson (texts : PythonTexts) (entryPrice priceOffsetPct : ℚ)
    (side : PositionSide) (level : TPLevel) :
    fromDict texts entryPrice side (level.toJson priceOffsetPct) = level.canonical := by
  simp [fromDict, toJson, canonical, TaskParams.lookup, InsertionDict.getD,
    InsertionDict.get?_ofList, PyVal.toInt, PyVal.toInt?, PyVal.toFloat, PyVal.toFloat?,
    PyVal.toText]

end TPLevel

/-- `asdict` of a stop history entry. -/
def SLHistoryEntry.toJson (entry : SLHistoryEntry) : JsonDict :=
  .ofList
    [("old_price", .float entry.oldPrice),
     ("new_price", .float entry.newPrice),
     ("reason", .str entry.reason),
     ("trigger_source", .str entry.triggerSource),
     ("exchange_order_id", .str entry.exchangeOrderId)]

/-- A stop history entry that is read back. -/
def SLHistoryEntry.fromDict (texts : PythonTexts) (item : JsonDict) : SLHistoryEntry where
  oldPrice := (item.lookup "old_price").toFloat 0
  newPrice := (item.lookup "new_price").toFloat 0
  reason := (item.getD "reason" (.str "")).toText texts
  triggerSource := (item.getD "trigger_source" (.str "")).toText texts
  exchangeOrderId := (item.getD "exchange_order_id" (.str "")).toText texts

/-- `asdict` of a take-profit history entry. -/
def TPHistoryEntry.toJson (entry : TPHistoryEntry) : JsonDict :=
  .ofList
    [("tp_level", .int entry.tpLevel),
     ("old_price", .float entry.oldPrice),
     ("new_price", .float entry.newPrice),
     ("reason", .str entry.reason),
     ("close_pct", .float entry.closePct),
     ("exchange_order_id", .str entry.exchangeOrderId)]

/-- A take-profit history entry that is read back. -/
def TPHistoryEntry.fromDict (texts : PythonTexts) (item : JsonDict) : TPHistoryEntry where
  tpLevel := ((item.lookup "tp_level").toInt 0).toNat
  oldPrice := (item.lookup "old_price").toFloat 0
  newPrice := (item.lookup "new_price").toFloat 0
  reason := (item.getD "reason" (.str "")).toText texts
  closePct := (item.lookup "close_pct").toFloat 0
  exchangeOrderId := (item.getD "exchange_order_id" (.str "")).toText texts

/-- `trailing_config`. -/
def TrailingConfig.toJson (config : TrailingConfig) : JsonDict :=
  .ofList
    [("enabled", .bool config.enabled),
     ("callback_rate", .ofFloat? config.callbackRate),
     ("activation_price", .ofFloat? config.activationPrice),
     ("highest_price", .ofFloat? config.highestPrice),
     ("lowest_price", .ofFloat? config.lowestPrice)]

/-- The trailing settings, from the column or from the row. -/
def TrailingConfig.fromDict (cfg row : JsonDict) : TrailingConfig where
  enabled := (cfg.getD "enabled" (row.lookup "trailing_enabled")).toBool false
  callbackRate := (cfg.getD "callback_rate" (row.lookup "trailing_callback_rate")).optionalFloat
  activationPrice :=
    (cfg.getD "activation_price" (row.lookup "trailing_activation_price")).optionalFloat
  highestPrice := (cfg.getD "highest_price" (row.lookup "trailing_highest_price")).optionalFloat
  lowestPrice := (cfg.getD "lowest_price" (row.lookup "trailing_lowest_price")).optionalFloat

/-- `breakeven_config`. -/
def BreakevenConfig.toJson (config : BreakevenConfig) : JsonDict :=
  .ofList
    [("enabled", .bool config.enabled),
     ("trigger_rr", .float config.triggerRr),
     ("activated", .bool config.activated)]

/-- The breakeven settings, from the column or from the row. -/
def BreakevenConfig.fromDict (cfg row : JsonDict) : BreakevenConfig where
  enabled := (cfg.getD "enabled" (row.lookup "breakeven_enabled")).toBool false
  triggerRr := (cfg.getD "trigger_rr" (row.lookup "breakeven_trigger_rr")).toFloat 1
  activated := (cfg.getD "activated" (row.lookup "breakeven_activated")).toBool false

/-- `volatility_config`. -/
def VolatilityConfig.toJson (config : VolatilityConfig) : JsonDict :=
  .ofList
    [("enabled", .bool config.enabled),
     ("atr_period", .int config.atrPeriod),
     ("atr_multiplier", .float config.atrMultiplier),
     ("last_atr", .ofFloat? config.lastAtr)]

/-- The volatility settings, from the column or from the row. -/
def VolatilityConfig.fromDict (cfg row : JsonDict) : VolatilityConfig where
  enabled := (cfg.getD "enabled" (row.lookup "volatility_sl_enabled")).toBool false
  atrPeriod := (cfg.getD "atr_period" (row.lookup "volatility_atr_period")).toInt 14
  atrMultiplier := (cfg.getD "atr_multiplier" (row.lookup "volatility_atr_multiplier")).toFloat 2
  lastAtr := (cfg.getD "last_atr" (row.lookup "volatility_last_atr")).optionalFloat

section decode

variable (texts : PythonTexts) (row : JsonDict)

theorem getD_ofList (entries : List (String × PyVal)) (key : String) (default : PyVal) :
    (InsertionDict.ofList entries : JsonDict).getD key default =
      ((entries.reverse.find? fun e => e.1 = key).map Prod.snd).getD default := by
  rw [InsertionDict.getD, InsertionDict.get?_ofList]

theorem slHistoryEntry_fromDict_toJson (entry : SLHistoryEntry) :
    SLHistoryEntry.fromDict texts entry.toJson = entry := by
  simp [SLHistoryEntry.fromDict, SLHistoryEntry.toJson, TaskParams.lookup, getD_ofList,
    PyVal.toFloat, PyVal.toFloat?, PyVal.toText]

theorem tpHistoryEntry_fromDict_toJson (entry : TPHistoryEntry) :
    TPHistoryEntry.fromDict texts entry.toJson = entry := by
  simp [TPHistoryEntry.fromDict, TPHistoryEntry.toJson, TaskParams.lookup, getD_ofList,
    PyVal.toFloat, PyVal.toFloat?, PyVal.toInt, PyVal.toInt?, PyVal.toText]

theorem trailingConfig_fromDict_toJson (config : TrailingConfig) :
    TrailingConfig.fromDict config.toJson row = config := by
  simp [TrailingConfig.fromDict, TrailingConfig.toJson, getD_ofList, PyVal.toBool]

theorem breakevenConfig_fromDict_toJson (config : BreakevenConfig) :
    BreakevenConfig.fromDict config.toJson row = config := by
  simp [BreakevenConfig.fromDict, BreakevenConfig.toJson, getD_ofList, PyVal.toBool,
    PyVal.toFloat, PyVal.toFloat?]

theorem volatilityConfig_fromDict_toJson (config : VolatilityConfig) :
    VolatilityConfig.fromDict config.toJson row = config := by
  simp [VolatilityConfig.fromDict, VolatilityConfig.toJson, getD_ofList, PyVal.toBool,
    PyVal.toFloat, PyVal.toFloat?, PyVal.toInt, PyVal.toInt?]

end decode

/-! ## Rows -/

/-- The default of `adjustment_priority`. -/
def defaultPriority : List String := ["watcher", "trailing", "breakeven", "volatility"]

/-- `list(self.adjustment_priority)`. -/
def priorityJson (priority : List String) : JsonColumn :=
  .list (priority.map fun name => .value (.str name))

/-- The priorities that are read back. -/
def parsePriority (texts : PythonTexts) : JsonColumn → List String
  | .list items =>
      items.map fun item =>
        match item with
        | .value v => v.toText texts
        | .dict d => texts.str (.dict d)
  | _ => defaultPriority

theorem parsePriority_priorityJson (texts : PythonTexts) (priority : List String) :
    parsePriority texts (priorityJson priority) = priority := by
  unfold priorityJson parsePriority
  dsimp only
  rw [List.map_map]
  exact List.map_id'' (fun _ => rfl) priority

/-- The columns of `AutoTradePosition` that a context is built from. -/
structure DbRow where
  id : String := ""
  symbol : String := ""
  side : String
  state : String := "open"
  entryPrice : ℚ
  quantity : ℚ
  tpPrice : ℚ
  slPrice : ℚ
  originalQuantity : Option ℚ := none
  currentQuantity : Option ℚ := none
  slExchangeOrderId : Option String := none
  slHistoryJson : JsonColumn := .list []
  tpMode : String := "single"
  tpLevelsJson : JsonColumn := .list []
  tpHistoryJson : JsonColumn := .list []
  trailingConfigJson : JsonColumn := .value .none
  breakevenConfigJson : JsonColumn := .value .none
  volatilityConfigJson : JsonColumn := .value .none
  adjustmentPriorityJson : JsonColumn := priorityJson defaultPriority
  transitionLog : List TransitionLogEntry := []

namespace DbRow

/-- The payload that a hydration builds of a row, without the JSON columns. -/
def payload (row : DbRow) : JsonDict :=
  .ofList
    [("symbol", .str row.symbol),
     ("side", .str row.side),
     ("entry_price", .float row.entryPrice),
     ("quantity", .float row.quantity),
     ("tp_price", .float row.tpPrice),
     ("sl_price", .float row.slPrice),
     ("state", .str row.state),
     ("original_quantity", .ofFloat? row.originalQuantity),
     ("current_quantity", .ofFloat? row.currentQuantity),
     ("sl_exchange_order_id", .ofText? row.slExchangeOrderId),
     ("tp_mode", .str row.tpMode),
     ("position_id", .str row.id)]

/-- What the database keeps of a row: its two `Numeric(20, 8)` columns round. -/
def stored (row : DbRow) : DbRow :=
  { row with
    originalQuantity := row.originalQuantity.map Row.numeric
    currentQuantity := row.currentQuantity.map Row.numeric }

end DbRow

/-- What `from_db_row` reads of a row; `none` when it raises.  `PositionContext.fromDbRow` makes
the context of it. -/
def Row.parse (texts : PythonTexts) (row : DbRow) : Option Row := do
  let dict := row.payload
  let side := parsePositionSide texts (dict.getD "side" (dict.lookup "position_side"))
  let entryPrice := (dict.lookup "entry_price").toFloat 0
  let trailing ← (texts.parseJson row.trailingConfigJson (.dict .empty)).dict?
  let breakeven ← (texts.parseJson row.breakevenConfigJson (.dict .empty)).dict?
  let volatility ← (texts.parseJson row.volatilityConfigJson (.dict .empty)).dict?
  some
    { positionId := (dict.getD "position_id" (dict.getD "id" (.str ""))).toText texts
      symbol := (dict.getD "symbol" (.str "")).toText texts
      side := side
      state := parsePositionState texts (dict.lookup "state")
      entryPrice := entryPrice
      quantity := row.quantity
      tpPrice := (dict.getD "current_tp_price" (dict.lookup "tp_price")).toFloat 0
      slPrice := (dict.getD "current_sl_price" (dict.getD "sl_price" (.float 0))).toFloat 0
      originalQuantity :=
        some ((dict.getD "original_quantity" (dict.getD "quantity" (.float 0))).toFloat 0)
      currentQuantity :=
        some ((dict.getD "current_quantity" (dict.getD "quantity" (.float 0))).toFloat 0)
      slExchangeOrderId := (dict.lookup "sl_exchange_order_id").optionalText texts
      slHistory :=
        (texts.parseJson row.slHistoryJson (.list [])).dicts.map (SLHistoryEntry.fromDict texts)
      tpMode := .ofText ((dict.getD "tp_mode" (.str "single")).toText texts)
      tpLevels :=
        (texts.parseJson row.tpLevelsJson (.list [])).dicts.map
          (TPLevel.fromDict texts entryPrice side)
      tpHistory :=
        (texts.parseJson row.tpHistoryJson (.list [])).dicts.map (TPHistoryEntry.fromDict texts)
      trailingConfig := .fromDict trailing dict
      breakevenConfig := .fromDict breakeven dict
      volatilityConfig := .fromDict volatility dict
      adjustmentPriority :=
        parsePriority texts
          (texts.parseJson row.adjustmentPriorityJson (priorityJson defaultPriority))
      transitionLog := row.transitionLog }

/-! ## Merging a context into its row -/

def PositionContext.trailingConfig (position : PositionContext) : TrailingConfig where
  enabled := position.trailingEnabled
  callbackRate := position.trailingCallbackRate
  activationPrice := position.trailingActivationPrice
  highestPrice := position.trailingHighestPrice
  lowestPrice := position.trailingLowestPrice

def PositionContext.breakevenConfig (position : PositionContext) : BreakevenConfig where
  enabled := position.breakevenEnabled
  triggerRr := position.breakevenTriggerRr
  activated := position.breakevenActivated

def PositionContext.volatilityConfig (position : PositionContext) : VolatilityConfig where
  enabled := position.volatilitySlEnabled
  atrPeriod := position.volatilityAtrPeriod
  atrMultiplier := position.volatilityAtrMultiplier
  lastAtr := position.volatilityLastAtr

/-- The entries of `to_db_dict` that a merge reads.  A context has no offsets here, so they are
given beside it, by the place of their level. -/
def PositionContext.toDbDict (position : PositionContext) (priceOffsetPct : ℕ → ℚ) :
    InsertionDict String JsonColumn :=
  .ofList
    [("sl_history_json", .list (position.slHistory.map fun entry => .dict entry.toJson)),
     ("tp_levels_json",
      .list (position.tpLevels.mapIdx fun i level => .dict (level.toJson (priceOffsetPct i)))),
     ("tp_history_json", .list (position.tpHistory.map fun entry => .dict entry.toJson)),
     ("trailing_config_json", .dict position.trailingConfig.toJson),
     ("breakeven_config_json", .dict position.breakevenConfig.toJson),
     ("volatility_config_json", .dict position.volatilityConfig.toJson),
     ("adjustment_priority_json", priorityJson position.adjustmentPriority)]

/-- `_merge_position_context_into_row`. -/
def DbRow.mergePositionContext (row : DbRow) (position : PositionContext)
    (priceOffsetPct : ℕ → ℚ) : DbRow :=
  let payload := position.toDbDict priceOffsetPct
  { row with
    state := position.state.value
    originalQuantity := some position.originalQuantity
    currentQuantity := some position.currentQuantity
    quantity :=
      if position.state ≠ .closed ∧ positionEpsilon < position.currentQuantity then
        position.currentQuantity
      else if row.quantity ≤ positionEpsilon ∧ positionEpsilon < position.originalQuantity then
        position.originalQuantity
      else row.quantity
    slPrice :=
      if positionEpsilon < position.currentSlPrice then position.currentSlPrice else row.slPrice
    tpPrice :=
      match position.resolveRuntimeTpPrice with
      | some price => if positionEpsilon < price then price else row.tpPrice
      | none => row.tpPrice
    slExchangeOrderId := position.slExchangeOrderId
    slHistoryJson := payload.getD "sl_history_json" (.value .none)
    tpMode := position.tpMode.text
    tpLevelsJson := payload.getD "tp_levels_json" (.value .none)
    tpHistoryJson := payload.getD "tp_history_json" (.value .none)
    trailingConfigJson := payload.getD "trailing_config_json" (.value .none)
    breakevenConfigJson := payload.getD "breakeven_config_json" (.value .none)
    volatilityConfigJson := payload.getD "volatility_config_json" (.value .none)
    adjustmentPriorityJson := payload.getD "adjustment_priority_json" (.value .none)
    transitionLog := position.stateMachine.transitionLog }

/-- The part of a row that a merge does not replace, as it is read. -/
def Row.kept (texts : PythonTexts) (row : DbRow) : Row where
  positionId := row.id
  symbol := row.symbol
  side := parsePositionSide texts (.str row.side)
  entryPrice := row.entryPrice
  quantity := row.quantity
  tpPrice := row.tpPrice
  slPrice := row.slPrice

theorem map_fromDict_mapIdx (texts : PythonTexts) (entryPrice : ℚ) (side : PositionSide)
    (priceOffsetPct : ℕ → ℚ) (levels : List TPLevel) :
    (JsonColumn.list
        (levels.mapIdx fun i level => .dict (level.toJson (priceOffsetPct i)))).dicts.map
      (TPLevel.fromDict texts entryPrice side) = levels.map TPLevel.canonical := by
  rw [List.mapIdx_eq_zipIdx_map]
  have hdicts := JsonColumn.dicts_list_map
    (fun e : TPLevel × ℕ => e.1.toJson (priceOffsetPct e.2)) levels.zipIdx
  rw [hdicts, List.map_map]
  have hread : TPLevel.fromDict texts entryPrice side ∘
      (fun e : TPLevel × ℕ => e.1.toJson (priceOffsetPct e.2)) = TPLevel.canonical ∘ Prod.fst :=
    funext fun e => TPLevel.fromDict_toJson texts entryPrice (priceOffsetPct e.2) side e.1
  rw [hread, ← List.map_map, List.zipIdx_map_fst]

/-- **What a merge writes is read back**, but for what the columns round: the row is the one that
`Ws.Hydration` says a merge makes of the columns that it keeps. -/
theorem parse_mergePositionContext (texts : PythonTexts) (row : DbRow)
    (position : PositionContext) (priceOffsetPct : ℕ → ℚ) :
    Row.parse texts (row.mergePositionContext position priceOffsetPct).stored =
      some
        { (Row.kept texts row).mergePositionContext position with
          originalQuantity := some (Row.numeric position.originalQuantity)
          currentQuantity := some (Row.numeric position.currentQuantity)
          tpLevels := position.tpLevels.map TPLevel.canonical } := by
  have hsl : SLHistoryEntry.fromDict texts ∘ SLHistoryEntry.toJson = id :=
    funext (slHistoryEntry_fromDict_toJson texts)
  have htp : TPHistoryEntry.fromDict texts ∘ TPHistoryEntry.toJson = id :=
    funext (tpHistoryEntry_fromDict_toJson texts)
  have hpriority : texts.parseJson (priorityJson position.adjustmentPriority)
      (priorityJson defaultPriority) = priorityJson position.adjustmentPriority := rfl
  have hquantity : (row.mergePositionContext position priceOffsetPct).quantity =
      ((Row.kept texts row).mergePositionContext position).quantity := rfl
  have htpPrice : (row.mergePositionContext position priceOffsetPct).tpPrice =
      ((Row.kept texts row).mergePositionContext position).tpPrice := rfl
  simp only [Row.parse, DbRow.stored, DbRow.payload, hquantity, htpPrice]
  simp [DbRow.mergePositionContext, PositionContext.toDbDict, TaskParams.lookup,
    InsertionDict.getD, InsertionDict.get?_ofList, JsonColumn.dict?, PyVal.toText, PyVal.toFloat,
    PyVal.toFloat?, PyVal.ofFloat?, trailingConfig_fromDict_toJson,
    breakevenConfig_fromDict_toJson, volatilityConfig_fromDict_toJson,
    parsePriority_priorityJson, Row.kept, Row.mergePositionContext, map_fromDict_mapIdx, hsl, htp,
    hpriority, PositionContext.trailingConfig, PositionContext.breakevenConfig,
    PositionContext.volatilityConfig]

/-! ## What survives a restart -/

/-- Two levels with the same data; statuses are the same if their texts are. -/
structure TPLevel.Same (a b : TPLevel) : Prop where
  level : a.level = b.level
  closePct : a.closePct = b.closePct
  triggerPrice : a.triggerPrice = b.triggerPrice
  status : a.status.text = b.status.text
  exchangeOrderId : a.exchangeOrderId = b.exchangeOrderId
  moveSlTo : a.moveSlTo = b.moveSlTo
  slLockPct : a.slLockPct = b.slLockPct

theorem TPLevel.same_canonical (level : TPLevel) : level.canonical.Same level :=
  ⟨rfl, rfl, rfl, TPStatus.text_ofText _, rfl, rfl, rfl⟩

/-- What a context that is built again from its row has of the context that was merged into it. -/
structure PositionContext.Restored (texts : PythonTexts) (row : DbRow)
    (position again : PositionContext) : Prop where
  state : again.state = position.state
  machine : again.stateMachine.state = position.state
  originalQuantity : again.originalQuantity = Row.numeric position.originalQuantity
  currentQuantity : again.currentQuantity = Row.numeric position.currentQuantity
  /-- a stop that is not above zero leaves the one of the row -/
  currentSlPrice : again.currentSlPrice =
    if positionEpsilon < position.currentSlPrice then position.currentSlPrice else row.slPrice
  /-- the side is read from the text of the row, and that is the name of the side -/
  side : again.side = parsePositionSide texts (.str row.side)
  sameSide : row.side = position.side.memberName → again.side = position.side
  entryPrice : row.entryPrice = position.entryPrice → again.entryPrice = position.entryPrice
  tpMode : again.tpMode = position.tpMode
  tpLevels : List.Forall₂ TPLevel.Same again.tpLevels position.tpLevels
  slExchangeOrderId : again.slExchangeOrderId = position.slExchangeOrderId
  trailing : again.trailingConfig = position.trailingConfig
  breakeven : again.breakevenConfig = position.breakevenConfig
  volatility : again.volatilityConfig = position.volatilityConfig
  /-- the guard against concurrent fills starts empty -/
  dispatched : again.dispatchedSlLevels = ∅

/-- `from_db_row` -/
def PositionContext.ofDbRow (texts : PythonTexts) (row : DbRow) : Option PositionContext :=
  (Row.parse texts row).map PositionContext.fromDbRow

/-- **A position survives a restart**: the context that is built again from the row that a context
has been merged into is the same, up to what the columns round and to what a row does not have. -/
theorem restored_mergePositionContext (texts : PythonTexts) (row : DbRow)
    (position : PositionContext) (priceOffsetPct : ℕ → ℚ) :
    ∃ again, PositionContext.ofDbRow texts
        (row.mergePositionContext position priceOffsetPct).stored = some again ∧
      position.Restored texts row again := by
  unfold PositionContext.ofDbRow
  rw [parse_mergePositionContext]
  refine ⟨_, rfl, ?_⟩
  have hlevels : List.Forall₂ TPLevel.Same (position.tpLevels.map TPLevel.canonical)
      position.tpLevels := by
    rw [List.forall₂_map_left_iff]
    exact List.forall₂_same.mpr fun level _ => level.same_canonical
  constructor
  case sameSide =>
    intro hside
    simp only [PositionContext.fromDbRow, Row.mergePositionContext, Row.kept]
    rw [hside, parsePositionSide_memberName]
  case entryPrice => exact id
  case tpLevels => exact hlevels
  all_goals rfl

/-! ## A dispatched level and a ninth decimal -/

/-- A position of 1 with two levels that close half of it each. -/
def twoLevels : RecordedRow where
  positionId := "7"
  symbol := "BTCUSDT"
  entryPrice := 100
  quantity := 1
  slPrice := 90
  originalQuantity := some 1
  currentQuantity := some 1
  tpMode := .multi
  tpLevels :=
    [{ closePct := 50, triggerPrice := 110, status := .open, exchangeOrderId := some "tp-1" },
     { level := 1, closePct := 50, triggerPrice := 120, status := .open,
       exchangeOrderId := some "tp-2" }]
  recorded := logAllowed_nil

/-- The first level fills, and the exchange reports a size with nine decimals. -/
def filledThenSized : List (Turn WsEvent WsAnswer) :=
  [.call (.hydrated twoLevels),
    .call (.orderUpdate 0
      { orderId := "tp-1", orderType := "take_profit", status := "filled" })] ++
    List.replicate 4 (.resume 1 {}) ++
    [.call (.positionUpdate 0 (499999999 / 1000000000)), .resume 2 {}]

/-- **A restart does not bring everything back.**  Behind a fill and a size with nine decimals, the
context that is built again does not know that the stop shift of the level has been dispatched, and
its quantity has been rounded. -/
theorem restart_forgets :
    ∃ turns loop, WsRuntime.Reaches turns loop ∧
      ∀ texts (row : DbRow) priceOffsetPct, ∃ again,
        PositionContext.ofDbRow texts
          (row.mergePositionContext (loop.shared.contexts 0) priceOffsetPct).stored = some again ∧
        again.dispatchedSlLevels ≠ (loop.shared.contexts 0).dispatchedSlLevels ∧
        again.currentQuantity ≠ (loop.shared.contexts 0).currentQuantity := by
  have hend : (StepSystem.run (EventLoop.step WsHandler.handle) ⟨{}, []⟩ filledThenSized).map
      (fun loop => (decide (0 ∈ (loop.shared.contexts 0).dispatchedSlLevels),
        (loop.shared.contexts 0).currentQuantity)) = some (true, 499999999 / 1000000000) := by
    decide +kernel
  obtain ⟨loop, hloop, hcontext⟩ := Option.map_eq_some_iff.mp hend
  obtain ⟨hdispatched, hquantity⟩ := Prod.mk.injEq .. ▸ hcontext
  refine ⟨filledThenSized, loop, hloop, fun texts row priceOffsetPct => ?_⟩
  unfold PositionContext.ofDbRow
  rw [parse_mergePositionContext]
  refine ⟨_, rfl, ?_, ?_⟩
  · intro hsame
    have hmem := of_decide_eq_true hdispatched
    rw [← hsame] at hmem
    exact absurd hmem (Finset.notMem_empty 0)
  · simp only [PositionContext.fromDbRow, hquantity]
    decide +kernel

end AdviserConstructor
