import AdviserConstructor.AutoTrade.SignalTrading
import AdviserConstructor.Library.DecimalText
import Mathlib.Tactic.Linarith

/-!
# Reading a signal from an analysis

`app/services/auto_trade/signal.py`: the result of an analysis is a JSON object, either in the
strict contract or in the legacy form, which `adapt_legacy_analysis_structured_payload` turns into
the strict one.  Either may give the confidence as a fraction.  The adapter scales a fraction, and
so does `parse_auto_trade_signal`, through which the adapted payload goes as well.

* `parseSignal_eq_of_valid`: with a content that is valid otherwise, the confidence alone decides;
* `readConfidencePct_adapted`: what becomes of a number on both ways;
* `sameConfidence_iff`: the two ways agree exactly if the confidence is no positive number up to a
  hundredth.

Floats are rationals with the two infinities and the value that is not a number.  The reading and
writing of ISO timestamps by `datetime` is a parameter.
-/

namespace AdviserConstructor
namespace SignalParsing

open DecimalText

/-! ## Floats -/

/-- A float. -/
inductive PyFloat where
  | finite (x : ℚ)
  | infinity
  | negInfinity
  | nan
  deriving DecidableEq

namespace PyFloat

/-- `x <= y`. -/
def le : PyFloat → PyFloat → Bool
  | .nan, _ | _, .nan => false
  | .negInfinity, _ | _, .infinity => true
  | .finite x, .finite y => x ≤ y
  | _, _ => false

/-- `x < y`. -/
def lt : PyFloat → PyFloat → Bool
  | .nan, _ | _, .nan => false
  | .finite x, .finite y => x < y
  | .negInfinity, y => y ≠ .negInfinity
  | .finite _, y => y = .infinity
  | .infinity, _ => false

/-- `x * 100.0`. -/
def timesHundred : PyFloat → PyFloat
  | .finite x => .finite (x * 100)
  | x => x

/-- `float` of a text; `none` is a `ValueError`. -/
def ofText (text : String) : Option PyFloat :=
  let (sign, rest) := takeSign (strip (lowered text).toList)
  if String.ofList rest = "inf" ∨ String.ofList rest = "infinity" then
    some (if sign = 1 then .infinity else .negInfinity)
  else if String.ofList rest = "nan" then some .nan
  else (parseDecimal text).map .finite

end PyFloat

example : PyFloat.ofText " -Infinity" = some .negInfinity := by decide +kernel

/-! ## Payloads -/

/-- A value of a JSON document. -/
inductive PayloadValue where
  | null
  | bool (b : Bool)
  | number (x : PyFloat)
  | text (s : String)
  | array (items : List PayloadValue)
  | object (entries : List (String × PayloadValue))

abbrev Payload := List (String × PayloadValue)

/-- `payload.get(key)`. -/
def valueAt (payload : Payload) (key : String) : PayloadValue :=
  (payload.lookup key).getD .null

namespace PayloadValue

/-- The truth value, which `or` goes by. -/
def truthy : PayloadValue → Bool
  | .null => false
  | .bool b => b
  | .number x => x ≠ .finite 0
  | .text s => s ≠ ""
  | .array items => !items.isEmpty
  | .object entries => !entries.isEmpty

/-- `value or other`. -/
def orElse (value other : PayloadValue) : PayloadValue := if value.truthy then value else other

def ofText? : Option String → PayloadValue
  | none => .null
  | some s => .text s

/-- `float(value)` where the value is a number or a text, and no truth value. -/
def float? : PayloadValue → Option PyFloat
  | .number x => some x
  | .text s => PyFloat.ofText s
  | _ => none

end PayloadValue

/-- `datetime.fromisoformat` and `isoformat`. -/
structure IsoTime where
  read : String → Option ℚ
  write : ℚ → String

/-! ## The adapter -/

/-- `_normalize_trend_from_bias`. -/
def normalizeTrendFromBias : PayloadValue → Option String
  | .text value =>
      let normalized := uppered (stripped value)
      if normalized ∈ ["LONG", "SHORT", "NEUTRAL"] then some normalized
      else [("BULLISH", "LONG"), ("BEARISH", "SHORT"), ("FLAT", "NEUTRAL")].lookup normalized
  | _ => none

/-- `_normalize_confidence_pct`. -/
def normalizeConfidencePct (value : PayloadValue) : Option PyFloat :=
  value.float?.map fun parsed =>
    if parsed.le (.finite 1) then parsed.timesHundred else parsed

def strictKeys : List String :=
  ["schema_version", "symbol", "trend", "confidence_pct", "price", "generated_at"]

/-- What the queue knows of a history besides its payload. -/
structure HistoryInfo where
  symbol : Option String := none
  coreCompletedAt : Option ℚ := none
  createdAt : Option ℚ := none

/-- The confidence of an adapted payload. -/
def adaptedConfidence (confidence : PayloadValue) : PayloadValue :=
  match normalizeConfidencePct confidence with
  | none => .null
  | some x => .number x

/-- `adapt_legacy_analysis_structured_payload`. -/
def adaptLegacyAnalysisStructuredPayload (iso : IsoTime) (history : HistoryInfo) :
    PayloadValue → PayloadValue
  | .object payload =>
      if strictKeys.all fun key => (payload.lookup key).isSome then .object payload
      else
        match valueAt payload "analysisStructured" with
        | .object structured => .object
            [("schema_version", .text "legacy-analysisStructured-v1"),
              ("symbol", (valueAt structured "symbol").orElse (.ofText? history.symbol)),
              ("trend", .ofText? (normalizeTrendFromBias (valueAt structured "bias"))),
              ("confidence_pct", adaptedConfidence (valueAt structured "confidence")),
              ("price", .object [("current", valueAt structured "currentPrice")]),
              ("generated_at", ((valueAt structured "timestamp").orElse
                (.ofText? (history.coreCompletedAt.map iso.write))).orElse
                  (.ofText? (history.createdAt.map iso.write)))]
        | _ => .object payload
  | payload => payload

/-! ## The parser -/

/-- `ParsedAutoTradeSignal`. -/
structure ParsedAutoTradeSignal where
  schemaVersion : String
  symbol : String
  trend : Trend
  confidencePct : PyFloat
  priceCurrent : PyFloat
  generatedAt : ℚ
  deriving DecidableEq

def readText (error : String) : PayloadValue → Except String String
  | .text s => if stripped s = "" then .error error else .ok (stripped s)
  | _ => .error error

def readTrend : PayloadValue → Except String Trend
  | .text s =>
      let trend := uppered (stripped s)
      if trend = "LONG" then .ok .long
      else if trend = "SHORT" then .ok .short
      else if trend = "NEUTRAL" then .ok .neutral
      else .error "trend must be one of LONG, SHORT, NEUTRAL."
  | _ => .error "trend is required."

def readConfidencePct (value : PayloadValue) : Except String PyFloat :=
  match value.float? with
  | none => .error "confidence_pct must be a number in [0, 100]."
  | some confidence =>
      let confidencePct :=
        if PyFloat.lt (.finite 0) confidence ∧ confidence.le (.finite 1) then
          confidence.timesHundred
        else confidence
      if confidencePct.lt (.finite 0) ∨ PyFloat.lt (.finite 100) confidencePct then
        .error "confidence_pct must be in range [0, 100]."
      else .ok confidencePct

def readPriceCurrent : PayloadValue → Except String PyFloat
  | .object price =>
      match (valueAt price "current").float? with
      | none => .error "price.current must be a positive number."
      | some priceCurrent =>
          if priceCurrent.le (.finite 0) then .error "price.current must be a positive number."
          else .ok priceCurrent
  | _ => .error "price object with current is required."

/-- `value.replace("Z", "+00:00")`. -/
def replaceZ (value : String) : String :=
  String.ofList (value.toList.flatMap fun c => if c = 'Z' then "+00:00".toList else [c])

/-- `_parse_datetime`. -/
def parseDatetime (iso : IsoTime) : PayloadValue → Except String ℚ
  | .text value =>
      if stripped value = "" then .error "generated_at must be a non-empty ISO timestamp string."
      else
        match iso.read (replaceZ value) with
        | some time => .ok time
        | none => .error "generated_at must be a valid ISO timestamp."
  | _ => .error "generated_at must be a non-empty ISO timestamp string."

/-- `parse_auto_trade_signal`. -/
def parseAutoTradeSignal (iso : IsoTime) : PayloadValue → Except String ParsedAutoTradeSignal
  | .object payload => do
      let schemaVersion ← readText "schema_version is required." (valueAt payload "schema_version")
      let symbol ← readText "symbol is required." (valueAt payload "symbol")
      let trend ← readTrend (valueAt payload "trend")
      let confidencePct ← readConfidencePct (valueAt payload "confidence_pct")
      let priceCurrent ← readPriceCurrent (valueAt payload "price")
      let generatedAt ← parseDatetime iso (valueAt payload "generated_at")
      return { schemaVersion, symbol, trend, confidencePct, priceCurrent, generatedAt }
  | _ => .error "result_json must be an object."

/-- The reading of an item of the queue. -/
def readHistory (iso : IsoTime) (history : HistoryInfo) (payload : PayloadValue) :
    Except String ParsedAutoTradeSignal :=
  parseAutoTradeSignal iso (adaptLegacyAnalysisStructuredPayload iso history payload)

/-! ## The two contents -/

/-- A legacy payload, without its confidence: the entries of `analysisStructured`, and those beside
it, in which the strict contract is not complete. -/
structure LegacyContent where
  structured : Payload
  beside : Payload := []
  legacy : (strictKeys.all fun key => (beside.lookup key).isSome) = false
  history : HistoryInfo := {}

def LegacyContent.payload (content : LegacyContent) (confidence : PayloadValue) : PayloadValue :=
  .object (("analysisStructured", .object (("confidence", confidence) :: content.structured)) ::
    content.beside)

/-- What the queue reads from a legacy payload. -/
def LegacyContent.read (iso : IsoTime) (content : LegacyContent) (confidence : PayloadValue) :
    Except String ParsedAutoTradeSignal :=
  readHistory iso content.history (content.payload confidence)

/-- What is read from a strict payload, given by its entries besides the confidence. -/
def readStrict (iso : IsoTime) (content : Payload) (confidence : PayloadValue) :
    Except String ParsedAutoTradeSignal :=
  parseAutoTradeSignal iso (.object (("confidence_pct", confidence) :: content))

/-- A content that is accepted with some confidence. -/
def OtherwiseValid (read : PayloadValue → Except String ParsedAutoTradeSignal) : Prop :=
  ∃ confidence signal, read confidence = .ok signal

/-- Both are accepted, with the same confidence, or neither is. -/
def SameConfidence (signal signal' : Except String ParsedAutoTradeSignal) : Prop :=
  match signal, signal' with
  | .ok signal, .ok signal' => signal.confidencePct = signal'.confidencePct
  | .error _, .error _ => True
  | _, _ => False

theorem valueAt_cons_self (key : String) (value : PayloadValue) (payload : Payload) :
    valueAt ((key, value) :: payload) key = value := by
  rw [valueAt, List.lookup_cons_self, Option.getD_some]

theorem valueAt_cons_of_ne {key key' : String} (h : key' ≠ key) (value : PayloadValue)
    (payload : Payload) : valueAt ((key, value) :: payload) key' = valueAt payload key' := by
  rw [valueAt, List.lookup_cons, beq_false_of_ne h]
  rfl

/-! ## The confidence decides -/

section Decides

variable {iso : IsoTime} {payload payload' : Payload}

/-- Two payloads that have the same besides the confidence. -/
def SameBesides (payload payload' : Payload) : Prop :=
  ∀ key ∈ strictKeys, key ≠ "confidence_pct" → valueAt payload key = valueAt payload' key

/-- **With a content that is valid otherwise the confidence alone decides** whether a signal is
accepted, and nothing else of the signal depends on it. -/
theorem parseSignal_eq_of_valid (h : SameBesides payload payload') {signal : ParsedAutoTradeSignal}
    (hvalid : parseAutoTradeSignal iso (.object payload) = .ok signal) :
    parseAutoTradeSignal iso (.object payload') =
      (readConfidencePct (valueAt payload' "confidence_pct")).map fun confidencePct =>
        { signal with confidencePct } := by
  have hschema := h "schema_version" (by simp [strictKeys]) (by decide)
  have hsymbol := h "symbol" (by simp [strictKeys]) (by decide)
  have htrend := h "trend" (by simp [strictKeys]) (by decide)
  have hprice := h "price" (by simp [strictKeys]) (by decide)
  have htime := h "generated_at" (by simp [strictKeys]) (by decide)
  simp only [parseAutoTradeSignal] at hvalid ⊢
  rw [← hschema, ← hsymbol, ← htrend, ← hprice, ← htime]
  -- everything that is read besides the confidence has been read without an error
  cases hs : readText "schema_version is required." (valueAt payload "schema_version") with
  | error e => rw [hs] at hvalid; exact absurd hvalid (by simp [bind, Except.bind])
  | ok schemaVersion =>
  cases hy : readText "symbol is required." (valueAt payload "symbol") with
  | error e => rw [hs, hy] at hvalid; exact absurd hvalid (by simp [bind, Except.bind])
  | ok symbol =>
  cases ht : readTrend (valueAt payload "trend") with
  | error e => rw [hs, hy, ht] at hvalid; exact absurd hvalid (by simp [bind, Except.bind])
  | ok trend =>
  cases hc : readConfidencePct (valueAt payload "confidence_pct") with
  | error e => rw [hs, hy, ht, hc] at hvalid; exact absurd hvalid (by simp [bind, Except.bind])
  | ok confidencePct =>
  cases hp : readPriceCurrent (valueAt payload "price") with
  | error e => rw [hs, hy, ht, hc, hp] at hvalid; exact absurd hvalid (by simp [bind, Except.bind])
  | ok priceCurrent =>
  cases hg : parseDatetime iso (valueAt payload "generated_at") with
  | error e =>
    rw [hs, hy, ht, hc, hp, hg] at hvalid
    exact absurd hvalid (by simp [bind, Except.bind])
  | ok generatedAt =>
  rw [hs, hy, ht, hc, hp, hg] at hvalid
  obtain rfl := Except.ok.inj hvalid
  cases readConfidencePct (valueAt payload' "confidence_pct") with
  | error e => rfl
  | ok confidencePct' => rfl

end Decides

/-- What the adapter makes of a legacy payload. -/
def LegacyContent.adapted (iso : IsoTime) (content : LegacyContent) (confidence : PayloadValue) :
    Payload :=
  [("schema_version", .text "legacy-analysisStructured-v1"),
    ("symbol", (valueAt content.structured "symbol").orElse (.ofText? content.history.symbol)),
    ("trend", .ofText? (normalizeTrendFromBias (valueAt content.structured "bias"))),
    ("confidence_pct", adaptedConfidence confidence),
    ("price", .object [("current", valueAt content.structured "currentPrice")]),
    ("generated_at", ((valueAt content.structured "timestamp").orElse
      (.ofText? (content.history.coreCompletedAt.map iso.write))).orElse
        (.ofText? (content.history.createdAt.map iso.write)))]

theorem LegacyContent.read_eq (iso : IsoTime) (content : LegacyContent)
    (confidence : PayloadValue) :
    content.read iso confidence =
      parseAutoTradeSignal iso (.object (content.adapted iso confidence)) := by
  have hbeside : strictKeys.all (fun key =>
      (List.lookup key (("analysisStructured",
        PayloadValue.object (("confidence", confidence) :: content.structured)) ::
          content.beside)).isSome) = false := by
    rw [← content.legacy]
    simp [strictKeys, List.lookup_cons]
  rw [LegacyContent.read, readHistory, LegacyContent.payload, adaptLegacyAnalysisStructuredPayload,
    hbeside, if_neg Bool.false_ne_true, valueAt_cons_self]
  dsimp only
  rw [valueAt_cons_self, valueAt_cons_of_ne (by decide), valueAt_cons_of_ne (by decide),
    valueAt_cons_of_ne (by decide), valueAt_cons_of_ne (by decide), LegacyContent.adapted]

/-- The reading of a content that is valid otherwise, as far as it depends on the confidence. -/
def ReadsBy (read : PayloadValue → Except String ParsedAutoTradeSignal)
    (readConfidence : PayloadValue → Except String PyFloat) : Prop :=
  ∃ signal : ParsedAutoTradeSignal, ∀ confidence,
    read confidence = (readConfidence confidence).map fun confidencePct =>
      { signal with confidencePct }

theorem readsBy_strict {iso : IsoTime} {content : Payload}
    (h : OtherwiseValid (readStrict iso content)) :
    ReadsBy (readStrict iso content) readConfidencePct := by
  obtain ⟨confidence, signal, hvalid⟩ := h
  refine ⟨signal, fun confidence' => ?_⟩
  have hsame : SameBesides (("confidence_pct", confidence) :: content)
      (("confidence_pct", confidence') :: content) := fun key _ hkey => by
    rw [valueAt_cons_of_ne hkey, valueAt_cons_of_ne hkey]
  rw [readStrict, parseSignal_eq_of_valid hsame hvalid, valueAt_cons_self]

theorem readsBy_legacy {iso : IsoTime} {content : LegacyContent}
    (h : OtherwiseValid (content.read iso)) :
    ReadsBy (content.read iso) fun confidence =>
      readConfidencePct (adaptedConfidence confidence) := by
  obtain ⟨confidence, signal, hvalid⟩ := h
  rw [LegacyContent.read_eq] at hvalid
  refine ⟨signal, fun confidence' => ?_⟩
  have hsame : SameBesides (content.adapted iso confidence) (content.adapted iso confidence') := by
    intro key hkey hne
    simp only [strictKeys, List.mem_cons, List.not_mem_nil, or_false] at hkey
    rcases hkey with rfl | rfl | rfl | rfl | rfl | rfl
    · rfl
    · rfl
    · rfl
    · exact absurd rfl hne
    · rfl
    · rfl
  rw [LegacyContent.read_eq, parseSignal_eq_of_valid hsame hvalid]
  rfl

/-! ## Once and twice -/

/-- A positive number up to a hundredth: what is a fraction still when it has been scaled. -/
def ScaledTwice (confidence : PayloadValue) : Prop :=
  ∃ x, confidence.float? = some (.finite x) ∧ 0 < x ∧ x ≤ 1 / 100

theorem readConfidencePct_of_float {value : PayloadValue} {x : ℚ}
    (h : value.float? = some (.finite x)) :
    (0 < x ∧ x ≤ 1 → readConfidencePct value = .ok (.finite (x * 100))) ∧
      (x = 0 ∨ 1 < x ∧ x ≤ 100 → readConfidencePct value = .ok (.finite x)) ∧
        (x < 0 ∨ 100 < x → readConfidencePct value =
          .error "confidence_pct must be in range [0, 100].") := by
  refine ⟨fun ⟨hpos, hone⟩ => ?_, fun hx => ?_, fun hx => ?_⟩
  · have hhigh : ¬ 100 < x * 100 := by linarith
    simp [readConfidencePct, h, PyFloat.lt, PyFloat.le, PyFloat.timesHundred, hpos, hone, hhigh]
  · have hscale : ¬(0 < x ∧ x ≤ 1) := by
      rintro ⟨hpos, hone⟩
      rcases hx with rfl | hx
      · exact absurd hpos (lt_irrefl 0)
      · exact absurd hx.1 (not_lt.mpr hone)
    have hlow : ¬ x < 0 := by
      rcases hx with rfl | hx
      · exact lt_irrefl 0
      · linarith
    have hhigh : ¬ 100 < x := by
      rcases hx with rfl | hx
      · norm_num
      · exact not_lt.mpr hx.2
    simp only [readConfidencePct, h, PyFloat.lt, PyFloat.le, decide_eq_true_eq, if_neg hscale]
    rw [if_neg (not_or.mpr ⟨hlow, hhigh⟩)]
  · have hscale : ¬(0 < x ∧ x ≤ 1) := by
      rintro ⟨hpos, hone⟩
      rcases hx with hx | hx <;> linarith
    simp only [readConfidencePct, h, PyFloat.lt, PyFloat.le, decide_eq_true_eq, if_neg hscale]
    rw [if_pos hx]

/-- **What becomes of a number on both ways.**  Up to a hundredth it is scaled twice by the adapter
and the parser; any other value is read the same. -/
theorem readConfidencePct_adapted (confidence : PayloadValue) :
    (∀ x, confidence.float? = some (.finite x) → 0 < x → x ≤ 1 / 100 →
      readConfidencePct (adaptedConfidence confidence) = .ok (.finite (x * 10000)) ∧
        readConfidencePct confidence = .ok (.finite (x * 100))) ∧
    (¬ ScaledTwice confidence →
      (readConfidencePct (adaptedConfidence confidence)).toOption =
        (readConfidencePct confidence).toOption) := by
  have hadapted : ∀ x, confidence.float? = some x → adaptedConfidence confidence =
      .number (if x.le (.finite 1) then x.timesHundred else x) := fun x hx => by
    rw [adaptedConfidence, normalizeConfidencePct, hx]
    rfl
  refine ⟨fun x hx hpos hsmall => ?_, fun htwice => ?_⟩
  · have hone : x ≤ 1 := by linarith
    have hnumber : adaptedConfidence confidence = .number (.finite (x * 100)) := by
      rw [hadapted _ hx, PyFloat.le, if_pos (by simpa using hone), PyFloat.timesHundred]
    rw [hnumber, ((@readConfidencePct_of_float (.number (.finite (x * 100))) _ rfl).1
      ⟨by linarith, by linarith⟩), (readConfidencePct_of_float hx).1 ⟨hpos, hone⟩]
    exact ⟨by rw [mul_assoc]; norm_num, rfl⟩
  · have hcongr : ∀ value value' : PayloadValue, value.float? = value'.float? →
        readConfidencePct value = readConfidencePct value' := fun value value' hvalue => by
      rw [readConfidencePct, hvalue, readConfidencePct]
    cases hfloat : confidence.float? with
    | none =>
      have hnull : adaptedConfidence confidence = .null := by
        rw [adaptedConfidence, normalizeConfidencePct, hfloat]
        rfl
      rw [hnull, hcongr confidence .null hfloat]
    | some value =>
      rw [hadapted value hfloat]
      cases value with
      | nan => rw [hcongr confidence (.number .nan) hfloat]; rfl
      | infinity => rw [hcongr confidence (.number .infinity) hfloat]; rfl
      | negInfinity => rw [hcongr confidence (.number .negInfinity) hfloat]; rfl
      | finite x =>
        have hread := readConfidencePct_of_float hfloat
        by_cases hone : x ≤ 1
        · have hnumber := @readConfidencePct_of_float (.number (.finite (x * 100))) _ rfl
          rw [PyFloat.le, if_pos (by simpa using hone), PyFloat.timesHundred]
          rcases lt_trichotomy x 0 with hneg | rfl | hpos
          · rw [hnumber.2.2 (Or.inl (by linarith)), hread.2.2 (Or.inl hneg)]
          · rw [hnumber.2.1 (Or.inl (zero_mul _)), hread.2.1 (Or.inl rfl), zero_mul]
          · -- a fraction above a hundredth is a percentage above one
            have hlarge : 1 / 100 < x := by
              by_contra hsmall
              exact htwice ⟨x, hfloat, hpos, not_lt.mp hsmall⟩
            rw [hnumber.2.1 (Or.inr ⟨by linarith, by linarith⟩), hread.1 ⟨hpos, hone⟩]
        · rw [PyFloat.le, if_neg (by simpa using hone),
            hcongr confidence (.number (.finite x)) hfloat]

theorem sameConfidence_iff_toOption
    {read read' : PayloadValue → Except String ParsedAutoTradeSignal}
    {readConfidence readConfidence' : PayloadValue → Except String PyFloat}
    (h : ReadsBy read readConfidence) (h' : ReadsBy read' readConfidence')
    (confidence : PayloadValue) :
    SameConfidence (read confidence) (read' confidence) ↔
      (readConfidence confidence).toOption = (readConfidence' confidence).toOption := by
  obtain ⟨signal, hread⟩ := h
  obtain ⟨signal', hread'⟩ := h'
  rw [hread, hread']
  cases readConfidence confidence with
  | error e =>
    cases readConfidence' confidence with
    | error e' => exact iff_of_true trivial rfl
    | ok x' => exact iff_of_false id (by simp [Except.toOption])
  | ok x =>
    cases readConfidence' confidence with
    | error e' => exact iff_of_false id (by simp [Except.toOption])
    | ok x' => exact (Option.some_inj).symm

/-- **The two ways agree exactly if nothing is scaled twice**: whatever the rest of a legacy and of
a strict payload says, as long as it is valid. -/
theorem sameConfidence_iff (iso : IsoTime) (content : LegacyContent) (strict : Payload)
    (confidence : PayloadValue) (hlegacy : OtherwiseValid (content.read iso))
    (hstrict : OtherwiseValid (readStrict iso strict)) :
    SameConfidence (content.read iso confidence) (readStrict iso strict confidence) ↔
      ¬ ScaledTwice confidence := by
  rw [sameConfidence_iff_toOption (readsBy_legacy hlegacy) (readsBy_strict hstrict)]
  constructor
  · rintro hsame ⟨x, hx, hpos, hsmall⟩
    obtain ⟨htwice, honce⟩ := (readConfidencePct_adapted confidence).1 x hx hpos hsmall
    rw [htwice, honce] at hsame
    simp only [Except.toOption, Option.some.injEq, PyFloat.finite.injEq] at hsame
    linarith
  · exact (readConfidencePct_adapted confidence).2

/-! ## A particular analysis -/

def newYear : IsoTime where
  read text := if text = "2024-01-01T00:00:00+00:00" then some 1704067200 else none
  write _ := "2024-01-01T00:00:00+00:00"

/-- A bullish analysis in the legacy form. -/
def legacyBull : LegacyContent where
  structured :=
    [("symbol", .text "BTC/USDT"), ("bias", .text "bullish"),
      ("currentPrice", .number (.finite 60000)), ("timestamp", .text "2024-01-01T00:00:00Z")]
  legacy := rfl

def strictBull : Payload :=
  [("schema_version", .text "legacy-analysisStructured-v1"), ("symbol", .text "BTC/USDT"),
    ("trend", .text "LONG"), ("price", .object [("current", .number (.finite 60000))]),
    ("generated_at", .text "2024-01-01T00:00:00Z")]

def bullSignal (confidencePct : ℚ) : ParsedAutoTradeSignal where
  schemaVersion := "legacy-analysisStructured-v1"
  symbol := "BTC/USDT"
  trend := .long
  confidencePct := .finite confidencePct
  priceCurrent := .finite 60000
  generatedAt := 1704067200

theorem otherwiseValid_bull :
    OtherwiseValid (legacyBull.read newYear) ∧ OtherwiseValid (readStrict newYear strictBull) :=
  ⟨⟨.number (.finite 50), bullSignal 50, by decide +kernel⟩,
    ⟨.number (.finite 50), bullSignal 50, by decide +kernel⟩⟩

theorem sameConfidence_bull :
    SameConfidence (legacyBull.read newYear (.text "0.65"))
      (readStrict newYear strictBull (.text "0.65")) := by
  refine (sameConfidence_iff newYear legacyBull strictBull (.text "0.65") otherwiseValid_bull.1
    otherwiseValid_bull.2).mpr ?_
  rintro ⟨x, hx, -, hsmall⟩
  have hread : PayloadValue.float? (.text "0.65") = some (.finite (65 / 100)) := by decide +kernel
  rw [hread] at hx
  simp only [Option.some.injEq, PyFloat.finite.injEq] at hx
  rw [← hx] at hsmall
  norm_num at hsmall

/-- Half a percent, given as a fraction, is fifty percent on the legacy way. -/
theorem not_sameConfidence_bull :
    OtherwiseValid (legacyBull.read newYear) ∧ OtherwiseValid (readStrict newYear strictBull) ∧
      legacyBull.read newYear (.number (.finite (1 / 200))) = .ok (bullSignal 50) ∧
      readStrict newYear strictBull (.number (.finite (1 / 200))) = .ok (bullSignal (1 / 2)) ∧
      ¬ SameConfidence (legacyBull.read newYear (.number (.finite (1 / 200))))
        (readStrict newYear strictBull (.number (.finite (1 / 200)))) := by
  have hlegacy : legacyBull.read newYear (.number (.finite (1 / 200))) = .ok (bullSignal 50) := by
    decide +kernel
  have hstrict : readStrict newYear strictBull (.number (.finite (1 / 200))) =
      .ok (bullSignal (1 / 2)) := by decide +kernel
  refine ⟨otherwiseValid_bull.1, otherwiseValid_bull.2, hlegacy, hstrict, ?_⟩
  rw [hlegacy, hstrict]
  norm_num [SameConfidence, bullSignal]

end SignalParsing
end AdviserConstructor
