import AdviserConstructor.Backtest.Portfolio
import AdviserConstructor.Library.PlainDecimal
import AdviserConstructor.Library.Words

/-!
# Shifted watcher conditions

A watcher's condition is a text, such as `> 75` or `between 30 70`.  Three parts of the code read
it, each with regular expressions of its own: `_normalize_watcher_condition` of
`app/services/position/context.py`, which raises on what it does not accept,
`shift_watcher_condition_threshold` of `app/services/auto_trade/ai_overlay/scaler.py`, which adds a
shift to the numbers, and `evaluate_condition` of `app/services/watchers/rule_engine.py`.

The expressions allow blanks between their parts and nowhere else, so each is given here by the
words that it matches; digits and letters are those of ASCII, and floats are rationals.

The shifter keeps the numbers between 0 and 100, and writes them as floats are written.  So both
bounds of a range may become the same, and a small number gets an exponent; the normalizer accepts
neither.

* `watcherShift_iff`: a shifted condition is accepted, and agrees with the original one where
  nothing was clamped, exactly if the condition is not shifted at all, is a crossing, or its shifted
  numbers are none between 0 and `1 / 10000` and, for a range, not both beyond the same end.
* `shift_collapses`: a range near the upper end.
-/

namespace AdviserConstructor

namespace Watchers

open DecimalText Words

/-! ## The expressions -/

/-- The comparison operators. -/
inductive Comparator where
  | gt | ge | lt | le
  deriving DecidableEq, Repr

namespace Comparator

def text : Comparator → List Char
  | gt => ['>']
  | ge => ['>', '=']
  | lt => ['<']
  | le => ['<', '=']

/-- The comparison that an operator stands for. -/
def holds : Comparator → ℚ → ℚ → Bool
  | gt, current, threshold => threshold < current
  | ge, current, threshold => threshold ≤ current
  | lt, current, threshold => current < threshold
  | le, current, threshold => current ≤ threshold

end Comparator

/-- The kinds of a range. -/
inductive RangeKind where
  | between | outside
  deriving DecidableEq, Repr

/-- The words of a condition: `condition.split()`. -/
def conditionWords (condition : List Char) : List (List Char) := words Backtest.isSpace condition

def lower (word : List Char) : List Char := word.map Char.toLower

/-- `(>=|>|<=|<)` at the front of a word, and what follows it. -/
def takeOperator : List Char → Option (Comparator × List Char)
  | '>' :: '=' :: rest => some (.ge, rest)
  | '>' :: rest => some (.gt, rest)
  | '<' :: '=' :: rest => some (.le, rest)
  | '<' :: rest => some (.lt, rest)
  | _ => none

/-- An operator, blanks that may be missing, and a number. -/
def matchComparison (isNumber : List Char → Bool) :
    List (List Char) → Option (Comparator × List Char)
  | [word] => (takeOperator word).filter fun found => isNumber found.2
  | [word, number] =>
      match takeOperator word with
      | some (operator, []) => if isNumber number then some (operator, number) else none
      | _ => none
  | _ => none

/-- The kind that a word stands for, in any case. -/
def rangeKind (word : List Char) : Option RangeKind :=
  if lower word = ['b', 'e', 't', 'w', 'e', 'e', 'n'] then some .between
  else if lower word = ['o', 'u', 't', 's', 'i', 'd', 'e'] then some .outside
  else none

/-- A kind and two numbers, with blanks between them. -/
def matchRange (isNumber : List Char → Bool) :
    List (List Char) → Option (RangeKind × List Char × List Char × List Char)
  | [word, lowerRaw, upperRaw] =>
      match rangeKind word with
      | some kind =>
          if isNumber lowerRaw && isNumber upperRaw then some (kind, word, lowerRaw, upperRaw)
          else none
      | none => none
  | _ => none

/-- The text `cross_below`. -/
def crossBelow : List Char := ['c', 'r', 'o', 's', 's', '_', 'b', 'e', 'l', 'o', 'w']

/-- The text `cross_above`. -/
def crossAbove : List Char := ['c', 'r', 'o', 's', 's', '_', 'a', 'b', 'o', 'v', 'e']

/-- `cross_(below|above)`, in any case, in lower case. -/
def matchCross : List (List Char) → Option (List Char)
  | [word] => if lower word = crossBelow ∨ lower word = crossAbove then some (lower word) else none
  | _ => none

/-- `float` of a text that a number was matched in. -/
def floatOf (text : List Char) : ℚ := (parseDecimal (String.ofList text)).getD 0

/-! ## The normalizer -/

/-- `_normalize_watcher_condition`. -/
def normalizeWatcherCondition (condition : List Char) : Except String (List Char) :=
  match conditionWords condition with
  | [] => .error "Watcher condition cannot be empty"
  | found =>
      match matchComparison isPlainNumber found with
      | some (operator, threshold) => .ok (operator.text ++ ' ' :: threshold)
      | none =>
          match matchRange isPlainNumber found with
          | some (.between, _, lowerRaw, upperRaw) =>
              if floatOf upperRaw ≤ floatOf lowerRaw then
                .error "Watcher between condition requires lower bound < upper bound"
              else
                .ok (['b', 'e', 't', 'w', 'e', 'e', 'n'] ++ ' ' :: (lowerRaw ++ ' ' :: upperRaw))
          | _ =>
              match matchCross found with
              | some cross => .ok cross
              | none =>
                  .error ("Invalid watcher condition format. Use one of: '> 75', 'cross_below', " ++
                    "'between 30 70'.")

/-- The normalizer accepts the condition. -/
def Accepted (condition : List Char) : Prop :=
  (normalizeWatcherCondition condition).isOk = true

instance (condition : List Char) : Decidable (Accepted condition) :=
  inferInstanceAs (Decidable (_ = true))

/-! ## The shifter -/

/-- `_clamp`. -/
def clampThreshold (value : ℚ) : ℚ := max 0 (min 100 value)

/-- `_fmt`, of a number that is not negative. -/
def formatThreshold (value : ℚ) : List Char :=
  if value.den = 1 then natText value.num.toNat else decimalText value

/-- `shift_watcher_condition_threshold`. -/
def shiftWatcherConditionThreshold (condition : List Char) (shift : ℤ) : List Char :=
  if shift = 0 then condition
  else
    match matchComparison isPlainNumber (conditionWords condition) with
    | some (operator, threshold) =>
        operator.text ++ ' ' :: formatThreshold (clampThreshold (floatOf threshold + shift))
    | none =>
        match matchRange isPlainNumber (conditionWords condition) with
        | some (_, kind, lowerRaw, upperRaw) =>
            kind ++ ' ' :: (formatThreshold (clampThreshold (floatOf lowerRaw + shift)) ++
              ' ' :: formatThreshold (clampThreshold (floatOf upperRaw + shift)))
        | none => condition

/-! ## The rule engine -/

/-- `[\d.]+`. -/
def isDotted (text : List Char) : Bool := text ≠ [] && text.all fun c => c.isDigit || c = '.'

/-- `-?[\d.]+`. -/
def isRuleNumber : List Char → Bool
  | '-' :: rest => isDotted rest
  | text => isDotted text

/-- The values of an indicator: none, a number, the four of a crossing (each missing or not a number
at all), or something that is no number. -/
inductive IndicatorValue where
  | none
  | number (value : ℚ)
  | cross (line signal prevLine prevSignal : Option ℚ)
  | other

/-- `_to_float` of an indicator value. -/
def IndicatorValue.toFloat : IndicatorValue → Option ℚ
  | number value => some value
  | _ => Option.none

/-- `_evaluate_cross`. -/
def evaluateCross (below : Bool) : IndicatorValue → Bool
  | .cross (some line) (some signal) (some prevLine) (some prevSignal) =>
      if below then line < signal && prevSignal ≤ prevLine
      else signal < line && prevLine ≤ prevSignal
  | _ => false

/-- `_evaluate_comparison`. -/
def evaluateComparison (operator : Comparator) (threshold : List Char) (value : IndicatorValue) :
    Bool :=
  match value.toFloat, parseDecimal (String.ofList threshold) with
  | some current, some threshold => operator.holds current threshold
  | _, _ => false

/-- `_evaluate_range`. -/
def evaluateRange (kind : RangeKind) (lowerRaw upperRaw : List Char) (value : IndicatorValue) :
    Bool :=
  match value.toFloat, parseDecimal (String.ofList lowerRaw),
      parseDecimal (String.ofList upperRaw) with
  | some current, some lower, some upper =>
      if upper < lower then false
      else
        match kind with
        | .between => lower ≤ current && current ≤ upper
        | .outside => current < lower || upper < current
  | _, _, _ => false

/-- `evaluate_condition`. -/
def evaluateCondition (condition : List Char) : IndicatorValue → Bool
  | .none => false
  | value =>
      let found := (conditionWords condition).map lower
      if found = [] then false
      else if found = [crossBelow] then evaluateCross true value
      else if found = [crossAbove] then evaluateCross false value
      else
        match matchComparison isRuleNumber found with
        | some (operator, threshold) => evaluateComparison operator threshold value
        | none =>
            match matchRange isRuleNumber found with
            | some (kind, _, lowerRaw, upperRaw) => evaluateRange kind lowerRaw upperRaw value
            | none => false

example : normalizeWatcherCondition [' ', '>', '7', '5'] = .ok ['>', ' ', '7', '5'] := by
  decide +kernel

/-! ## What the expressions match -/

theorem isSpace_of_isDigit {c : Char} (hc : c.isDigit = true) : Backtest.isSpace c = false := by
  have hrange : 48 ≤ c.toNat ∧ c.toNat ≤ 57 := by
    simpa [Char.isDigit, UInt32.le_iff_toNat_le] using hc
  simp only [Backtest.isSpace, Bool.or_eq_false_iff, decide_eq_false_iff_not]
  omega

theorem toLower_of_isDigit {c : Char} (hc : c.isDigit = true) : c.toLower = c := by
  have hrange : 48 ≤ c.toNat ∧ c.toNat ≤ 57 := by
    simpa [Char.isDigit, UInt32.le_iff_toNat_le] using hc
  rw [← Char.toNat_inj, toNat_toLower, if_neg (by omega)]

section Numbers

variable {text : List Char}

theorem lower_of_isPlainNumber (h : isPlainNumber text = true) : lower text = text := by
  conv_rhs => rw [← List.map_id text]
  refine List.map_congr_left fun c hc => ?_
  rcases mem_isPlainNumber h c hc with hdigit | rfl | rfl
  · exact toLower_of_isDigit hdigit
  · decide
  · decide

theorem isRuleNumber_of_isPlainNumber (h : isPlainNumber text = true) :
    isRuleNumber text = true := by
  have hunsigned : ∀ {rest : List Char}, isUnsignedPlain rest = true → isDotted rest = true := by
    intro rest hrest
    have hne : rest ≠ [] := by
      rintro rfl
      exact Bool.noConfusion hrest
    rw [isDotted, Bool.and_eq_true, decide_eq_true_eq, List.all_eq_true]
    refine ⟨hne, fun c hc => ?_⟩
    rw [Bool.or_eq_true, decide_eq_true_eq]
    exact mem_isUnsignedPlain hrest c hc
  by_cases hsign : ∃ rest, text = '-' :: rest
  · obtain ⟨rest, rfl⟩ := hsign
    exact hunsigned h
  · have hplain : isPlainNumber text = isUnsignedPlain text := by
      unfold isPlainNumber
      split
      · next rest => exact absurd ⟨rest, rfl⟩ hsign
      · rfl
    have hrule : isRuleNumber text = isDotted text := by
      unfold isRuleNumber
      split
      · next rest => exact absurd ⟨rest, rfl⟩ hsign
      · rfl
    rw [hrule]
    exact hunsigned (hplain ▸ h)

theorem parseDecimal_eq_floatOf (h : isPlainNumber text = true) :
    parseDecimal (String.ofList text) = some (floatOf text) := by
  obtain ⟨m, k, hvalue⟩ := exists_parseDecimal_of_isPlainNumber h
  rw [floatOf, hvalue]
  rfl

theorem finitelyManyDecimals_floatOf (h : isPlainNumber text = true) :
    FinitelyManyDecimals (floatOf text) := by
  obtain ⟨m, k, hvalue⟩ := exists_parseDecimal_of_isPlainNumber h
  exact ⟨m, k, by rw [floatOf, hvalue]; rfl⟩

end Numbers

section Matches

variable {isNumber : List Char → Bool} {found : List (List Char)} {operator : Comparator}
  {number : List Char}

theorem takeOperator_text (operator : Comparator) (hnumber : ∀ c ∈ number.head?, c ≠ '=') :
    takeOperator (operator.text ++ number) = some (operator, number) := by
  cases operator with
  | ge => rfl
  | le => rfl
  | gt =>
    cases number with
    | nil => rfl
    | cons c rest =>
      unfold takeOperator
      split <;> simp_all [Comparator.text]
  | lt =>
    cases number with
    | nil => rfl
    | cons c rest =>
      unfold takeOperator
      split <;> simp_all [Comparator.text]

theorem eq_of_takeOperator {word rest : List Char} (h : takeOperator word = some (operator, rest)) :
    word = operator.text ++ rest := by
  unfold takeOperator at h
  split at h
  · cases h; rfl
  · cases h; rfl
  · cases h; rfl
  · cases h; rfl
  · cases h

/-- **The words of a comparison**: the operator and the number, together or apart. -/
theorem words_of_matchComparison (h : matchComparison isNumber found = some (operator, number)) :
    isNumber number = true ∧
      (found = [operator.text ++ number] ∨ found = [operator.text, number]) := by
  unfold matchComparison at h
  split at h
  · next word =>
    obtain ⟨hfound, hnumber⟩ := Option.filter_eq_some_iff.mp h
    exact ⟨hnumber, .inl (congrArg (fun w => [w]) (eq_of_takeOperator hfound))⟩
  · next word value =>
    split at h
    · next operator' hoperator =>
      split at h
      · next hnumber =>
        obtain ⟨rfl, rfl⟩ := Prod.mk.inj (Option.some.inj h)
        refine ⟨hnumber, .inr ?_⟩
        rw [eq_of_takeOperator hoperator, List.append_nil]
      · cases h
    · cases h
  · cases h

theorem matchComparison_words (h : isNumber number = true)
    (hfirst : ∀ c ∈ number.head?, c ≠ '=') :
    matchComparison isNumber [operator.text ++ number] = some (operator, number) ∧
      matchComparison isNumber [operator.text, number] = some (operator, number) := by
  have hbare := @takeOperator_text [] operator (by simp)
  rw [List.append_nil] at hbare
  constructor
  · rw [matchComparison, takeOperator_text operator hfirst]
    simp [h]
  · simp only [matchComparison, hbare, h, if_true]

theorem matchComparison_of_not (h : isNumber number = false) :
    matchComparison isNumber [operator.text, number] = none := by
  have hbare := @takeOperator_text [] operator (by simp)
  rw [List.append_nil] at hbare
  simp [matchComparison, hbare, h]

theorem head_of_isPlainNumber (h : isPlainNumber number = true) :
    ∀ c ∈ number.head?, c ≠ '=' := by
  rintro c hc rfl
  rcases mem_isPlainNumber h '=' (List.mem_of_mem_head? hc) with hc | hc | hc <;>
    exact absurd hc (by decide)

theorem lower_text (operator : Comparator) : lower operator.text = operator.text := by
  cases operator <;> decide

/-- **A comparison that the normalizer accepts** is the same one for the rule engine. -/
theorem rule_matchComparison (h : matchComparison isPlainNumber found = some (operator, number)) :
    matchComparison isRuleNumber (found.map lower) = some (operator, number) := by
  obtain ⟨hnumber, hwords⟩ := words_of_matchComparison h
  obtain ⟨htogether, hapart⟩ := @matchComparison_words isRuleNumber operator number
    (isRuleNumber_of_isPlainNumber hnumber) (head_of_isPlainNumber hnumber)
  rcases hwords with rfl | rfl
  · have hlower : lower (operator.text ++ number) = operator.text ++ number := by
      rw [lower, List.map_append]
      exact congrArg₂ (· ++ ·) (lower_text operator) (lower_of_isPlainNumber hnumber)
    rw [List.map_singleton, hlower]
    exact htogether
  · rw [List.map_cons, List.map_singleton, lower_text, lower_of_isPlainNumber hnumber]
    exact hapart

/-- **The words of a range.** -/
theorem words_of_matchRange {kind : RangeKind} {word lowerRaw upperRaw : List Char}
    (h : matchRange isNumber found = some (kind, word, lowerRaw, upperRaw)) :
    found = [word, lowerRaw, upperRaw] ∧ rangeKind word = some kind ∧
      isNumber lowerRaw = true ∧ isNumber upperRaw = true := by
  unfold matchRange at h
  split at h
  · next word' lowerRaw' upperRaw' =>
    split at h
    · next kind' hkind =>
      split at h
      · next hnumbers =>
        rw [Bool.and_eq_true] at hnumbers
        obtain ⟨rfl, rfl, rfl, rfl⟩ := by simpa using h
        exact ⟨rfl, hkind, hnumbers.1, hnumbers.2⟩
      · cases h
    · cases h
  · cases h

theorem matchRange_words {kind : RangeKind} {word lowerRaw upperRaw : List Char}
    (hkind : rangeKind word = some kind) :
    matchRange isNumber [word, lowerRaw, upperRaw] =
      if isNumber lowerRaw && isNumber upperRaw then some (kind, word, lowerRaw, upperRaw)
      else none := by
  rw [matchRange, hkind]

theorem lower_lower (word : List Char) : lower (lower word) = lower word := by
  rw [lower, lower, List.map_map]
  exact List.map_congr_left fun c _ => toLower_toLower c

theorem rangeKind_lower (word : List Char) : rangeKind (lower word) = rangeKind word := by
  rw [rangeKind, rangeKind, lower_lower]

/-- **A range that the normalizer accepts** is the same one for the rule engine. -/
theorem rule_matchRange {kind : RangeKind} {word lowerRaw upperRaw : List Char}
    (h : matchRange isPlainNumber found = some (kind, word, lowerRaw, upperRaw)) :
    matchRange isRuleNumber (found.map lower) = some (kind, lower word, lowerRaw, upperRaw) := by
  obtain ⟨rfl, hkind, hlower, hupper⟩ := words_of_matchRange h
  rw [List.map_cons, List.map_cons, List.map_singleton, lower_of_isPlainNumber hlower,
    lower_of_isPlainNumber hupper, matchRange_words ((rangeKind_lower word).trans hkind),
    isRuleNumber_of_isPlainNumber hlower, isRuleNumber_of_isPlainNumber hupper]
  rfl

end Matches

/-! ## What the rule engine makes of a condition -/

section Evaluate

variable {condition : List Char}

theorem match_cross : ∀ cross ∈ [crossBelow, crossAbove],
    matchComparison isRuleNumber [cross] = none ∧ matchRange isRuleNumber [cross] = none := by
  decide

theorem evaluateCondition_number (condition : List Char) (x : ℚ) :
    evaluateCondition condition (.number x) =
      match matchComparison isRuleNumber ((conditionWords condition).map lower) with
      | some (operator, threshold) => evaluateComparison operator threshold (.number x)
      | none =>
          match matchRange isRuleNumber ((conditionWords condition).map lower) with
          | some (kind, _, lowerRaw, upperRaw) => evaluateRange kind lowerRaw upperRaw (.number x)
          | none => false := by
  rw [evaluateCondition]
  rotate_left
  · rintro ⟨⟩
  generalize (conditionWords condition).map lower = found
  by_cases hnil : found = []
  · rw [hnil]
    rfl
  rw [if_neg hnil]
  by_cases hbelow : found = [crossBelow]
  · obtain ⟨hcomparison, hrange⟩ := match_cross crossBelow (by simp)
    rw [hbelow, hcomparison, hrange]
    rfl
  rw [if_neg hbelow]
  by_cases habove : found = [crossAbove]
  · obtain ⟨hcomparison, hrange⟩ := match_cross crossAbove (by simp)
    rw [habove, hcomparison, hrange]
    rfl
  rw [if_neg habove]

/-- **A comparison** holds as its operator says. -/
theorem evaluateCondition_comparison {operator : Comparator} {threshold : List Char}
    (h : matchComparison isPlainNumber (conditionWords condition) = some (operator, threshold))
    (x : ℚ) :
    evaluateCondition condition (.number x) = operator.holds x (floatOf threshold) := by
  have hnumber := (words_of_matchComparison h).1
  rw [evaluateCondition_number, rule_matchComparison h]
  simp only [evaluateComparison, IndicatorValue.toFloat, parseDecimal_eq_floatOf hnumber]

/-- What a range of two numbers says of a third one. -/
def inRange (kind : RangeKind) (lower upper x : ℚ) : Bool :=
  if upper < lower then false
  else
    match kind with
    | .between => lower ≤ x && x ≤ upper
    | .outside => x < lower || upper < x

/-- **A range** holds as its kind says. -/
theorem evaluateCondition_range {kind : RangeKind} {word lowerRaw upperRaw : List Char}
    (h : matchRange isPlainNumber (conditionWords condition) =
      some (kind, word, lowerRaw, upperRaw)) (x : ℚ) :
    evaluateCondition condition (.number x) =
      inRange kind (floatOf lowerRaw) (floatOf upperRaw) x := by
  obtain ⟨hwords, -, hlower, hupper⟩ := words_of_matchRange h
  have hthree : matchComparison isRuleNumber ((conditionWords condition).map lower) = none := by
    rw [hwords]
    rfl
  rw [evaluateCondition_number, hthree, rule_matchRange h]
  simp only [evaluateRange, IndicatorValue.toFloat, parseDecimal_eq_floatOf hlower,
    parseDecimal_eq_floatOf hupper, inRange]

end Evaluate

/-! ## How a shifted number is written -/

/-- A number that is written with an exponent. -/
def Tiny (value : ℚ) : Prop := 0 < value ∧ value < 1 / 10 ^ 4

instance (value : ℚ) : Decidable (Tiny value) := inferInstanceAs (Decidable (_ ∧ _))

section Format

variable {value : ℚ}

theorem clampThreshold_cases (value : ℚ) :
    (value ≤ 0 ∧ clampThreshold value = 0) ∨ (100 ≤ value ∧ clampThreshold value = 100) ∨
      (0 < value ∧ value < 100 ∧ clampThreshold value = value) := by
  rcases le_or_gt value 0 with hlow | hlow
  · left
    refine ⟨hlow, ?_⟩
    rw [clampThreshold, min_eq_right (by linarith), max_eq_left hlow]
  · rcases le_or_gt 100 value with hhigh | hhigh
    · right; left
      refine ⟨hhigh, ?_⟩
      rw [clampThreshold, min_eq_left hhigh, max_eq_right (by norm_num)]
    · right; right
      refine ⟨hlow, hhigh, ?_⟩
      rw [clampThreshold, min_eq_right hhigh.le, max_eq_right hlow.le]

theorem clampThreshold_of_mem (hlow : 0 ≤ value) (hhigh : value ≤ 100) :
    clampThreshold value = value := by
  rw [clampThreshold, min_eq_right hhigh, max_eq_right hlow]

theorem tiny_clampThreshold : Tiny (clampThreshold value) ↔ Tiny value := by
  rcases clampThreshold_cases value with ⟨hlow, hclamp⟩ | ⟨hhigh, hclamp⟩ | ⟨-, -, hclamp⟩
  · rw [hclamp]
    exact iff_of_false (fun h => lt_irrefl _ h.1) fun h => absurd h.1 (not_lt.mpr hlow)
  · rw [hclamp]
    refine iff_of_false (fun h => absurd h.2 (by norm_num)) fun h => ?_
    have hsmall := h.2
    linarith
  · rw [hclamp]

theorem clampThreshold_nonneg (value : ℚ) : 0 ≤ clampThreshold value := le_max_left _ _

theorem clampThreshold_lt_iff {upper : ℚ} (h : value < upper) :
    clampThreshold value < clampThreshold upper ↔ value < 100 ∧ 0 < upper := by
  rcases clampThreshold_cases value with ⟨hv, hc⟩ | ⟨hv, hc⟩ | ⟨hv, hv', hc⟩ <;>
    rcases clampThreshold_cases upper with ⟨hu, hd⟩ | ⟨hu, hd⟩ | ⟨hu, hu', hd⟩ <;>
      rw [hc, hd]
  · exact iff_of_false (lt_irrefl _) fun h => absurd h.2 (not_lt.mpr hu)
  · exact iff_of_true (by norm_num) ⟨by linarith, by linarith⟩
  · exact iff_of_true hu ⟨by linarith, hu⟩
  · linarith
  · exact iff_of_false (lt_irrefl _) fun h => absurd h.1 (not_lt.mpr hv)
  · linarith
  · linarith
  · exact iff_of_true hv' ⟨hv', by linarith⟩
  · exact iff_of_true h ⟨hv', hu⟩

theorem finitelyManyDecimals_clamp (h : FinitelyManyDecimals value) (shift : ℤ) :
    FinitelyManyDecimals (clampThreshold (value + shift)) := by
  rcases clampThreshold_cases (value + shift) with ⟨-, hclamp⟩ | ⟨-, hclamp⟩ | ⟨-, -, hclamp⟩
  · exact ⟨0, 0, by rw [hclamp]; norm_num⟩
  · exact ⟨100, 0, by rw [hclamp]; norm_num⟩
  · obtain ⟨m, k, rfl⟩ := h
    refine ⟨m + shift * 10 ^ k, k, ?_⟩
    rw [hclamp]
    push_cast
    field_simp

/-- **A number that is not tiny** is read as itself. -/
theorem formatThreshold_of_not_tiny (h : FinitelyManyDecimals value) (hnonneg : 0 ≤ value)
    (hnot : ¬Tiny value) :
    isPlainNumber (formatThreshold value) = true ∧ floatOf (formatThreshold value) = value := by
  rw [formatThreshold]
  by_cases hint : value.den = 1
  · rw [if_pos hint]
    obtain ⟨hplain, hvalue⟩ := parseDecimal_natText value.num.toNat
    refine ⟨hplain, ?_⟩
    rw [floatOf, hvalue]
    have hnum : ((value.num.toNat : ℕ) : ℤ) = value.num :=
      Int.toNat_of_nonneg (Rat.num_nonneg.mpr hnonneg)
    have hcast : ((value.num.toNat : ℕ) : ℚ) = (value.num : ℚ) := by exact_mod_cast hnum
    rw [hcast]
    exact Rat.coe_int_num_of_den_eq_one hint
  · rw [if_neg hint]
    have hpos : 0 < value := by
      refine lt_of_le_of_ne hnonneg ?_
      rintro rfl
      exact hint rfl
    have hle : 1 / 10 ^ 4 ≤ value := not_lt.mp fun hlt => hnot ⟨hpos, hlt⟩
    obtain ⟨hplain, hvalue⟩ := parseDecimal_decimalText h hle
    exact ⟨hplain, by rw [floatOf, hvalue]; rfl⟩

/-- **A tiny number** is no plain decimal. -/
theorem formatThreshold_of_tiny (h : FinitelyManyDecimals value) (htiny : Tiny value) :
    isPlainNumber (formatThreshold value) = false := by
  have hint : value.den ≠ 1 := by
    intro hone
    have hvalue := Rat.coe_int_num_of_den_eq_one hone
    obtain ⟨hpos, hlt⟩ := htiny
    rw [← hvalue] at hpos hlt
    have hnum : 0 < value.num := by exact_mod_cast hpos
    have hone : (1 : ℚ) ≤ value.num := by exact_mod_cast hnum
    linarith
  rw [formatThreshold, if_neg hint]
  exact not_isPlainNumber_decimalText h htiny.1 htiny.2

theorem formatThreshold_ne_nil (value : ℚ) : formatThreshold value ≠ [] := by
  rw [formatThreshold]
  split
  · exact natText_ne_nil _
  · exact decimalText_ne_nil _

theorem isSpace_of_mem_formatThreshold {c : Char} (hc : c ∈ formatThreshold value) :
    Backtest.isSpace c = false := by
  rw [formatThreshold] at hc
  split at hc
  · exact isSpace_of_isDigit (isDigit_of_mem_natText hc)
  · rcases mem_formatGeneral hc with hdigit | hsign
    · exact isSpace_of_isDigit hdigit
    · have hall : (['.', 'e', '-', '+'].all fun c => !Backtest.isSpace c) = true := by decide
      simpa using List.all_eq_true.mp hall c hsign

end Format

/-! ## The words of a shifted condition -/

section Shifted

variable {condition : List Char} {operator : Comparator}

theorem isSpace_of_mem_text {c : Char} (hc : c ∈ operator.text) : Backtest.isSpace c = false := by
  have hall : (operator.text.all fun c => !Backtest.isSpace c) = true := by
    cases operator <;> decide
  simpa using List.all_eq_true.mp hall c hc

theorem text_ne_nil (operator : Comparator) : operator.text ≠ [] := by
  cases operator <;> exact List.cons_ne_nil _ _

theorem conditionWords_comparison (operator : Comparator) (value : ℚ) :
    conditionWords (operator.text ++ ' ' :: formatThreshold value) =
      [operator.text, formatThreshold value] := by
  rw [conditionWords, words_append_blank (text_ne_nil operator)
    (fun c hc => isSpace_of_mem_text hc) (by decide),
    words_of_no_blank (formatThreshold_ne_nil value) fun c hc => isSpace_of_mem_formatThreshold hc]

theorem conditionWords_range {word : List Char} (hword : word ∈ conditionWords condition)
    (lower upper : ℚ) :
    conditionWords (word ++ ' ' :: (formatThreshold lower ++ ' ' :: formatThreshold upper)) =
      [word, formatThreshold lower, formatThreshold upper] := by
  obtain ⟨hne, hblank⟩ := mem_words hword
  rw [conditionWords, words_append_blank hne hblank (by decide),
    words_append_blank (formatThreshold_ne_nil lower)
      (fun c hc => isSpace_of_mem_formatThreshold hc) (by decide),
    words_of_no_blank (formatThreshold_ne_nil upper) fun c hc => isSpace_of_mem_formatThreshold hc]

end Shifted

/-! ## What the normalizer accepts -/

section Acceptance

variable {condition : List Char}

theorem accepted_of_comparison {operator : Comparator} {threshold : List Char}
    (h : matchComparison isPlainNumber (conditionWords condition) = some (operator, threshold)) :
    Accepted condition := by
  obtain ⟨-, hwords⟩ := words_of_matchComparison h
  rw [Accepted, normalizeWatcherCondition]
  rcases hwords with hwords | hwords <;>
    · rw [hwords] at h ⊢
      simp only [h]
      rfl

/-- **A range** is accepted if it is one between two bounds that are in order. -/
theorem accepted_range_iff {kind : RangeKind} {word lowerRaw upperRaw : List Char}
    (h : matchRange isPlainNumber (conditionWords condition) =
      some (kind, word, lowerRaw, upperRaw)) :
    Accepted condition ↔ kind = .between ∧ floatOf lowerRaw < floatOf upperRaw := by
  obtain ⟨hwords, -⟩ := words_of_matchRange h
  rw [Accepted, normalizeWatcherCondition]
  rw [hwords] at h ⊢
  simp only [matchComparison, h]
  cases kind with
  | between =>
    by_cases hle : floatOf upperRaw ≤ floatOf lowerRaw
    · simp [hle, Except.toBool]
    · simp [hle, Except.toBool, not_le.mp hle]
  | outside => simp [matchCross, Except.isOk, Except.toBool]

end Acceptance

/-! ## Shifts that keep a condition -/

/-- No number of a condition is clamped. -/
def NothingClamped (condition : List Char) (shift : ℤ) : Prop :=
  match matchComparison isPlainNumber (conditionWords condition),
      matchRange isPlainNumber (conditionWords condition) with
  | some (_, threshold), _ => floatOf threshold + shift ∈ Set.Icc 0 100
  | none, some (_, _, lowerRaw, upperRaw) =>
      floatOf lowerRaw + shift ∈ Set.Icc 0 100 ∧ floatOf upperRaw + shift ∈ Set.Icc 0 100
  | none, none => True

/-- What is expected of a shifted condition: the normalizer accepts it, it agrees with the original
one where nothing was clamped, and a crossing stays as it is. -/
def ShiftKeeps (condition : List Char) (shift : ℤ) : Prop :=
  Accepted (shiftWatcherConditionThreshold condition shift) ∧
    (NothingClamped condition shift → ∀ x : ℚ,
      evaluateCondition (shiftWatcherConditionThreshold condition shift) (.number (x + shift)) =
        evaluateCondition condition (.number x)) ∧
    (matchCross (conditionWords condition) ≠ none →
      shiftWatcherConditionThreshold condition shift = condition)

/-- Nothing is shifted, or no shifted number is tiny and the bounds of a range stay apart. -/
def ShiftsWell (condition : List Char) (shift : ℤ) : Prop :=
  shift = 0 ∨
    match matchComparison isPlainNumber (conditionWords condition),
        matchRange isPlainNumber (conditionWords condition) with
    | some (_, threshold), _ => ¬Tiny (floatOf threshold + shift)
    | none, some (_, _, lowerRaw, upperRaw) =>
        ¬Tiny (floatOf lowerRaw + shift) ∧ ¬Tiny (floatOf upperRaw + shift) ∧
          floatOf lowerRaw + shift < 100 ∧ 0 < floatOf upperRaw + shift
    | none, none => True

section Keeps

variable {condition : List Char} {shift : ℤ}

theorem match_of_matchCross {found : List (List Char)} (h : matchCross found ≠ none) :
    (∃ cross ∈ [crossBelow, crossAbove], found.map lower = [cross]) ∧
      matchComparison isPlainNumber found = none ∧ matchRange isPlainNumber found = none := by
  unfold matchCross at h
  split at h
  · next word =>
    by_cases hcross : lower word = crossBelow ∨ lower word = crossAbove
    · have hmem : lower word ∈ [crossBelow, crossAbove] := by simpa using hcross
      refine ⟨⟨lower word, hmem, rfl⟩, ?_, rfl⟩
      -- A comparison is one for the rule engine too, which finds none in a crossing.
      rw [Option.eq_none_iff_forall_ne_some]
      rintro ⟨operator, number⟩ hfound
      have hrule := rule_matchComparison hfound
      rw [List.map_singleton, (match_cross _ hmem).1] at hrule
      cases hrule
    · rw [if_neg hcross] at h
      exact absurd rfl h
  · exact absurd rfl h

theorem matchCross_of_accepted (h : Accepted condition)
    (hcomparison : matchComparison isPlainNumber (conditionWords condition) = none)
    (hrange : matchRange isPlainNumber (conditionWords condition) = none) :
    matchCross (conditionWords condition) ≠ none := by
  intro hcross
  rw [Accepted, normalizeWatcherCondition] at h
  cases hwords : conditionWords condition with
  | nil =>
    rw [hwords] at h
    cases h
  | cons word rest =>
    rw [hwords] at h hcomparison hrange hcross
    simp only [hcomparison, hrange, hcross] at h
    cases h

theorem holds_add (operator : Comparator) (x threshold s : ℚ) :
    operator.holds (x + s) (threshold + s) = operator.holds x threshold := by
  cases operator <;> simp [Comparator.holds]

theorem inRange_add (kind : RangeKind) (lower upper x s : ℚ) :
    inRange kind (lower + s) (upper + s) (x + s) = inRange kind lower upper x := by
  cases kind <;> simp [inRange]

/-- **A shifted comparison** is kept if its number is not tiny. -/
theorem shiftKeeps_comparison {operator : Comparator} {threshold : List Char} (hs : shift ≠ 0)
    (h : matchComparison isPlainNumber (conditionWords condition) = some (operator, threshold)) :
    ShiftKeeps condition shift ↔ ¬Tiny (floatOf threshold + shift) := by
  have hnumber := (words_of_matchComparison h).1
  have hdecimals := finitelyManyDecimals_clamp (finitelyManyDecimals_floatOf hnumber) shift
  have hshift : shiftWatcherConditionThreshold condition shift =
      operator.text ++ ' ' :: formatThreshold (clampThreshold (floatOf threshold + shift)) := by
    rw [shiftWatcherConditionThreshold, if_neg hs, h]
  have hwords := conditionWords_comparison operator (clampThreshold (floatOf threshold + shift))
  rw [ShiftKeeps, hshift]
  constructor
  · rintro ⟨haccepted, -, -⟩ htiny
    have hplain := formatThreshold_of_tiny hdecimals (tiny_clampThreshold.mpr htiny)
    have hcross : matchCross [operator.text,
      formatThreshold (clampThreshold (floatOf threshold + shift))] ≠ none := by
      rw [← hwords]
      refine matchCross_of_accepted haccepted ?_ ?_
      · rw [hwords]
        exact matchComparison_of_not hplain
      · rw [hwords]
        rfl
    exact hcross rfl
  · intro htiny
    obtain ⟨hplain, hvalue⟩ := formatThreshold_of_not_tiny hdecimals (clampThreshold_nonneg _)
      (fun hclamped => htiny (tiny_clampThreshold.mp hclamped))
    have hmatch : matchComparison isPlainNumber (conditionWords (operator.text ++
        ' ' :: formatThreshold (clampThreshold (floatOf threshold + shift)))) =
          some (operator, formatThreshold (clampThreshold (floatOf threshold + shift))) := by
      rw [hwords]
      exact (matchComparison_words hplain (head_of_isPlainNumber hplain)).2
    refine ⟨accepted_of_comparison hmatch, fun hclamped x => ?_, fun hcross => ?_⟩
    · rw [NothingClamped, h] at hclamped
      rw [evaluateCondition_comparison hmatch, evaluateCondition_comparison h, hvalue,
        clampThreshold_of_mem hclamped.1 hclamped.2, holds_add]
    · rw [(match_of_matchCross hcross).2.1] at h
      cases h

/-- **A shifted range** is kept if its bounds are not tiny and stay apart. -/
theorem shiftKeeps_range {kind : RangeKind} {word lowerRaw upperRaw : List Char} (hs : shift ≠ 0)
    (haccepted : Accepted condition)
    (h : matchRange isPlainNumber (conditionWords condition) =
      some (kind, word, lowerRaw, upperRaw)) :
    ShiftKeeps condition shift ↔ ¬Tiny (floatOf lowerRaw + shift) ∧
      ¬Tiny (floatOf upperRaw + shift) ∧ floatOf lowerRaw + shift < 100 ∧
        0 < floatOf upperRaw + shift := by
  obtain ⟨horiginal, hkind, hlower, hupper⟩ := words_of_matchRange h
  obtain ⟨rfl, hlt⟩ := (accepted_range_iff h).mp haccepted
  have hdecimals := finitelyManyDecimals_clamp (finitelyManyDecimals_floatOf hlower) shift
  have hdecimals' := finitelyManyDecimals_clamp (finitelyManyDecimals_floatOf hupper) shift
  have hcomparison : matchComparison isPlainNumber (conditionWords condition) = none := by
    rw [horiginal]
    rfl
  have hmem : word ∈ conditionWords condition := by
    rw [horiginal]
    exact List.mem_cons_self
  have hwords := conditionWords_range hmem (clampThreshold (floatOf lowerRaw + shift))
    (clampThreshold (floatOf upperRaw + shift))
  have hshift : shiftWatcherConditionThreshold condition shift =
      word ++ ' ' :: (formatThreshold (clampThreshold (floatOf lowerRaw + shift)) ++
        ' ' :: formatThreshold (clampThreshold (floatOf upperRaw + shift))) := by
    rw [shiftWatcherConditionThreshold, if_neg hs, hcomparison, h]
  rw [ShiftKeeps, hshift]
  have hshifted := @matchRange_words isPlainNumber .between word
    (formatThreshold (clampThreshold (floatOf lowerRaw + shift)))
    (formatThreshold (clampThreshold (floatOf upperRaw + shift))) hkind
  rw [← hwords] at hshifted
  constructor
  · rintro ⟨hkept, -, -⟩
    -- It is accepted as a range, for three words are nothing else.
    have hplain : (isPlainNumber (formatThreshold (clampThreshold (floatOf lowerRaw + shift))) &&
        isPlainNumber (formatThreshold (clampThreshold (floatOf upperRaw + shift)))) = true := by
      by_contra hnot
      rw [if_neg hnot] at hshifted
      refine matchCross_of_accepted hkept ?_ hshifted ?_
      · rw [hwords]
        rfl
      · rw [hwords]
        rfl
    rw [if_pos hplain] at hshifted
    rw [Bool.and_eq_true] at hplain
    have htiny : ¬Tiny (floatOf lowerRaw + shift) := fun htiny => by
      rw [formatThreshold_of_tiny hdecimals (tiny_clampThreshold.mpr htiny)] at hplain
      exact Bool.noConfusion hplain.1
    have htiny' : ¬Tiny (floatOf upperRaw + shift) := fun htiny => by
      rw [formatThreshold_of_tiny hdecimals' (tiny_clampThreshold.mpr htiny)] at hplain
      exact Bool.noConfusion hplain.2
    have hapart := ((accepted_range_iff hshifted).mp hkept).2
    rw [(formatThreshold_of_not_tiny hdecimals (clampThreshold_nonneg _)
        (mt tiny_clampThreshold.mp htiny)).2,
      (formatThreshold_of_not_tiny hdecimals' (clampThreshold_nonneg _)
        (mt tiny_clampThreshold.mp htiny')).2,
      clampThreshold_lt_iff (add_lt_add_left hlt _)] at hapart
    exact ⟨htiny, htiny', hapart⟩
  · rintro ⟨htiny, htiny', hapart⟩
    obtain ⟨hplain, hvalue⟩ := formatThreshold_of_not_tiny hdecimals (clampThreshold_nonneg _)
      (mt tiny_clampThreshold.mp htiny)
    obtain ⟨hplain', hvalue'⟩ := formatThreshold_of_not_tiny hdecimals' (clampThreshold_nonneg _)
      (mt tiny_clampThreshold.mp htiny')
    rw [hplain, hplain', Bool.and_self] at hshifted
    refine ⟨(accepted_range_iff hshifted).mpr ⟨rfl, ?_⟩, fun hclamped x => ?_, fun hcross => ?_⟩
    · rw [hvalue, hvalue', clampThreshold_lt_iff (add_lt_add_left hlt _)]
      exact hapart
    · rw [NothingClamped, hcomparison, h] at hclamped
      rw [evaluateCondition_range hshifted, evaluateCondition_range h, hvalue, hvalue',
        clampThreshold_of_mem hclamped.1.1 hclamped.1.2,
        clampThreshold_of_mem hclamped.2.1 hclamped.2.2, inRange_add]
    · rw [(match_of_matchCross hcross).2.2] at h
      cases h

theorem shiftKeeps_cross (h : matchCross (conditionWords condition) ≠ none)
    (haccepted : Accepted condition) : ShiftKeeps condition shift := by
  obtain ⟨⟨cross, hmem, hlower⟩, hcomparison, hrange⟩ := match_of_matchCross h
  have hshift : shiftWatcherConditionThreshold condition shift = condition := by
    rw [shiftWatcherConditionThreshold]
    split
    · rfl
    · simp only [hcomparison, hrange]
  obtain ⟨hcomparison', hrange'⟩ := match_cross cross hmem
  rw [ShiftKeeps, hshift]
  refine ⟨haccepted, fun _ x => ?_, fun _ => rfl⟩
  rw [evaluateCondition_number, evaluateCondition_number, hlower, hcomparison', hrange']

end Keeps

/-- **A shifted condition is kept** exactly if nothing is shifted, or it is a crossing, or none of
its shifted numbers lies between 0 and `1 / 10000` and those of a range are not both at one end. -/
theorem watcherShift_iff (condition : List Char) (shift : ℤ) (h : Accepted condition) :
    ShiftKeeps condition shift ↔ ShiftsWell condition shift := by
  by_cases hs : shift = 0
  · subst hs
    have hshift : shiftWatcherConditionThreshold condition 0 = condition := if_pos rfl
    refine iff_of_true ⟨hshift.symm ▸ h, fun _ x => ?_, fun _ => hshift⟩ (.inl rfl)
    rw [hshift, Int.cast_zero, add_zero]
  · rw [ShiftsWell, or_iff_right hs]
    cases hcomparison : matchComparison isPlainNumber (conditionWords condition) with
    | some found => exact shiftKeeps_comparison hs hcomparison
    | none =>
      cases hrange : matchRange isPlainNumber (conditionWords condition) with
      | some found => exact shiftKeeps_range hs h hrange
      | none =>
        exact iff_of_true (shiftKeeps_cross (matchCross_of_accepted h hcomparison hrange) h) trivial

/-- A shift by 5 keeps `> 75`. -/
theorem watcherShift_above : ShiftKeeps ['>', ' ', '7', '5'] 5 :=
  (watcherShift_iff ['>', ' ', '7', '5'] 5 (by decide +kernel)).mpr
    (.inr (by
      show ¬Tiny (floatOf ['7', '5'] + (5 : ℤ))
      decide +kernel))

/-- **A range near the upper end** collapses: shifted by 5, `between 95 98` is `between 100 100`,
which the normalizer rejects. -/
theorem shift_collapses :
    ¬∀ (condition : List Char) (shift : ℤ), Accepted condition → -20 ≤ shift → shift ≤ 20 →
      ShiftKeeps condition shift := by
  intro h
  have hkept := h ['b', 'e', 't', 'w', 'e', 'e', 'n', ' ', '9', '5', ' ', '9', '8'] 5
    (by decide +kernel) (by norm_num) (by norm_num)
  have hrejected : ¬Accepted (shiftWatcherConditionThreshold
      ['b', 'e', 't', 'w', 'e', 'e', 'n', ' ', '9', '5', ' ', '9', '8'] 5) := by
    decide +kernel
  exact hrejected hkept.1

end Watchers

end AdviserConstructor
