import AdviserConstructor.Ledger.GrossPnl
import Mathlib.Data.Prod.Lex

/-!
# The order of fills

The fills of a breakdown are sorted by their time, and those of one time by their id.  The ids are
the primary keys of the ledger, but they are compared as texts, and the text of a number with more
digits may come before that of a smaller one.

* `sortsBefore_ledgerRow_iff`: two fills are sorted by their numbers unless their texts are
  reversed.
* `chronological_iff`: whatever the fills of some times and numbers are, they are read in the order
  of their numbers, exactly if no two of one time have reversed texts.  In any case the breakdown
  does not depend on the order in which the fills are given.
-/

namespace AdviserConstructor

open DecimalText LotQueue

/-! ## Times and numbers -/

/-- A fill of the ledger with its primary key. -/
abbrev NumberedFill : Type := ℕ × FillRow

/-- The row of a fill, with the text of its number. -/
def ledgerRow (fill : NumberedFill) : FillRow := { fill.2 with id := toString fill.1 }

/-- The time and the number of a fill. -/
def keyOf (fill : NumberedFill) : ℚ × ℕ := (fill.2.tradedAt.getD 0, fill.1)

/-- The fill is not behind the other one: it is older, or of the same time and not of a greater
number. -/
def chronological (fill fill' : NumberedFill) : Prop :=
  (keyOf fill).1 < (keyOf fill').1 ∨
    ((keyOf fill).1 = (keyOf fill').1 ∧ (keyOf fill).2 ≤ (keyOf fill').2)

instance : DecidableRel chronological :=
  fun _ _ => inferInstanceAs (Decidable (_ < _ ∨ (_ = _ ∧ _ ≤ _)))

theorem computeRealizedBreakdown_eq (symbol : String) (rows : List FillRow) (funding : ℚ)
    (livePosition : Option LivePosition) (markPrices : String → Option ℚ) :
    computeRealizedBreakdown symbol rows funding livePosition markPrices =
      breakdownInOrder symbol (sortedFills rows) funding livePosition markPrices := rfl

/-- The fills are read in the order of their times and numbers. -/
def ReadChronologically (symbol : String) (fills : List NumberedFill) : Prop :=
  ∀ funding livePosition markPrices,
    computeRealizedBreakdown symbol (fills.map ledgerRow) funding livePosition markPrices =
      breakdownInOrder symbol ((fills.insertionSort chronological).map ledgerRow) funding
        livePosition markPrices

/-- Two keys of one time whose numbers are ordered one way, and the texts of these the other. -/
def ReversedTexts (keys : List (ℚ × ℕ)) : Prop :=
  ∃ k ∈ keys, ∃ k' ∈ keys, k.1 = k'.1 ∧ k.2 < k'.2 ∧
    textBefore (toString k'.2) (toString k.2) = true

/-! ## The two orders -/

section

variable {fill fill' : NumberedFill} {row row' : FillRow}

theorem toString_nat_injective : Function.Injective (toString : ℕ → String) := by
  intro n m h
  have hdigits := congrArg String.toList h
  simp only [Nat.toString_eq_ofList_toDigits, String.toList_ofList] at hdigits
  rw [← @Nat.ofDigitChars_ten_toDigits n, hdigits, Nat.ofDigitChars_ten_toDigits]

theorem chronological_iff_toLex :
    chronological fill fill' ↔ toLex (keyOf fill) ≤ toLex (keyOf fill') :=
  Prod.Lex.toLex_le_toLex.symm

theorem sortsBefore_iff_toLex :
    row.sortsBefore row' ↔
      toLex (row.tradedAt.getD 0, codes row.id) ≤ toLex (row'.tradedAt.getD 0, codes row'.id) := by
  rw [FillRow.sortsBefore, not_textBefore_iff, Prod.Lex.toLex_le_toLex]

instance : Std.Total chronological :=
  ⟨fun _ _ => (le_total _ _).imp chronological_iff_toLex.mpr chronological_iff_toLex.mpr⟩

instance : IsTrans NumberedFill chronological :=
  ⟨fun _ _ _ h h' => chronological_iff_toLex.mpr
    (le_trans (chronological_iff_toLex.mp h) (chronological_iff_toLex.mp h'))⟩

instance : Std.Total FillRow.sortsBefore :=
  ⟨fun _ _ => (le_total _ _).imp sortsBefore_iff_toLex.mpr sortsBefore_iff_toLex.mpr⟩

instance : IsTrans FillRow FillRow.sortsBefore :=
  ⟨fun _ _ _ h h' => sortsBefore_iff_toLex.mpr
    (le_trans (sortsBefore_iff_toLex.mp h) (sortsBefore_iff_toLex.mp h'))⟩

/-- **Numbers and texts.**  Two fills are sorted by their numbers, unless they are of one time and
their texts are reversed. -/
theorem sortsBefore_ledgerRow_iff (h : ¬ReversedTexts [keyOf fill, keyOf fill']) :
    (ledgerRow fill).sortsBefore (ledgerRow fill') ↔ chronological fill fill' := by
  have hordered : ∀ k ∈ [keyOf fill, keyOf fill'], ∀ k' ∈ [keyOf fill, keyOf fill'],
      k.1 = k'.1 → k.2 < k'.2 → codes (toString k.2) ≤ codes (toString k'.2) := by
    intro k hk k' hk' htime hlt
    refine (not_textBefore_iff _ _).mp (eq_false_of_ne_true fun hrev => h ?_)
    exact ⟨k, hk, k', hk', htime, hlt, hrev⟩
  rw [FillRow.sortsBefore, not_textBefore_iff]
  refine or_congr Iff.rfl (and_congr_right fun htime => ?_)
  show codes (toString fill.1) ≤ codes (toString fill'.1) ↔ fill.1 ≤ fill'.1
  constructor
  · intro hcodes
    by_contra hlt
    have hback := hordered (keyOf fill') (by simp) (keyOf fill) (by simp) htime.symm (not_le.mp hlt)
    have hsame := toString_nat_injective (codes_injective (le_antisymm hcodes hback))
    exact hlt hsame.le
  · intro hle
    rcases hle.eq_or_lt with hsame | hlt
    · rw [hsame]
    · exact hordered (keyOf fill) (by simp) (keyOf fill') (by simp) htime hlt

end

/-! ## No reversed texts -/

theorem readChronologically_of_not_reversed (symbol : String) {fills : List NumberedFill}
    (h : ¬ReversedTexts (fills.map keyOf)) : ReadChronologically symbol fills := by
  intro funding livePosition markPrices
  have hsort : (fills.insertionSort chronological).map ledgerRow =
      sortedFills (fills.map ledgerRow) := by
    refine List.map_insertionSort _ _ ledgerRow fills fun fill hfill fill' hfill' => ?_
    refine (sortsBefore_ledgerRow_iff fun hrev => h ?_).symm
    obtain ⟨k, hk, k', hk', hreversed⟩ := hrev
    have hmem : ∀ key ∈ [keyOf fill, keyOf fill'], key ∈ fills.map keyOf := by
      intro key hkey
      rcases List.mem_pair.mp hkey with rfl | rfl
      · exact List.mem_map_of_mem hfill
      · exact List.mem_map_of_mem hfill'
    exact ⟨k, hmem k hk, k', hmem k' hk', hreversed⟩
  rw [computeRealizedBreakdown_eq, hsort]

/-- **Any order of the input.**  Fills with different keys are read in the same order, however they
are given. -/
theorem sortedFills_perm {fills fills' : List NumberedFill} (hkeys : (fills.map keyOf).Nodup)
    (h : fills.Perm fills') :
    sortedFills (fills.map ledgerRow) = sortedFills (fills'.map ledgerRow) := by
  have hperm : (sortedFills (fills.map ledgerRow)).Perm (sortedFills (fills'.map ledgerRow)) :=
    (List.perm_insertionSort _ _).trans ((h.map _).trans (List.perm_insertionSort _ _).symm)
  refine List.Perm.eq_of_pairwise (fun row row' hrow hrow' hle hle' => ?_)
    (List.pairwise_insertionSort _ _) (List.pairwise_insertionSort _ _) hperm
  obtain ⟨fill, hfill, rfl⟩ := List.mem_map.mp ((List.mem_insertionSort _).mp hrow)
  obtain ⟨fill', hfill', rfl⟩ := List.mem_map.mp ((List.mem_insertionSort _).mp hrow')
  rw [sortsBefore_iff_toLex] at hle hle'
  have hlex := Prod.ext_iff.mp (toLex.injective (le_antisymm hle hle'))
  have hnumber := toString_nat_injective (codes_injective hlex.2)
  have hkey : keyOf fill = keyOf fill' := Prod.ext hlex.1 hnumber
  rw [List.inj_on_of_nodup_map hkeys hfill (h.mem_iff.mpr hfill') hkey]

/-! ## Reversed texts -/

section

variable {base quote symbol : String} {rows : List FillRow} {k k' key : ℚ × ℕ}

/-- The probe for two keys: a fill of another key is for nothing, the one with the second key is the
dearer one. -/
def probeFill (k k' key : ℚ × ℕ) : NumberedFill :=
  (key.2,
    { id := ""
      tradedAt := some key.1
      side := "buy"
      amount := if key = k ∨ key = k' then 1 else 0
      price := if key = k' then 110 else 100
      feeCost := 0
      feeCurrency := none
      realizedPnl := none })

/-- A buy of one or of none, at a price, without a fee and without a figure of the exchange. -/
structure PlainBuy (row : FillRow) : Prop where
  side : row.side = "buy"
  amount : row.amount = 0 ∨ row.amount = 1
  price_pos : 0 < row.price
  feeCurrency : row.feeCurrency = none
  realizedPnl : row.realizedPnl = none

theorem plainBuy_probe (k k' key : ℚ × ℕ) : PlainBuy (ledgerRow (probeFill k k' key)) := by
  refine ⟨rfl, ?_, ?_, rfl, rfl⟩
  · show (if key = k ∨ key = k' then (1 : ℚ) else 0) = 0 ∨
      (if key = k ∨ key = k' then (1 : ℚ) else 0) = 1
    split_ifs
    · exact .inr rfl
    · exact .inl rfl
  · show (0 : ℚ) < if key = k' then 110 else 100
    split_ifs
    · norm_num
    · norm_num

def lotsOf (rows : List FillRow) : List (Lot ℚ) :=
  (rows.filter fun row => decide (row.amount = 1)).map fun row => ⟨1, row.price⟩

theorem fifoPass_plainBuys (h : ∀ row ∈ rows, PlainBuy row) :
    fifoPass base quote rows =
      { realized := 0
        longLots := lotsOf rows
        shortLots := []
        lastPrice := ((lotsOf rows).getLast?.map Lot.entryPrice).getD 0 } := by
  induction rows using List.reverseRecOn with
  | nil => rfl
  | append_singleton rows row ih =>
    have hrow := h row (List.mem_append_right _ (List.mem_singleton_self row))
    have hbefore := ih fun other hother => h other (List.mem_append_left _ hother)
    have hside : lowered row.side = "buy" := by
      rw [hrow.side]
      decide
    have hprice : max 0 row.price = row.price := max_eq_right hrow.price_pos.le
    rw [fifoPass, List.foldl_append, ← fifoPass, hbefore, List.foldl_cons, List.foldl_nil]
    rcases hrow.amount with hnone | hone
    · have hskipped : ¬row.Counted := fun hcounted => by
        have := hcounted.1
        rw [hnone] at this
        exact lt_irrefl 0 this
      have hlots : lotsOf (rows ++ [row]) = lotsOf rows := by
        rw [lotsOf, List.filter_append, List.filter_cons_of_neg, List.filter_nil, List.append_nil,
          lotsOf]
        rw [hnone]
        decide
      rw [addFill_skipped hskipped, hlots]
    · have hcounted : row.Counted := ⟨by rw [hone]; norm_num, hrow.price_pos, .inl hside⟩
      have hfee : rowCommission base quote (fun _ => none) row = 0 := by
        rw [rowCommission, hrow.feeCurrency]
        rfl
      have hlots : lotsOf (rows ++ [row]) = lotsOf rows ++ [⟨1, row.price⟩] := by
        rw [lotsOf, List.filter_append, List.filter_cons_of_pos, List.map_append, lotsOf]
        · rfl
        · rw [hone]
          rfl
      rw [addFill_counted hcounted, if_pos hside, hprice, hone, hfee, hlots]
      show FifoPass.mk (0 - 0 + 0) (openLot 1 row.price (lotsOf rows)) [] row.price = _
      rw [openLot, if_pos zero_lt_one, sub_zero, add_zero, List.getLast?_concat, Option.map_some,
        Option.getD_some]

theorem unrealized_plainBuys (h : ∀ row ∈ rows, PlainBuy row) {price : ℚ} (hprice : 0 < price)
    (hlast : (lotsOf rows).getLast?.map Lot.entryPrice = some price) :
    (breakdownInOrder symbol rows 0 none fun _ => none).unrealized =
      some ((lotsOf rows).map fun lot => (price - lot.entryPrice) * lot.qty).sum := by
  have hlots : lotsOf rows ≠ [] := fun hnil => by
    rw [hnil] at hlast
    cases hlast
  have hpass := @fifoPass_plainBuys (splitSymbol symbol).1 (splitSymbol symbol).2 rows h
  simp only [breakdownInOrder, Option.bind_none, hpass, hlots, false_and, if_false, hlast,
    Option.getD_some, markPriceOf, FifoPass.unrealizedAt, if_pos hprice, List.map_nil,
    List.sum_nil, add_zero]

theorem last_lotsOf {α : Type*} {r : α → α → Prop} {f : α → FillRow} {l : List α} {price : ℚ}
    (hsorted : l.Pairwise r) (hsome : ∃ a ∈ l, (f a).amount = 1 ∧ (f a).price = price)
    (hlast : ∀ a ∈ l, (f a).amount = 1 → (f a).price ≠ price → ∀ b ∈ l, (f b).amount = 1 →
      (f b).price = price → ¬r b a) :
    (lotsOf (l.map f)).getLast?.map Lot.entryPrice = some price := by
  have hlots : lotsOf (l.map f) =
      (l.filter fun a => decide ((f a).amount = 1)).map fun a => ⟨1, (f a).price⟩ := by
    rw [lotsOf, List.filter_map, List.map_map]
    rfl
  have hbought : ∀ a, a ∈ l.filter (fun a => decide ((f a).amount = 1)) ↔
      a ∈ l ∧ (f a).amount = 1 := fun a => by
    rw [List.mem_filter, decide_eq_true_eq]
  have hpairwise := hsorted.filter fun a => decide ((f a).amount = 1)
  rw [hlots]
  generalize l.filter (fun a => decide ((f a).amount = 1)) = bought at hbought hpairwise
  obtain ⟨b, hb, hamount, hprice⟩ := hsome
  have hmem := (hbought b).mpr ⟨hb, hamount⟩
  rcases List.eq_nil_or_concat bought with rfl | ⟨before, a, rfl⟩
  · cases hmem
  · rw [List.concat_eq_append] at hmem hpairwise hbought ⊢
    rw [List.map_append, List.map_singleton, List.getLast?_concat]
    refine congrArg some (by_contra fun hne => ?_)
    obtain ⟨ha, haamount⟩ := (hbought a).mp (List.mem_append_right _ List.mem_cons_self)
    refine hlast a ha haamount hne b hb hamount hprice ?_
    rcases List.mem_append.mp hmem with hbefore | hsame
    · exact (List.pairwise_append.mp hpairwise).2.2 b hbefore a List.mem_cons_self
    · rw [List.mem_singleton.mp hsame] at hprice
      exact absurd hprice hne

theorem key_of_probe (k k' key : ℚ × ℕ) :
    ((ledgerRow (probeFill k k' key)).amount = 1 ↔ key = k ∨ key = k') ∧
      ((ledgerRow (probeFill k k' key)).price = 110 ↔ key = k') ∧
      ((ledgerRow (probeFill k k' key)).price = 100 ↔ key ≠ k') := by
  refine ⟨?_, ?_, ?_⟩
  · show (if key = k ∨ key = k' then (1 : ℚ) else 0) = 1 ↔ _
    by_cases hkey : key = k ∨ key = k'
    · exact iff_of_true (if_pos hkey) hkey
    · rw [if_neg hkey]
      exact iff_of_false zero_ne_one hkey
  · show (if key = k' then (110 : ℚ) else 100) = 110 ↔ _
    by_cases hkey : key = k'
    · exact iff_of_true (if_pos hkey) hkey
    · rw [if_neg hkey]
      exact iff_of_false (by norm_num) hkey
  · show (if key = k' then (110 : ℚ) else 100) = 100 ↔ _
    by_cases hkey : key = k'
    · rw [if_pos hkey]
      exact iff_of_false (by norm_num) (not_not.mpr hkey)
    · exact iff_of_true (if_neg hkey) hkey

/-- **Reversed texts** show in some fills of these times and numbers: of two buys the one with the
smaller number is read last, and the open lots are valued at its price. -/
theorem exists_not_readChronologically (symbol : String) {keys : List (ℚ × ℕ)}
    (h : ReversedTexts keys) :
    ∃ fills : List NumberedFill, fills.map keyOf = keys ∧ ¬ReadChronologically symbol fills := by
  obtain ⟨k, hk, k', hk', htime, hlt, hreversed⟩ := h
  have hne : k ≠ k' := fun hsame => absurd (congrArg Prod.snd hsame) hlt.ne
  obtain ⟨fills, hfills⟩ : ∃ fills, fills = keys.map (probeFill k k') := ⟨_, rfl⟩
  have hmem : ∀ fill, fill ∈ fills ↔ ∃ key ∈ keys, probeFill k k' key = fill := fun fill => by
    rw [hfills, List.mem_map]
  refine ⟨fills, ?_, fun hread => ?_⟩
  · rw [hfills, List.map_map]
    exact List.map_id'' (fun _ => rfl) keys
  have hperm : ((fills.insertionSort chronological).map ledgerRow).Perm
      (sortedFills (fills.map ledgerRow)) :=
    ((List.perm_insertionSort _ _).map _).trans (List.perm_insertionSort _ _).symm
  have hplain : ∀ row ∈ sortedFills (fills.map ledgerRow), PlainBuy row := by
    intro row hrow
    obtain ⟨fill, hfill, rfl⟩ := List.mem_map.mp ((List.mem_insertionSort _).mp hrow)
    obtain ⟨key, _, rfl⟩ := (hmem fill).mp hfill
    exact plainBuy_probe k k' key
  -- by the texts the fill with the smaller number is read last
  have htexts : (lotsOf (sortedFills (fills.map ledgerRow))).getLast?.map Lot.entryPrice =
      some 100 := by
    have hlast := @last_lotsOf FillRow FillRow.sortsBefore id (sortedFills (fills.map ledgerRow))
      100 (List.pairwise_insertionSort _ _)
      ⟨ledgerRow (probeFill k k' k), (List.mem_insertionSort _).mpr
        (List.mem_map_of_mem ((hmem _).mpr ⟨k, hk, rfl⟩)),
        (key_of_probe k k' k).1.mpr (.inl rfl), (key_of_probe k k' k).2.2.mpr hne⟩
      fun row hrow hamount hprice row' hrow' hamount' hprice' => by
        obtain ⟨fill, hfill, rfl⟩ := List.mem_map.mp ((List.mem_insertionSort _).mp hrow)
        obtain ⟨key, _, rfl⟩ := (hmem fill).mp hfill
        obtain ⟨fill', hfill', rfl⟩ := List.mem_map.mp ((List.mem_insertionSort _).mp hrow')
        obtain ⟨key', _, rfl⟩ := (hmem fill').mp hfill'
        have hkey : key = k' := not_not.mp fun h => hprice ((key_of_probe k k' key).2.2.mpr h)
        have hkey' : key' = k := ((key_of_probe k k' key').1.mp hamount').resolve_right
          ((key_of_probe k k' key').2.2.mp hprice')
        rw [hkey, hkey']
        rintro (hearlier | ⟨_, htext⟩)
        · exact absurd (show k.1 < k'.1 from hearlier) (htime ▸ lt_irrefl _)
        · exact absurd (hreversed.symm.trans htext) nofun
    rwa [List.map_id] at hlast
  -- by the numbers it is the one with the greater number
  have hnumbers : (lotsOf ((fills.insertionSort chronological).map ledgerRow)).getLast?.map
      Lot.entryPrice = some 110 := by
    refine last_lotsOf (List.pairwise_insertionSort _ _)
      ⟨probeFill k k' k', (List.mem_insertionSort _).mpr ((hmem _).mpr ⟨k', hk', rfl⟩),
        (key_of_probe k k' k').1.mpr (.inr rfl), (key_of_probe k k' k').2.1.mpr rfl⟩
      fun fill hfill hamount hprice fill' hfill' hamount' hprice' => ?_
    obtain ⟨key, _, rfl⟩ := (hmem fill).mp ((List.mem_insertionSort _).mp hfill)
    obtain ⟨key', _, rfl⟩ := (hmem fill').mp ((List.mem_insertionSort _).mp hfill')
    have hkey : key = k := ((key_of_probe k k' key).1.mp hamount).resolve_right
      fun h => hprice ((key_of_probe k k' key).2.1.mpr h)
    have hkey' : key' = k' := (key_of_probe k k' key').2.1.mp hprice'
    rw [hkey, hkey']
    rintro (hearlier | ⟨_, hnumber⟩)
    · exact absurd (show k'.1 < k.1 from hearlier) (htime ▸ lt_irrefl _)
    · exact absurd (show k'.2 ≤ k.2 from hnumber) (not_le.mpr hlt)
  have hsame := congrArg RealizedBreakdown.unrealized (hread 0 none fun _ => none)
  rw [computeRealizedBreakdown_eq, unrealized_plainBuys hplain (by norm_num) htexts,
    unrealized_plainBuys (fun row hrow => hplain row (hperm.mem_iff.mp hrow)) (by norm_num)
      hnumbers] at hsame
  have hlots : (lotsOf ((fills.insertionSort chronological).map ledgerRow)).Perm
      (lotsOf (sortedFills (fills.map ledgerRow))) := (hperm.filter _).map _
  have hsum := Option.some.inj hsame
  rw [(hlots.map fun lot => (110 - lot.entryPrice) * lot.qty).sum_eq] at hsum
  refine absurd hsum (ne_of_lt (List.sum_lt_sum_of_ne_nil (fun hnil => ?_) _ _ fun lot hlot => ?_))
  · rw [hnil] at htexts
    cases htexts
  · obtain ⟨row, _, rfl⟩ := List.mem_map.mp hlot
    show (100 - row.price) * 1 < (110 - row.price) * 1
    linarith

end

/-- **The order of fills.**  Whatever the fills of some times and numbers are, they are read in the
order of these exactly if no two numbers of one time have reversed texts.  Fills with different keys
are read in one order, however they are given. -/
theorem chronological_iff (symbol : String) (keys : List (ℚ × ℕ)) :
    ((∀ fills : List NumberedFill, fills.map keyOf = keys → ReadChronologically symbol fills) ↔
      ¬ReversedTexts keys) ∧
    (keys.Nodup → ∀ fills fills' : List NumberedFill, fills.map keyOf = keys → fills.Perm fills' →
      ∀ funding livePosition markPrices,
        computeRealizedBreakdown symbol (fills.map ledgerRow) funding livePosition markPrices =
          computeRealizedBreakdown symbol (fills'.map ledgerRow) funding livePosition
            markPrices) := by
  refine ⟨⟨fun hall hreversed => ?_, fun hnot fills hkeys => ?_⟩, ?_⟩
  · obtain ⟨fills, hkeys, hread⟩ := exists_not_readChronologically symbol hreversed
    exact hread (hall fills hkeys)
  · exact readChronologically_of_not_reversed symbol (hkeys.symm ▸ hnot)
  · rintro hnodup fills fills' rfl hperm funding livePosition markPrices
    rw [computeRealizedBreakdown_eq, computeRealizedBreakdown_eq, sortedFills_perm hnodup hperm]

/-- A fill for one coin, without a fee. -/
def coinFill (number : ℕ) (time : ℚ) (side : String) (price : ℚ) : NumberedFill :=
  (number, ⟨"", some time, side, 1, price, 0, none, none⟩)

/-- **A digit more.**  Two buys of one time, with the numbers 9 and 10, and a sell: the sell closes
the lot of the second buy. -/
theorem not_readChronologically_nineTen :
    ¬∀ (symbol : String) (fills : List NumberedFill), (fills.map keyOf).Nodup →
      ReadChronologically symbol fills := by
  intro hall
  have hread := hall "BTC/USDT"
    [coinFill 9 1 "buy" 100, coinFill 10 1 "buy" 110, coinFill 11 2 "sell" 120]
    (by decide +kernel) 0 none fun _ => none
  have hgross := congrArg RealizedBreakdown.grossRealized hread
  revert hgross
  decide +kernel

end AdviserConstructor
