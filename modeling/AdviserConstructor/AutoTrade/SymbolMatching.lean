import AdviserConstructor.AutoTrade.SignalQueue

/-!
# Matching a signal with a market

The queue trades a signal if its symbol has the same market key as the symbol of the profile, and
trades it on the perpetual of the profile's symbol.  The key puts base and quote asset together, as
the exchanges do in the name of a market; the perpetual keeps them apart.

* `toOption_symbolMarketKey`, `toOption_toLinearPerpSymbol`: both functions take a symbol apart in
  the same way, and accept the same symbols;
* `toLinearPerpSymbol_eq_iff`: two symbols have the same perpetual exactly if they have the same key
  and the same quote asset;
* `symbolMatching`: among symbols quoted in the known quotes that are no suffix of another one the
  key tells the markets apart, and a pair written without a slash is taken apart where it was put
  together.
-/

namespace AdviserConstructor
namespace SymbolMatching

open DecimalText

/-! ## The parts of a symbol -/

def rawSymbol (symbol : String) : List Char := (uppered (stripped symbol)).toList

/-- The letters and digits of a symbol. -/
def compactSymbol (symbol : String) : List Char :=
  (rawSymbol symbol).filter fun c => c.isUpper || c.isDigit

/-- The first known quote that the compact symbol ends with. -/
def compactQuote (compact : List Char) : Option String :=
  knownQuotes.find? fun q => q.toList.isSuffixOf compact && q.length < compact.length

/-- The base and the quote asset that a symbol is taken apart into. -/
def symbolParts (symbol : String) : Option (List Char × List Char) :=
  let raw := rawSymbol symbol
  if '/' ∈ raw then
    let base := strip (raw.takeWhile (· ≠ '/'))
    let quote := strip (((raw.dropWhile (· ≠ '/')).drop 1).takeWhile (· ≠ ':'))
    if base = [] ∨ quote = [] then none else some (base, quote)
  else
    let compact := compactSymbol symbol
    match compactQuote compact with
    | some quote => some (compact.take (compact.length - quote.length), quote.toList)
    | none =>
        if compact.all Char.isAlpha ∧ 2 ≤ compact.length ∧ compact.length ≤ 10 then
          some (compact, "USDT".toList)
        else none

section Parts

variable {symbol : String} {compact : List Char} {quote : String}

theorem compactQuote_eq_some (h : compactQuote compact = some quote) :
    quote ∈ knownQuotes ∧
      (quote.toList.isSuffixOf compact && quote.length < compact.length) = true ∧
      compact.take (compact.length - quote.length) ++ quote.toList = compact := by
  have hmem := List.mem_of_find?_eq_some h
  have hfound := List.find?_some h
  refine ⟨hmem, hfound, ?_⟩
  rw [Bool.and_eq_true] at hfound
  obtain ⟨front, rfl⟩ := List.isSuffixOf_iff_suffix.mp hfound.1
  have hlength : (front ++ quote.toList).length - quote.length = front.length := by
    rw [List.length_append, String.length_toList, Nat.add_sub_cancel]
  rw [hlength, List.take_left]

theorem compactQuote_nil : compactQuote [] = none := by decide

/-- **The perpetual of a symbol** is that of its parts. -/
theorem toOption_toLinearPerpSymbol (symbol : String) :
    (toLinearPerpSymbol symbol).toOption =
      (symbolParts symbol).map fun parts => perpSymbol parts.1 parts.2 := by
  unfold toLinearPerpSymbol symbolParts compactQuote compactSymbol rawSymbol
  generalize (uppered (stripped symbol)).toList = raw
  dsimp only
  by_cases hnil : raw = []
  · subst hnil
    rfl
  · rw [if_neg hnil]
    by_cases hslash : '/' ∈ raw
    · rw [if_pos hslash]
      split
      · rfl
      · rfl
    · rw [if_neg hslash, if_neg hslash]
      generalize raw.filter (fun c => c.isUpper || c.isDigit) = compact
      cases List.find? (fun q : String => q.toList.isSuffixOf compact && q.length < compact.length)
          knownQuotes with
      | some quote => rfl
      | none =>
        dsimp only
        split
        · rfl
        · rfl

/-- **The market key of a symbol** is its parts put together. -/
theorem toOption_symbolMarketKey (symbol : String) :
    (symbolMarketKey symbol).toOption =
      (symbolParts symbol).map fun parts => String.ofList (parts.1 ++ parts.2) := by
  unfold symbolMarketKey symbolParts compactSymbol rawSymbol
  generalize (uppered (stripped symbol)).toList = raw
  dsimp only
  by_cases hnil : raw = []
  · subst hnil
    rfl
  · rw [if_neg hnil]
    by_cases hslash : '/' ∈ raw
    · rw [if_pos hslash]
      split
      · rfl
      · rfl
    · rw [if_neg hslash, if_neg hslash]
      generalize raw.filter (fun c => c.isUpper || c.isDigit) = compact
      cases hquote : compactQuote compact with
      | some quote =>
        obtain ⟨hmem, hfound, hparts⟩ := compactQuote_eq_some hquote
        have hne : compact ≠ [] := by
          rintro rfl
          cases hquote
        have hany : (knownQuotes.any fun q =>
            q.toList.isSuffixOf compact && q.length < compact.length) = true :=
          List.any_eq_true.mpr ⟨quote, hmem, hfound⟩
        rw [if_neg hne, if_pos hany, Option.map_some, hparts]
        rfl
      | none =>
        have hany : ¬(knownQuotes.any fun q =>
            q.toList.isSuffixOf compact && q.length < compact.length) = true := by
          rw [List.any_eq_true]
          rintro ⟨quote, hmem, hfound⟩
          exact absurd hfound (List.find?_eq_none.mp hquote quote hmem)
        rw [if_neg hany]
        by_cases hletters : compact.all Char.isAlpha ∧ 2 ≤ compact.length ∧ compact.length ≤ 10
        · have hne : compact ≠ [] := List.ne_nil_of_length_pos (by omega)
          rw [if_neg hne, if_pos hletters, if_pos hletters]
          rfl
        · split
          · rfl
          · rfl

theorem accepted_iff (symbol : String) :
    (∃ key, symbolMarketKey symbol = .ok key) ↔ ∃ perp, toLinearPerpSymbol symbol = .ok perp := by
  have hkey := toOption_symbolMarketKey symbol
  have hperp := toOption_toLinearPerpSymbol symbol
  cases hparts : symbolParts symbol with
  | none =>
    rw [hparts] at hkey hperp
    refine iff_of_false ?_ ?_
    · rintro ⟨key, h⟩
      rw [h] at hkey
      cases hkey
    · rintro ⟨perp, h⟩
      rw [h] at hperp
      cases hperp
  | some parts =>
    rw [hparts] at hkey hperp
    refine iff_of_true ?_ ?_
    · cases h : symbolMarketKey symbol with
      | ok key => exact ⟨key, rfl⟩
      | error e => rw [h] at hkey; cases hkey
    · cases h : toLinearPerpSymbol symbol with
      | ok perp => exact ⟨perp, rfl⟩
      | error e => rw [h] at hperp; cases hperp

end Parts

/-! ## Telling markets apart -/

theorem not_mem_strip {c : Char} {text : List Char} (h : c ∉ text) : c ∉ strip text := by
  intro hmem
  unfold strip at hmem
  rw [List.mem_reverse] at hmem
  have hback := (List.dropWhile_suffix _).subset hmem
  rw [List.mem_reverse] at hback
  exact h ((List.dropWhile_suffix _).subset hback)

theorem not_mem_takeWhile_ne (c : Char) (text : List Char) :
    c ∉ text.takeWhile fun x => x ≠ c := by
  intro hmem
  have hne := List.mem_takeWhile_imp hmem
  rw [decide_eq_true_eq] at hne
  exact hne rfl

theorem not_mem_parts {symbol : String} {parts : List Char × List Char}
    (h : symbolParts symbol = some parts) : '/' ∉ parts.1 ∧ ':' ∉ parts.2 := by
  unfold symbolParts at h
  dsimp only at h
  split at h
  · split at h
    · cases h
    · rw [Option.some.injEq] at h
      rw [← h]
      dsimp only
      constructor
      · exact not_mem_strip (not_mem_takeWhile_ne _ _)
      · exact not_mem_strip (not_mem_takeWhile_ne _ _)
  · have hcompact : '/' ∉ compactSymbol symbol := by
      intro hmem
      rw [compactSymbol, List.mem_filter] at hmem
      exact absurd hmem.2 (by decide)
    have hcolon : ∀ q ∈ knownQuotes, ':' ∉ q.toList := by decide
    split at h
    · rename_i quote hquote
      rw [Option.some.injEq] at h
      rw [← h]
      constructor
      · exact fun hmem => hcompact (List.mem_of_mem_take hmem)
      · exact hcolon quote (compactQuote_eq_some hquote).1
    · split at h
      · rw [Option.some.injEq] at h
        rw [← h]
        dsimp only
        constructor
        · exact hcompact
        · exact hcolon "USDT" (List.mem_cons_self ..)
      · cases h

theorem append_mark_inj {α : Type*} {mark : α} {front front' rest rest' : List α}
    (h : front ++ mark :: rest = front' ++ mark :: rest') (hfront : mark ∉ front)
    (hfront' : mark ∉ front') : front = front' ∧ rest = rest' := by
  induction front generalizing front' with
  | nil =>
    cases front' with
    | nil => exact ⟨rfl, (List.cons.inj h).2⟩
    | cons c front' =>
      have hmark : mark = c := (List.cons.inj h).1
      exact absurd (hmark ▸ List.mem_cons_self) hfront'
  | cons c front ih =>
    cases front' with
    | nil =>
      have hmark : c = mark := (List.cons.inj h).1
      exact absurd (hmark ▸ List.mem_cons_self) hfront
    | cons c' front' =>
      obtain ⟨rfl, htail⟩ := List.cons.inj h
      obtain ⟨rfl, rfl⟩ := ih htail (fun hmem => hfront (List.mem_cons_of_mem _ hmem))
        fun hmem => hfront' (List.mem_cons_of_mem _ hmem)
      exact ⟨rfl, rfl⟩

theorem perpSymbol_inj {base base' quote quote' : List Char} (hbase : '/' ∉ base)
    (hbase' : '/' ∉ base') (hquote : ':' ∉ quote) (hquote' : ':' ∉ quote')
    (h : perpSymbol base quote = perpSymbol base' quote') : base = base' ∧ quote = quote' := by
  have hlists : base ++ '/' :: (quote ++ ':' :: quote) =
      base' ++ '/' :: (quote' ++ ':' :: quote') := by
    have htext := String.ofList_injective h
    simpa only [List.append_assoc, List.cons_append] using htext
  obtain ⟨hb, hrest⟩ := append_mark_inj hlists hbase hbase'
  exact ⟨hb, (append_mark_inj hrest hquote hquote').1⟩

section Matching

variable {a b : String} {partsA partsB : List Char × List Char}

theorem eq_ok_of_toOption {ε α : Type*} {e : Except ε α} {x : α} (h : e.toOption = some x) :
    e = .ok x := by
  cases e with
  | ok y => rw [Option.some.inj h]
  | error err => cases h

theorem of_symbolParts (ha : symbolParts a = some partsA) :
    symbolMarketKey a = .ok (String.ofList (partsA.1 ++ partsA.2)) ∧
      toLinearPerpSymbol a = .ok (perpSymbol partsA.1 partsA.2) := by
  have hkey := toOption_symbolMarketKey a
  have hperp := toOption_toLinearPerpSymbol a
  rw [ha] at hkey hperp
  exact ⟨eq_ok_of_toOption hkey, eq_ok_of_toOption hperp⟩

theorem symbolMarketKey_eq_iff (ha : symbolParts a = some partsA)
    (hb : symbolParts b = some partsB) :
    symbolMarketKey a = symbolMarketKey b ↔ partsA.1 ++ partsA.2 = partsB.1 ++ partsB.2 := by
  rw [(of_symbolParts ha).1, (of_symbolParts hb).1, Except.ok.injEq, String.ofList_inj]

/-- **Two symbols have the same perpetual** exactly if they have the same key and the same quote
asset. -/
theorem toLinearPerpSymbol_eq_iff (ha : symbolParts a = some partsA)
    (hb : symbolParts b = some partsB) :
    toLinearPerpSymbol a = toLinearPerpSymbol b ↔
      symbolMarketKey a = symbolMarketKey b ∧ partsA.2 = partsB.2 := by
  rw [symbolMarketKey_eq_iff ha hb, (of_symbolParts ha).2, (of_symbolParts hb).2,
    Except.ok.injEq]
  constructor
  · intro h
    obtain ⟨hbaseA, hquoteA⟩ := not_mem_parts ha
    obtain ⟨hbaseB, hquoteB⟩ := not_mem_parts hb
    obtain ⟨hbase, hquote⟩ := perpSymbol_inj hbaseA hbaseB hquoteA hquoteB h
    exact ⟨by rw [hbase, hquote], hquote⟩
  · rintro ⟨hkey, hquote⟩
    rw [hquote] at hkey ⊢
    rw [List.append_cancel_right hkey]

end Matching

/-! ## Known quotes -/

/-- The known quotes that end with no other known quote. -/
def plainQuotes : List String :=
  knownQuotes.filter fun q => knownQuotes.all fun q' => q' = q || !q'.toList.isSuffixOf q.toList

example : plainQuotes = ["USDT", "USDC", "USD", "BTC", "ETH", "EUR"] := by decide

theorem eq_of_suffix {q q' : String} {text : List Char} (hq : q ∈ plainQuotes)
    (hq' : q' ∈ plainQuotes) (h : q.toList <:+ text) (h' : q'.toList <:+ text) : q = q' := by
  have hplain : ∀ {p p' : String}, p ∈ plainQuotes → p' ∈ plainQuotes →
      p'.toList <:+ p.toList → p' = p := by
    intro p p' hp hp' hsuffix
    obtain ⟨-, hall⟩ := List.mem_filter.mp hp
    have hor := List.all_eq_true.mp hall p' (List.mem_filter.mp hp').1
    rw [Bool.or_eq_true, decide_eq_true_eq, List.isSuffixOf_iff_suffix.mpr hsuffix] at hor
    exact hor.resolve_right (by simp)
  rcases List.suffix_or_suffix_of_suffix h h' with hsuffix | hsuffix
  · exact hplain hq' hq hsuffix
  · exact (hplain hq hq' hsuffix).symm

/-- **Among plain quotes the key tells the markets apart.** -/
theorem symbolMarketKey_eq_iff_of_plain {a b : String} {baseA baseB : List Char}
    {quoteA quoteB : String} (ha : symbolParts a = some (baseA, quoteA.toList))
    (hb : symbolParts b = some (baseB, quoteB.toList)) (hA : quoteA ∈ plainQuotes)
    (hB : quoteB ∈ plainQuotes) :
    symbolMarketKey a = symbolMarketKey b ↔ toLinearPerpSymbol a = toLinearPerpSymbol b := by
  rw [toLinearPerpSymbol_eq_iff ha hb]
  refine ⟨fun hkey => ⟨hkey, ?_⟩, And.left⟩
  have htext := (symbolMarketKey_eq_iff ha hb).mp hkey
  have hquote : quoteA = quoteB :=
    eq_of_suffix hA hB ⟨baseA, htext⟩ ⟨baseB, rfl⟩
  exact congrArg String.toList hquote

def IsAssetChar (c : Char) : Prop := (c.isUpper || c.isDigit) = true

/-- The name of an asset: capital letters and digits. -/
def IsAsset (asset : String) : Prop := asset ≠ "" ∧ ∀ c ∈ asset.toList, IsAssetChar c

theorem isAssetChar_iff {c : Char} :
    IsAssetChar c ↔ 65 ≤ c.toNat ∧ c.toNat ≤ 90 ∨ 48 ≤ c.toNat ∧ c.toNat ≤ 57 := by
  show (decide (c.val ≥ 'A'.val ∧ c.val ≤ 'Z'.val) || c.isDigit) = true ↔ _
  simp only [Char.isDigit, Bool.or_eq_true, Bool.and_eq_true, decide_eq_true_eq,
    UInt32.le_iff_toNat_le]
  exact Iff.rfl

theorem IsAssetChar.toUpper {c : Char} (h : IsAssetChar c) : c.toUpper = c := by
  rw [isAssetChar_iff] at h
  rw [← Char.toNat_inj, toNat_toUpper, if_neg (by omega)]

theorem IsAssetChar.isWhitespace {c : Char} (h : IsAssetChar c) : c.isWhitespace = false := by
  rw [isAssetChar_iff] at h
  rw [← Bool.not_eq_true, isWhitespace_iff]
  omega

theorem IsAssetChar.ne {c d : Char} (h : IsAssetChar c) (hd : ¬ IsAssetChar d) : c ≠ d := by
  rintro rfl
  exact hd h

theorem isAssetChar_of_mem_plainQuotes {q : String} (hq : q ∈ plainQuotes) :
    ∀ c ∈ q.toList, IsAssetChar c := by
  have hall : ∀ q ∈ plainQuotes, (q.toList.all fun c => c.isUpper || c.isDigit) = true := by decide
  exact List.all_eq_true.mp (hall q hq)

theorem strip_of_isAssetChar {text : List Char} (h : ∀ c ∈ text, IsAssetChar c) :
    strip text = text :=
  strip_eq_self (fun c hc => (h c (List.mem_of_mem_head? hc)).isWhitespace)
    fun c hc => (h c (List.mem_of_mem_getLast? hc)).isWhitespace

theorem rawSymbol_eq_self {text : List Char} (hupper : ∀ c ∈ text, c.toUpper = c)
    (hfirst : ∀ c ∈ text.head?, IsAssetChar c) (hlast : ∀ c ∈ text.getLast?, IsAssetChar c) :
    rawSymbol (String.ofList text) = text := by
  have hstrip : strip text = text :=
    strip_eq_self (fun c hc => (hfirst c hc).isWhitespace) fun c hc => (hlast c hc).isWhitespace
  have hmap : text.map Char.toUpper = text :=
    (List.map_congr_left hupper).trans (List.map_id text)
  rw [rawSymbol, stripped, uppered, String.toList_ofList, String.toList_ofList,
    String.toList_ofList, hstrip, hmap]

theorem compactQuote_append {base : List Char} (hbase : base ≠ []) {q : String}
    (hq : q ∈ plainQuotes) : compactQuote (base ++ q.toList) = some q := by
  have hpos : 0 < base.length := List.length_pos_iff.mpr hbase
  have hlong : (q.toList.isSuffixOf (base ++ q.toList) &&
      decide (q.length < (base ++ q.toList).length)) = true := by
    rw [Bool.and_eq_true, List.isSuffixOf_iff_suffix, decide_eq_true_eq, List.length_append,
      String.length_toList]
    exact ⟨List.suffix_append .., by omega⟩
  have hplain : q ∈ ["USDT", "USDC", "USD", "BTC", "ETH", "EUR"] := hq
  simp only [List.mem_cons, List.not_mem_nil, or_false] at hplain
  refine List.find?_eq_some_iff_append.mpr ⟨hlong, ?_⟩
  -- none of the quotes before it ends with the same letter
  rcases hplain with rfl | rfl | rfl | rfl | rfl | rfl
  · exact ⟨[], _, rfl, by simp⟩
  · exact ⟨["USDT"], _, rfl, by simp [List.isSuffixOf, List.isPrefixOf]⟩
  · exact ⟨["USDT", "USDC"], _, rfl, by simp [List.isSuffixOf, List.isPrefixOf]⟩
  · exact ⟨["USDT", "USDC", "USD"], _, rfl, by simp [List.isSuffixOf, List.isPrefixOf]⟩
  · exact ⟨["USDT", "USDC", "USD", "BTC"], _, rfl, by simp [List.isSuffixOf, List.isPrefixOf]⟩
  · exact ⟨["USDT", "USDC", "USD", "BTC", "ETH"], _, rfl,
      by simp [List.isSuffixOf, List.isPrefixOf]⟩

section Pair

variable {base quote : String}

theorem symbolParts_compact (hbase : IsAsset base) (hquote : quote ∈ plainQuotes) :
    symbolParts (base ++ quote) = some (base.toList, quote.toList) := by
  have hchars : ∀ c ∈ base.toList ++ quote.toList, IsAssetChar c := by
    intro c hc
    rcases List.mem_append.mp hc with hb | hq
    · exact hbase.2 c hb
    · exact isAssetChar_of_mem_plainQuotes hquote c hq
  have htext : base ++ quote = String.ofList (base.toList ++ quote.toList) := by
    rw [String.ofList_append, String.ofList_toList, String.ofList_toList]
  have hraw : rawSymbol (base ++ quote) = base.toList ++ quote.toList := by
    rw [htext]
    exact rawSymbol_eq_self (fun c hc => (hchars c hc).toUpper)
      (fun c hc => hchars c (List.mem_of_mem_head? hc))
      fun c hc => hchars c (List.mem_of_mem_getLast? hc)
  have hcompact : compactSymbol (base ++ quote) = base.toList ++ quote.toList := by
    rw [compactSymbol, hraw]
    exact List.filter_eq_self.mpr hchars
  have hslash : '/' ∉ base.toList ++ quote.toList := fun hmem =>
    absurd (hchars _ hmem) (by unfold IsAssetChar; decide)
  have hne : base.toList ≠ [] := fun hnil => hbase.1 (String.toList_eq_nil_iff.mp hnil)
  have htake : (base.toList ++ quote.toList).take
      ((base.toList ++ quote.toList).length - quote.length) = base.toList := by
    rw [List.length_append, @String.length_toList quote, Nat.add_sub_cancel, List.take_left]
  unfold symbolParts
  dsimp only
  rw [hraw, hcompact, if_neg hslash, compactQuote_append hne hquote]
  dsimp only
  rw [htake]

theorem symbolParts_slash (hbase : IsAsset base) (hquote : quote ∈ plainQuotes) :
    symbolParts (base ++ "/" ++ quote) = some (base.toList, quote.toList) := by
  have hquoteChars := isAssetChar_of_mem_plainQuotes hquote
  have hne : base.toList ≠ [] := fun hnil => hbase.1 (String.toList_eq_nil_iff.mp hnil)
  have hquoteNe : quote.toList ≠ [] := by
    have hall : ∀ q ∈ plainQuotes, q.toList ≠ [] := by decide
    exact hall quote hquote
  have htext : base ++ "/" ++ quote = String.ofList (base.toList ++ '/' :: quote.toList) := by
    rw [← String.toList_inj]
    simp
  have hraw : rawSymbol (base ++ "/" ++ quote) = base.toList ++ '/' :: quote.toList := by
    rw [htext]
    refine rawSymbol_eq_self (fun c hc => ?_) (fun c hc => ?_) fun c hc => ?_
    · rcases List.mem_append.mp hc with hb | hq
      · exact (hbase.2 c hb).toUpper
      · rcases List.mem_cons.mp hq with rfl | hq
        · decide
        · exact (hquoteChars c hq).toUpper
    · rw [List.head?_append_of_ne_nil _ hne] at hc
      exact hbase.2 c (List.mem_of_mem_head? hc)
    · rw [List.getLast?_append_of_ne_nil _ (List.cons_ne_nil _ _),
        List.getLast?_cons_of_ne_nil hquoteNe] at hc
      exact hquoteChars c (List.mem_of_mem_getLast? hc)
  have hnotSlash : ∀ c ∈ base.toList, decide (c ≠ '/') = true := fun c hc =>
    decide_eq_true ((hbase.2 c hc).ne (by unfold IsAssetChar; decide))
  have hnotColon : ∀ c ∈ quote.toList, decide (c ≠ ':') = true := fun c hc =>
    decide_eq_true ((hquoteChars c hc).ne (by unfold IsAssetChar; decide))
  have htake : (base.toList ++ '/' :: quote.toList).takeWhile (fun c => decide (c ≠ '/')) =
      base.toList := by
    rw [List.takeWhile_append_of_pos hnotSlash, List.takeWhile_cons_of_neg (by simp),
      List.append_nil]
  have hdrop : (base.toList ++ '/' :: quote.toList).dropWhile (fun c => decide (c ≠ '/')) =
      '/' :: quote.toList := by
    rw [List.dropWhile_append_of_pos hnotSlash, List.dropWhile_cons_of_neg (by simp)]
  have hquoteTake : quote.toList.takeWhile (fun c => decide (c ≠ ':')) = quote.toList :=
    List.takeWhile_eq_self_iff.mpr hnotColon
  unfold symbolParts
  rw [hraw, if_pos (by simp), htake, hdrop, List.drop_one, List.tail_cons, hquoteTake,
    strip_of_isAssetChar hbase.2, strip_of_isAssetChar hquoteChars,
    if_neg (by simp [hne, hquoteNe])]

end Pair

/-! ## Faithful matching -/

/-- The quote asset that a symbol is taken apart with. -/
def HasQuote (symbol : String) (quote : String) : Prop :=
  ∃ base, symbolParts symbol = some (base, quote.toList)

/-- **What the matching keeps apart.**  Both functions accept the same symbols.  Symbols with one
perpetual have one key; symbols with one key have one perpetual if they have the same quote asset,
or both one of the plain quotes.  A pair of an asset and a plain quote is the same market whether it
is written with a slash or without. -/
theorem symbolMatching :
    (∀ symbol, (∃ key, symbolMarketKey symbol = .ok key) ↔
      ∃ perp, toLinearPerpSymbol symbol = .ok perp) ∧
    (∀ a b quoteA quoteB, HasQuote a quoteA → HasQuote b quoteB →
      (toLinearPerpSymbol a = toLinearPerpSymbol b ↔
        symbolMarketKey a = symbolMarketKey b ∧ quoteA = quoteB) ∧
      (quoteA ∈ plainQuotes → quoteB ∈ plainQuotes →
        (symbolMarketKey a = symbolMarketKey b ↔ toLinearPerpSymbol a = toLinearPerpSymbol b))) ∧
    (∀ symbol, (∃ key, symbolMarketKey symbol = .ok key) ↔ ∃ quote, HasQuote symbol quote) ∧
    (∀ base quote, IsAsset base → quote ∈ plainQuotes →
      toLinearPerpSymbol (base ++ quote) = .ok (base ++ "/" ++ quote ++ ":" ++ quote) ∧
        toLinearPerpSymbol (base ++ "/" ++ quote) =
          .ok (base ++ "/" ++ quote ++ ":" ++ quote)) := by
  refine ⟨accepted_iff, ?_, fun symbol => ?_, fun base quote hbase hquote => ?_⟩
  · rintro a b quoteA quoteB ⟨baseA, ha⟩ ⟨baseB, hb⟩
    refine ⟨?_, fun hA hB => symbolMarketKey_eq_iff_of_plain ha hb hA hB⟩
    rw [toLinearPerpSymbol_eq_iff ha hb, String.toList_inj]
  · cases hparts : symbolParts symbol with
    | none =>
      refine iff_of_false ?_ ?_
      · rintro ⟨key, hkey⟩
        have hnone := toOption_symbolMarketKey symbol
        rw [hparts, hkey] at hnone
        cases hnone
      · rintro ⟨quote, base, hsome⟩
        rw [hparts] at hsome
        cases hsome
    | some parts =>
      exact iff_of_true ⟨_, (of_symbolParts hparts).1⟩
        ⟨String.ofList parts.2, parts.1, by rw [hparts, String.toList_ofList]⟩
  · have hperp : perpSymbol base.toList quote.toList = base ++ "/" ++ quote ++ ":" ++ quote := by
      rw [perpSymbol, ← String.toList_inj]
      simp
    rw [(of_symbolParts (symbolParts_compact hbase hquote)).2,
      (of_symbolParts (symbolParts_slash hbase hquote)).2, hperp]
    exact ⟨rfl, rfl⟩

/-- Two markets with one key, and a known quote that is not found again: the key does not say where
the base ends, and the quote that a longer one ends with is tried before it. -/
theorem not_symbolMatching :
    symbolMarketKey "A/BUSDT" = .ok "ABUSDT" ∧ symbolMarketKey "AB/USDT" = .ok "ABUSDT" ∧
      toLinearPerpSymbol "A/BUSDT" = .ok "A/BUSDT:BUSDT" ∧
      toLinearPerpSymbol "AB/USDT" = .ok "AB/USDT:USDT" ∧
      "BUSD" ∈ knownQuotes ∧ toLinearPerpSymbol ("ETH" ++ "BUSD") = .ok "ETHB/USD:USD" := by
  decide +kernel

end SymbolMatching
end AdviserConstructor
