import AdviserConstructor.Library.GeneralFormat
import Mathlib.Data.Nat.Factorization.Basic

/-!
# Plain decimals, and how a number is written out

A plain decimal is a text of the form `-?\d+(\.\d+)?`: it is read as a number with finitely many
decimals.  The other way round, `decimalText` writes such a number out with all its digits, as a
language with shortest floating literals does: plainly if it is at least `1 / 10000`, with an
exponent otherwise.

* `exists_parseDecimal_of_isPlainNumber`: a plain decimal has a value, with finitely many decimals.
* `isPlainNumber_decimalText`, `parseDecimal_decimalText`: a number that is written out plainly is
  read as itself.
* `not_isPlainNumber_decimalText`: a number with an exponent is no plain decimal.
-/

namespace DecimalText

/-! ## Reading -/

/-- `\d+(\.\d+)?`. -/
def isUnsignedPlain (text : List Char) : Bool :=
  match text.takeWhile Char.isDigit, text.dropWhile Char.isDigit with
  | [], _ => false
  | _ :: _, [] => true
  | _ :: _, c :: fraction => c = '.' && fraction ≠ [] && fraction.all Char.isDigit

/-- `-?\d+(\.\d+)?`. -/
def isPlainNumber : List Char → Bool
  | '-' :: rest => isUnsignedPlain rest
  | text => isUnsignedPlain text

variable {text whole : List Char}

theorem exists_of_isUnsignedPlain (h : isUnsignedPlain text = true) :
    ∃ whole : List Char, whole ≠ [] ∧ (∀ c ∈ whole, c.isDigit = true) ∧
      (text = whole ∨ ∃ fraction : List Char, fraction ≠ [] ∧ (∀ c ∈ fraction, c.isDigit = true) ∧
        text = whole ++ '.' :: fraction) := by
  have hsplit := List.takeWhile_append_dropWhile (p := Char.isDigit) (l := text)
  have hdigits : ∀ c ∈ text.takeWhile Char.isDigit, c.isDigit = true :=
    fun c hc => List.mem_takeWhile_imp hc
  rw [isUnsignedPlain] at h
  cases hwhole : text.takeWhile Char.isDigit with
  | nil => simp [hwhole] at h
  | cons d whole =>
    rw [hwhole] at hsplit hdigits h
    refine ⟨d :: whole, List.cons_ne_nil _ _, hdigits, ?_⟩
    cases hrest : text.dropWhile Char.isDigit with
    | nil =>
      rw [hrest, List.append_nil] at hsplit
      exact .inl hsplit.symm
    | cons c fraction =>
      rw [hrest] at hsplit h
      simp only [Bool.and_eq_true, decide_eq_true_eq, List.all_eq_true] at h
      obtain ⟨⟨rfl, hne⟩, hall⟩ := h
      exact .inr ⟨fraction, hne, hall, hsplit.symm⟩

theorem isUnsignedPlain_whole (hne : whole ≠ []) (hwhole : ∀ c ∈ whole, c.isDigit = true) :
    isUnsignedPlain whole = true := by
  obtain ⟨htake, hdrop⟩ := @takeWhile_isDigit_append whole [] hwhole (by simp)
  rw [List.append_nil] at htake hdrop
  rw [isUnsignedPlain, htake, hdrop]
  cases whole with
  | nil => exact absurd rfl hne
  | cons c whole => rfl

theorem isUnsignedPlain_fraction {fraction : List Char} (hne : whole ≠ [])
    (hwhole : ∀ c ∈ whole, c.isDigit = true) (hsome : fraction ≠ [])
    (hfraction : ∀ c ∈ fraction, c.isDigit = true) :
    isUnsignedPlain (whole ++ '.' :: fraction) = true := by
  obtain ⟨htake, hdrop⟩ := @takeWhile_isDigit_append whole ('.' :: fraction) hwhole (by simp)
  rw [isUnsignedPlain, htake, hdrop]
  cases whole with
  | nil => exact absurd rfl hne
  | cons c whole => simp [hsome, List.all_eq_true.mpr hfraction]

theorem takeDigits_append {digits rest : List Char} (after : Bool)
    (hdigits : ∀ c ∈ digits, c.isDigit = true)
    (hrest : ∀ c ∈ rest.head?, c.isDigit = false ∧ c ≠ '_') :
    takeDigits after (digits ++ rest) = (digits, rest) := by
  induction digits generalizing after with
  | nil =>
    cases rest with
    | nil => rfl
    | cons c rest =>
      obtain ⟨hdigit, hunderscore⟩ := hrest c rfl
      rw [List.nil_append, takeDigits, if_neg (by simp [hdigit]), if_neg (by simp [hunderscore])]
  | cons d digits ih =>
    have htail := ih true fun c hc => hdigits c (List.mem_cons_of_mem _ hc)
    rw [List.cons_append, takeDigits, if_pos (hdigits d List.mem_cons_self), htail]

theorem parseUnsigned_whole (hne : whole ≠ []) (hwhole : ∀ c ∈ whole, c.isDigit = true) :
    parseUnsigned whole = some (digitsValue whole : ℚ) := by
  have htake := @takeDigits_append whole [] false hwhole (by simp)
  rw [List.append_nil] at htake
  rw [parseUnsigned, htake]
  simp [hne, parseExponent]

theorem parseUnsigned_fraction {fraction : List Char} (hne : whole ≠ [])
    (hwhole : ∀ c ∈ whole, c.isDigit = true) (hfraction : ∀ c ∈ fraction, c.isDigit = true) :
    parseUnsigned (whole ++ '.' :: fraction) =
      some ((digitsValue (whole ++ fraction) : ℚ) / 10 ^ fraction.length) := by
  have htake := @takeDigits_append whole ('.' :: fraction) false hwhole (by simp)
  have htake' := @takeDigits_append fraction [] false hfraction (by simp)
  rw [List.append_nil] at htake'
  rw [parseUnsigned, htake]
  simp [htake', hne, parseExponent, div_eq_mul_inv]

theorem mem_isUnsignedPlain (h : isUnsignedPlain text = true) :
    ∀ c ∈ text, c.isDigit = true ∨ c = '.' := by
  obtain ⟨whole, -, hwhole, rfl | ⟨fraction, -, hfraction, rfl⟩⟩ := exists_of_isUnsignedPlain h
  · exact fun c hc => .inl (hwhole c hc)
  · intro c hc
    rcases List.mem_append.mp hc with hc | hc
    · exact .inl (hwhole c hc)
    · rcases List.mem_cons.mp hc with rfl | hc
      · exact .inr rfl
      · exact .inl (hfraction c hc)

theorem mem_isPlainNumber (h : isPlainNumber text = true) :
    ∀ c ∈ text, c.isDigit = true ∨ c = '.' ∨ c = '-' := by
  unfold isPlainNumber at h
  split at h
  · intro c hc
    rcases List.mem_cons.mp hc with rfl | hc
    · exact .inr (.inr rfl)
    · exact (mem_isUnsignedPlain h c hc).imp_right .inl
  · exact fun c hc => (mem_isUnsignedPlain h c hc).imp_right .inl

theorem exists_parseUnsigned (h : isUnsignedPlain text = true) :
    ∃ m k : ℕ, parseUnsigned text = some ((m : ℚ) / 10 ^ k) := by
  obtain ⟨whole, hne, hwhole, rfl | ⟨fraction, -, hfraction, rfl⟩⟩ := exists_of_isUnsignedPlain h
  · exact ⟨_, 0, by rw [parseUnsigned_whole hne hwhole, pow_zero, div_one]⟩
  · exact ⟨_, _, parseUnsigned_fraction hne hwhole hfraction⟩

theorem strip_of_isPlainNumber (h : isPlainNumber text = true) : strip text = text := by
  have hblank : ∀ c ∈ text, c.isWhitespace = false := by
    intro c hc
    rcases mem_isPlainNumber h c hc with hdigit | rfl | rfl
    · exact isWhitespace_of_isDigit hdigit
    · rfl
    · rfl
  exact strip_eq_self (fun c hc => hblank c (List.mem_of_mem_head? hc))
    fun c hc => hblank c (List.mem_of_mem_getLast? hc)

theorem takeSign_of_isUnsignedPlain (h : isUnsignedPlain text = true) :
    takeSign text = (1, text) := by
  have hfirst : ∀ rest, text ≠ '-' :: rest ∧ text ≠ '+' :: rest := by
    refine fun rest => ⟨?_, ?_⟩ <;> rintro rfl
    · rcases mem_isUnsignedPlain h _ List.mem_cons_self with hc | hc <;> exact absurd hc (by decide)
    · rcases mem_isUnsignedPlain h _ List.mem_cons_self with hc | hc <;> exact absurd hc (by decide)
  unfold takeSign
  split
  · next rest => exact absurd rfl (hfirst rest).1
  · next rest => exact absurd rfl (hfirst rest).2
  · rfl

theorem parseDecimal_of_isUnsignedPlain (h : isUnsignedPlain text = true) :
    isPlainNumber text = true ∧ parseDecimal (String.ofList text) = parseUnsigned text := by
  have hplain : isPlainNumber text = true := by
    unfold isPlainNumber
    split
    · next rest =>
      rcases mem_isUnsignedPlain h '-' List.mem_cons_self with hc | hc <;>
        exact absurd hc (by decide)
    · exact h
  refine ⟨hplain, ?_⟩
  rw [parseDecimal, String.toList_ofList, strip_of_isPlainNumber hplain,
    takeSign_of_isUnsignedPlain h]
  simp

/-- **A plain decimal** has a value, with finitely many decimals. -/
theorem exists_parseDecimal_of_isPlainNumber (h : isPlainNumber text = true) :
    ∃ (m : ℤ) (k : ℕ), parseDecimal (String.ofList text) = some ((m : ℚ) / 10 ^ k) := by
  have hstrip := strip_of_isPlainNumber h
  unfold isPlainNumber at h
  split at h
  · next rest =>
    obtain ⟨m, k, hvalue⟩ := exists_parseUnsigned h
    refine ⟨-m, k, ?_⟩
    rw [parseDecimal, String.toList_ofList, hstrip]
    simp only [takeSign, hvalue, Option.map_some]
    push_cast
    congr 1
    ring
  · obtain ⟨m, k, hvalue⟩ := exists_parseUnsigned h
    refine ⟨m, k, ?_⟩
    rw [(parseDecimal_of_isUnsignedPlain h).2, hvalue, Int.cast_natCast]

/-! ## Writing -/

def natText (n : ℕ) : List Char := digitsOf (Nat.log 10 n + 1) n

/-- As many significant digits as a number with finitely many decimals has at most. -/
def significantDigits (x : ℚ) : ℕ := Nat.log 10 ⌊x⌋.toNat + 1 + Nat.log 2 x.den

/-- A positive number with finitely many decimals, with all its digits. -/
def decimalText (x : ℚ) : List Char := formatGeneral (significantDigits x) x

example : decimalText (7 / 2) = ['3', '.', '5'] := by decide +kernel

example : decimalText (1 / 20000) = ['5', 'e', '-', '0', '5'] := by decide +kernel

theorem natText_ne_nil (n : ℕ) : natText n ≠ [] := by
  exact List.append_ne_nil_of_right_ne_nil _ (List.cons_ne_nil _ _)

theorem isDigit_of_mem_natText {n : ℕ} {c : Char} (hc : c ∈ natText n) : c.isDigit = true :=
  isDigit_of_mem_digitsOf hc

theorem parseDecimal_natText (n : ℕ) :
    isPlainNumber (natText n) = true ∧ parseDecimal (String.ofList (natText n)) = some (n : ℚ) := by
  have hdigits : ∀ c ∈ natText n, c.isDigit = true := fun c hc => isDigit_of_mem_natText hc
  obtain ⟨hplain, hvalue⟩ :=
    parseDecimal_of_isUnsignedPlain (isUnsignedPlain_whole (natText_ne_nil n) hdigits)
  refine ⟨hplain, ?_⟩
  rw [hvalue, parseUnsigned_whole (natText_ne_nil n) hdigits, natText, digitsValue_digitsOf,
    Nat.mod_eq_of_lt (Nat.lt_pow_succ_log_self (by norm_num) n)]

theorem dvd_pow_log {d k : ℕ} (h : d ∣ 10 ^ k) : d ∣ 10 ^ Nat.log 2 d := by
  have hten : ∀ j, 10 ^ j = 2 ^ j * 5 ^ j := fun j => by
    rw [← mul_pow]
    norm_num
  rw [hten, Nat.dvd_mul] at h
  obtain ⟨twos, fives, htwos, hfives, rfl⟩ := h
  obtain ⟨a, -, rfl⟩ := (Nat.dvd_prime_pow Nat.prime_two).mp htwos
  obtain ⟨b, -, rfl⟩ := (Nat.dvd_prime_pow Nat.prime_five).mp hfives
  have hle : ∀ j, 2 ^ j ≤ 2 ^ a * 5 ^ b → j ≤ Nat.log 2 (2 ^ a * 5 ^ b) :=
    fun j hj => Nat.le_log_of_pow_le (by norm_num) hj
  have ha : a ≤ Nat.log 2 (2 ^ a * 5 ^ b) :=
    hle a (Nat.le_mul_of_pos_right _ (by positivity))
  have hb : b ≤ Nat.log 2 (2 ^ a * 5 ^ b) :=
    hle b ((Nat.pow_le_pow_left (by norm_num) b).trans (Nat.le_mul_of_pos_left _ (by positivity)))
  rw [hten]
  exact mul_dvd_mul (pow_dvd_pow 2 ha) (pow_dvd_pow 5 hb)

theorem parseUnsigned_eq_plainValue (h : isUnsignedPlain text = true) :
    parseUnsigned text = plainValue text := by
  obtain ⟨whole, hne, hwhole, rfl | ⟨fraction, hsome, hfraction, rfl⟩⟩ :=
    exists_of_isUnsignedPlain h
  · obtain ⟨htake, hdrop⟩ := @takeWhile_isDigit_append text [] hwhole (by simp)
    rw [List.append_nil] at htake hdrop
    rw [parseUnsigned_whole hne hwhole, plainValue, htake, hdrop]
    cases text with
    | nil => exact absurd rfl hne
    | cons c rest => rfl
  · obtain ⟨htake, hdrop⟩ := @takeWhile_isDigit_append whole ('.' :: fraction) hwhole (by simp)
    rw [parseUnsigned_fraction hne hwhole hfraction, plainValue, htake, hdrop]
    cases whole with
    | nil => exact absurd rfl hne
    | cons c rest => exact (if_pos ⟨.inl rfl, hsome, List.all_eq_true.mpr hfraction⟩).symm

theorem isUnsignedPlain_fixedText (k : ℕ) (y : ℚ) (e : ℤ) :
    isUnsignedPlain (fixedText k y e) = true := by
  have hne : digitsOf (e.toNat + 1) (⌊y * 10 ^ k⌋.toNat / 10 ^ k) ≠ [] := by
    exact List.append_ne_nil_of_right_ne_nil _ (List.cons_ne_nil _ _)
  have hdigits : ∀ c ∈ stripZeros (digitsOf k ⌊y * 10 ^ k⌋.toNat), c.isDigit = true :=
    fun c hc => isDigit_of_mem_stripZeros (fun d hd => isDigit_of_mem_digitsOf hd) hc
  rw [fixedText, fractionText]
  split
  · rw [List.append_nil]
    exact isUnsignedPlain_whole hne fun c hc => isDigit_of_mem_digitsOf hc
  · next hsome =>
    exact isUnsignedPlain_fraction hne (fun c hc => isDigit_of_mem_digitsOf hc) hsome hdigits

section Exact

variable {x : ℚ}

/-- A number with finitely many decimals. -/
def FinitelyManyDecimals (x : ℚ) : Prop := ∃ (m : ℤ) (k : ℕ), x = m / 10 ^ k

theorem FinitelyManyDecimals.exists_units (h : FinitelyManyDecimals x) {j : ℕ}
    (hj : Nat.log 2 x.den ≤ j) : ∃ m : ℤ, x * 10 ^ j = m := by
  have hden : x.den ∣ 10 ^ j := by
    obtain ⟨m, k, hx⟩ := h
    have hdvd : ((x.den : ℕ) : ℤ) ∣ ((10 ^ k : ℕ) : ℤ) := by
      have hratio := Rat.den_dvd m ((10 ^ k : ℕ) : ℤ)
      rw [hx]
      rw [Rat.divInt_eq_div] at hratio
      push_cast at hratio
      exact hratio
    exact (dvd_pow_log (Int.natCast_dvd_natCast.mp hdvd)).trans (pow_dvd_pow 10 hj)
  obtain ⟨c, hc⟩ := hden
  refine ⟨x.num * c, ?_⟩
  have hcast : (10 : ℚ) ^ j = x.den * c := by exact_mod_cast hc
  rw [hcast, ← mul_assoc, Rat.mul_den_eq_num]
  push_cast
  rfl

theorem log_le_log_floor (x : ℚ) : Int.log 10 x ≤ Nat.log 10 ⌊x⌋.toNat := by
  rcases le_total 1 x with hone | hone
  · rw [Int.log_of_one_le_right _ hone]
    exact le_refl _
  · rw [Int.log_of_right_le_one _ hone]
    exact (neg_nonpos.mpr (Int.natCast_nonneg _)).trans (Int.natCast_nonneg _)

theorem roundSignificant_significantDigits (h : FinitelyManyDecimals x) (hx : 0 < x) :
    roundSignificant (significantDigits x) x = x := by
  have hlog := log_le_log_floor x
  obtain ⟨j, hj⟩ : ∃ j : ℕ, (significantDigits x : ℤ) - 1 - Int.log 10 x = j :=
    ⟨((significantDigits x : ℤ) - 1 - Int.log 10 x).toNat, by
      rw [significantDigits]
      omega⟩
  have hle : Nat.log 2 x.den ≤ j := by
    rw [significantDigits] at hj
    omega
  obtain ⟨m, hm⟩ := h.exists_units hle
  rw [roundSignificant_of_pos _ hx, hj, zpow_natCast, hm, roundHalfEven_intCast, ← hm]
  exact mul_div_cancel_right₀ _ (by positivity)

theorem decimalText_ne_nil (x : ℚ) : decimalText x ≠ [] := by
  have hdigits : ∀ k n, digitsOf (k + 1) n ≠ [] := fun k n => by
    exact List.append_ne_nil_of_right_ne_nil _ (List.cons_ne_nil _ _)
  rw [decimalText, formatGeneral]
  split
  · exact List.append_ne_nil_of_left_ne_nil (hdigits _ _) _
  · exact List.append_ne_nil_of_left_ne_nil (hdigits _ _) _

/-- **A number that is written out plainly** is a plain decimal, and is read as itself. -/
theorem parseDecimal_decimalText (h : FinitelyManyDecimals x) (hx : 1 / 10 ^ 4 ≤ x) :
    isPlainNumber (decimalText x) = true ∧
      parseDecimal (String.ofList (decimalText x)) = some x := by
  have hpos : 0 < x := lt_of_lt_of_le (by norm_num) hx
  have hexact := roundSignificant_significantDigits h hpos
  have hlow : -4 ≤ Int.log 10 x := by
    refine (Int.zpow_le_iff_le_log (by norm_num) hpos).mp (le_trans (le_of_eq ?_) hx)
    norm_num
  have hhigh : Int.log 10 x < significantDigits x := by
    have hlog := log_le_log_floor x
    rw [significantDigits]
    omega
  have htext : decimalText x = fixedText (significantDigits x + 3) x (Int.log 10 x) := by
    rw [decimalText, formatGeneral, hexact, if_pos ⟨hlow, hhigh⟩]
  have hplain := isUnsignedPlain_fixedText (significantDigits x + 3) x (Int.log 10 x)
  obtain ⟨m, hm⟩ := @FinitelyManyDecimals.exists_units x h (significantDigits x + 3) (by
    rw [significantDigits]
    omega)
  obtain ⟨hnumber, hvalue⟩ := parseDecimal_of_isUnsignedPlain hplain
  rw [htext]
  exact ⟨hnumber, by rw [hvalue, parseUnsigned_eq_plainValue hplain, plainValue_fixedText hpos hm]⟩

/-- **A number that is written with an exponent** is no plain decimal. -/
theorem not_isPlainNumber_decimalText (h : FinitelyManyDecimals x) (hpos : 0 < x)
    (hx : x < 1 / 10 ^ 4) : isPlainNumber (decimalText x) = false := by
  have hlog : Int.log 10 x < -4 := by
    refine (Int.lt_zpow_iff_log_lt (by norm_num) hpos).mp (lt_of_lt_of_eq hx ?_)
    norm_num
  have htext : decimalText x =
      scientificText (significantDigits x) x (Int.log 10 x) := by
    rw [decimalText, formatGeneral, roundSignificant_significantDigits h hpos,
      if_neg fun hplain => absurd hplain.1 (not_le.mpr hlog)]
  have hmem : 'e' ∈ decimalText x := by
    rw [htext]
    exact List.mem_append_right _ (List.mem_append_right _ List.mem_cons_self)
  rw [← Bool.not_eq_true]
  intro hplain
  rcases mem_isPlainNumber hplain 'e' hmem with hc | hc | hc <;> exact absurd hc (by decide)

end Exact

end DecimalText
