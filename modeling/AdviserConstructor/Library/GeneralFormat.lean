import AdviserConstructor.Library.DecimalText
import Mathlib.Tactic.FieldSimp
import Mathlib.Tactic.Linarith
import Mathlib.Tactic.Positivity
import Mathlib.Tactic.Ring

/-!
# The general format of numbers

`formatGeneral n` is the format `g` with `n` significant digits: the number is rounded to `n` digits
and written out plainly if its exponent is at least `-4` and below `n`, in scientific notation
otherwise; zeros behind the last digit of a fraction are left out.

* `roundSignificant_roundSignificant`: rounding to significant digits changes nothing the second
  time.
* `plainValue_formatGeneral`: a formatted number that can be read as a plain decimal has the
  rounded value.
* `formatGeneral_of_plainValue`: a plain decimal that was formatted is formatted to itself.
-/

namespace DecimalText

/-! ## Digits -/

def digitChar (d : ℕ) : Char := Char.ofNat ('0'.toNat + d % 10)

/-- The last `k` digits of a number. -/
def digitsOf : ℕ → ℕ → List Char
  | 0, _ => []
  | k + 1, n => digitsOf k (n / 10) ++ [digitChar n]

theorem toNat_digitChar (n : ℕ) : (digitChar n).toNat - '0'.toNat = n % 10 := by
  have hdigit : ∀ d < 10, (Char.ofNat ('0'.toNat + d)).toNat - '0'.toNat = d := by decide
  exact hdigit (n % 10) (Nat.mod_lt _ (by decide))

theorem isDigit_digitChar (n : ℕ) : (digitChar n).isDigit = true := by
  have hdigit : ∀ d < 10, (Char.ofNat ('0'.toNat + d)).isDigit = true := by decide
  exact hdigit (n % 10) (Nat.mod_lt _ (by decide))

theorem isWhitespace_of_isDigit {c : Char} (hc : c.isDigit = true) : c.isWhitespace = false := by
  have hrange : 48 ≤ c.toNat ∧ c.toNat ≤ 57 := by
    simpa [Char.isDigit, UInt32.le_iff_toNat_le] using hc
  rw [← Bool.not_eq_true, isWhitespace_iff]
  omega

@[simp] theorem length_digitsOf (k n : ℕ) : (digitsOf k n).length = k := by
  induction k generalizing n with
  | zero => rfl
  | succ k ih => rw [digitsOf, List.length_append, ih, List.length_singleton]

variable {n : ℕ}

theorem isDigit_of_mem_digitsOf {k : ℕ} {c : Char} (hc : c ∈ digitsOf k n) : c.isDigit = true := by
  induction k generalizing n with
  | zero => cases hc
  | succ k ih =>
    rw [digitsOf, List.mem_append, List.mem_singleton] at hc
    rcases hc with hc | rfl
    · exact ih hc
    · exact isDigit_digitChar n

theorem digitsValue_concat (digits : List Char) (c : Char) :
    digitsValue (digits ++ [c]) = 10 * digitsValue digits + (c.toNat - '0'.toNat) := by
  rw [digitsValue, List.foldl_append]
  rfl

theorem digitsValue_append (xs ys : List Char) :
    digitsValue (xs ++ ys) = digitsValue xs * 10 ^ ys.length + digitsValue ys := by
  induction ys using List.reverseRecOn with
  | nil => rw [List.append_nil, List.length_nil, pow_zero, mul_one]; rfl
  | append_singleton ys c ih =>
    rw [← List.append_assoc, digitsValue_concat, digitsValue_concat, ih, List.length_append,
      List.length_singleton]
    ring

theorem digitsValue_digitsOf (k n : ℕ) : digitsValue (digitsOf k n) = n % 10 ^ k := by
  induction k generalizing n with
  | zero => rw [pow_zero, Nat.mod_one]; rfl
  | succ k ih =>
    rw [digitsOf, digitsValue_concat, ih, toNat_digitChar, pow_succ, mul_comm (10 ^ k) 10,
      Nat.mod_mul, add_comm]

theorem digitsValue_replicate_zero (k : ℕ) : digitsValue (List.replicate k '0') = 0 := by
  induction k with
  | zero => rfl
  | succ k ih => rw [List.replicate_succ', digitsValue_concat, ih]; rfl

/-! ## Plain decimals -/

/-- The value of a plain decimal: digits, and behind a point or a comma some more. -/
def plainValue (text : List Char) : Option ℚ :=
  match text.takeWhile Char.isDigit, text.dropWhile Char.isDigit with
  | [], _ => none
  | whole, [] => some (digitsValue whole)
  | whole, c :: fraction =>
      if (c = '.' ∨ c = ',') ∧ fraction ≠ [] ∧ fraction.all Char.isDigit then
        some (digitsValue (whole ++ fraction) / 10 ^ fraction.length)
      else none

/-- The digits of a fraction, without the zeros behind the last of them. -/
def stripZeros (digits : List Char) : List Char := digits.rdropWhile (· = '0')

/-- A fraction behind its point, if there is one. -/
def fractionText (digits : List Char) : List Char :=
  if stripZeros digits = [] then [] else '.' :: stripZeros digits

theorem stripZeros_append_replicate (digits : List Char) :
    ∃ k, digits = stripZeros digits ++ List.replicate k '0' := by
  induction digits using List.reverseRecOn with
  | nil => exact ⟨0, rfl⟩
  | append_singleton digits c ih =>
    by_cases hc : c = '0'
    · obtain ⟨k, hk⟩ := ih
      refine ⟨k + 1, ?_⟩
      rw [stripZeros, List.rdropWhile_concat_pos _ _ _ (by simpa using hc), List.replicate_succ',
        ← List.append_assoc, ← stripZeros, ← hk, hc]
    · refine ⟨0, ?_⟩
      rw [stripZeros, List.rdropWhile_concat_neg _ _ _ (by simpa using hc), List.replicate_zero,
        List.append_nil]

theorem isDigit_of_mem_stripZeros {digits : List Char} (h : ∀ c ∈ digits, c.isDigit = true)
    {c : Char} (hc : c ∈ stripZeros digits) : c.isDigit = true := by
  obtain ⟨k, hk⟩ := stripZeros_append_replicate digits
  exact h c (by rw [hk]; exact List.mem_append_left _ hc)

theorem digitsValue_stripZeros (whole digits : List Char) :
    (digitsValue (whole ++ stripZeros digits) : ℚ) / 10 ^ (stripZeros digits).length =
      digitsValue (whole ++ digits) / 10 ^ digits.length := by
  obtain ⟨k, hk⟩ := stripZeros_append_replicate digits
  have hlength : digits.length = (stripZeros digits).length + k := by
    have hcount := congrArg List.length hk
    rwa [List.length_append, List.length_replicate] at hcount
  have hvalue : digitsValue (whole ++ digits) =
      digitsValue (whole ++ stripZeros digits) * 10 ^ k := by
    rw [hk, ← List.append_assoc, digitsValue_append, digitsValue_replicate_zero,
      List.length_replicate, add_zero, ← hk]
  rw [hvalue, hlength, pow_add]
  push_cast
  field_simp

theorem takeWhile_isDigit_append {digits rest : List Char} (h : ∀ c ∈ digits, c.isDigit = true)
    (hrest : ∀ c ∈ rest.head?, c.isDigit = false) :
    (digits ++ rest).takeWhile Char.isDigit = digits ∧
      (digits ++ rest).dropWhile Char.isDigit = rest := by
  rw [List.takeWhile_append_of_pos h, List.dropWhile_append_of_pos h]
  cases rest with
  | nil => simp
  | cons c rest =>
    have hc := hrest c rfl
    rw [List.takeWhile_cons_of_neg (by simp [hc]), List.dropWhile_cons_of_neg (by simp [hc])]
    simp

theorem plainValue_append_fractionText {whole digits : List Char} (hne : whole ≠ [])
    (hwhole : ∀ c ∈ whole, c.isDigit = true) (hdigits : ∀ c ∈ digits, c.isDigit = true) :
    plainValue (whole ++ fractionText digits) =
      some ((digitsValue (whole ++ digits) : ℚ) / 10 ^ digits.length) := by
  rw [← digitsValue_stripZeros, plainValue, fractionText]
  by_cases hzeros : stripZeros digits = []
  · obtain ⟨htake, hdrop⟩ := @takeWhile_isDigit_append whole [] hwhole (by simp)
    rw [if_pos hzeros, htake, hdrop, hzeros]
    cases whole with
    | nil => exact absurd rfl hne
    | cons c whole => simp
  · obtain ⟨htake, hdrop⟩ :=
      @takeWhile_isDigit_append whole ('.' :: stripZeros digits) hwhole (by simp)
    have hall : (stripZeros digits).all Char.isDigit = true :=
      List.all_eq_true.mpr fun c hc => isDigit_of_mem_stripZeros hdigits hc
    rw [if_neg hzeros, htake, hdrop]
    cases whole with
    | nil => exact absurd rfl hne
    | cons c whole => exact if_pos ⟨Or.inl rfl, hzeros, hall⟩

/-! ## Rounding twice -/

theorem roundHalfEven_intCast (m : ℤ) : roundHalfEven (m : ℚ) = m := by
  rw [roundHalfEven, Int.floor_intCast, if_pos (by norm_num)]

variable {x : ℚ}

theorem le_roundHalfEven {m : ℤ} (h : (m : ℚ) ≤ x) : m ≤ roundHalfEven x := by
  have hfloor : m ≤ ⌊x⌋ := Int.le_floor.mpr h
  rw [roundHalfEven]
  split_ifs <;> omega

theorem roundHalfEven_le {m : ℤ} (h : x < m) : roundHalfEven x ≤ m := by
  have hfloor : ⌊x⌋ < m := Int.floor_lt.mpr h
  rw [roundHalfEven]
  split_ifs <;> omega

theorem roundSignificant_of_pos (n : ℕ) (hx : 0 < x) :
    roundSignificant n x = roundHalfEven (x * 10 ^ ((n : ℤ) - 1 - Int.log 10 x)) /
      10 ^ ((n : ℤ) - 1 - Int.log 10 x) := by
  rw [roundSignificant, if_neg hx.ne', abs_of_pos hx]

theorem units_bounds (hn : 0 < n) (hx : 0 < x) :
    ((10 ^ (n - 1) : ℕ) : ℤ) ≤ roundHalfEven (x * 10 ^ ((n : ℤ) - 1 - Int.log 10 x)) ∧
      roundHalfEven (x * 10 ^ ((n : ℤ) - 1 - Int.log 10 x)) ≤ ((10 ^ n : ℕ) : ℤ) := by
  have hten : (10 : ℚ) ≠ 0 := by norm_num
  have hlower : (10 : ℚ) ^ Int.log 10 x ≤ x := by
    simpa using @Int.zpow_log_le_self ℚ _ _ _ _ 10 x (by norm_num) hx
  have hupper : x < (10 : ℚ) ^ (Int.log 10 x + 1) := by
    simpa using @Int.lt_zpow_succ_log_self ℚ _ _ _ _ 10 (by norm_num) x
  have hscale : (0 : ℚ) < 10 ^ ((n : ℤ) - 1 - Int.log 10 x) := zpow_pos (by norm_num) _
  constructor
  · refine le_roundHalfEven ?_
    have hunit : (((10 ^ (n - 1) : ℕ) : ℤ) : ℚ) =
        10 ^ Int.log 10 x * 10 ^ ((n : ℤ) - 1 - Int.log 10 x) := by
      rw [← zpow_add₀ hten]
      push_cast
      rw [← zpow_natCast]
      congr 1
      omega
    rw [hunit]
    exact mul_le_mul_of_nonneg_right hlower hscale.le
  · refine roundHalfEven_le ?_
    have hunit : (((10 ^ n : ℕ) : ℤ) : ℚ) =
        10 ^ (Int.log 10 x + 1) * 10 ^ ((n : ℤ) - 1 - Int.log 10 x) := by
      rw [← zpow_add₀ hten]
      push_cast
      rw [← zpow_natCast]
      congr 1
      omega
    rw [hunit]
    exact mul_lt_mul_of_pos_right hupper hscale

theorem exists_units_roundSignificant (hn : 0 < n) (hx : 0 < x) :
    0 < roundSignificant n x ∧
      ∃ m : ℤ, roundSignificant n x *
        10 ^ ((n : ℤ) - 1 - Int.log 10 (roundSignificant n x)) = m := by
  have hten : (10 : ℚ) ≠ 0 := by norm_num
  obtain ⟨hlow, hhigh⟩ := units_bounds hn hx
  rw [roundSignificant_of_pos n hx]
  generalize hm : roundHalfEven (x * 10 ^ ((n : ℤ) - 1 - Int.log 10 x)) = m at hlow hhigh
  generalize Int.log 10 x = e at hm
  have hmpos : (0 : ℤ) < m := lt_of_lt_of_le (by positivity) hlow
  have hvalue : (m : ℚ) / 10 ^ ((n : ℤ) - 1 - e) = m * 10 ^ (e + 1 - n) := by
    rw [div_eq_mul_inv, ← zpow_neg]
    congr 2
    omega
  rw [hvalue]
  have hy : (0 : ℚ) < m * 10 ^ (e + 1 - n) :=
    mul_pos (Int.cast_pos.mpr hmpos) (zpow_pos (by norm_num) _)
  refine ⟨hy, ?_⟩
  rcases hhigh.lt_or_eq with hlt | heq
  · -- The exponent has not changed.
    have hlog : Int.log 10 ((m : ℚ) * 10 ^ (e + 1 - n)) = e := by
      refine le_antisymm (Int.lt_add_one_iff.mp ?_) ?_
      · refine (Int.lt_zpow_iff_log_lt (by norm_num) hy).mp ?_
        have hunits : (m : ℚ) < 10 ^ (n : ℤ) := by
          exact_mod_cast hlt
        calc (m : ℚ) * 10 ^ (e + 1 - n) < 10 ^ (n : ℤ) * 10 ^ (e + 1 - n) :=
              mul_lt_mul_of_pos_right hunits (zpow_pos (by norm_num) _)
          _ = ((10 : ℕ) : ℚ) ^ (e + 1) := by
              rw [← zpow_add₀ hten]
              congr 1
              omega
      · refine (Int.zpow_le_iff_le_log (by norm_num) hy).mp ?_
        have hunits : (10 : ℚ) ^ ((n : ℤ) - 1) ≤ m := by
          have hcast : (((10 ^ (n - 1) : ℕ) : ℤ) : ℚ) ≤ m := Int.cast_le.mpr hlow
          refine le_trans (le_of_eq ?_) hcast
          push_cast
          rw [← zpow_natCast]
          congr 1
          omega
        calc ((10 : ℕ) : ℚ) ^ e = 10 ^ ((n : ℤ) - 1) * 10 ^ (e + 1 - n) := by
              rw [← zpow_add₀ hten]
              congr 1
              omega
          _ ≤ (m : ℚ) * 10 ^ (e + 1 - n) :=
              mul_le_mul_of_nonneg_right hunits (zpow_pos (by norm_num) _).le
    refine ⟨m, ?_⟩
    rw [hlog, mul_assoc, ← zpow_add₀ hten]
    have hzero : e + 1 - (n : ℤ) + ((n : ℤ) - 1 - e) = 0 := by omega
    rw [hzero, zpow_zero, mul_one]
  · -- Rounding up has reached the next power of ten.
    have hpower : (m : ℚ) * 10 ^ (e + 1 - n) = ((10 : ℕ) : ℚ) ^ (e + 1) := by
      rw [heq]
      push_cast
      rw [← zpow_natCast, ← zpow_add₀ hten]
      congr 1
      omega
    refine ⟨((10 ^ (n - 1) : ℕ) : ℤ), ?_⟩
    rw [hpower, Int.log_zpow (by norm_num)]
    push_cast
    rw [← zpow_add₀ hten, ← zpow_natCast]
    congr 1
    omega

/-- **Rounding twice.**  A rounded number stays as it is when it is rounded again. -/
theorem roundSignificant_roundSignificant (hn : 0 < n) (hx : 0 < x) :
    roundSignificant n (roundSignificant n x) = roundSignificant n x := by
  obtain ⟨hy, m, hm⟩ := exists_units_roundSignificant hn hx
  have hscale : (10 : ℚ) ^ ((n : ℤ) - 1 - Int.log 10 (roundSignificant n x)) ≠ 0 :=
    zpow_ne_zero _ (by norm_num)
  rw [roundSignificant_of_pos n hy, hm, roundHalfEven_intCast, ← hm, mul_div_cancel_right₀ _ hscale]

/-! ## The format -/

/-- A number in plain digits: those of the whole part, for an exponent `e`, and `k` behind the
point. -/
def fixedText (k : ℕ) (y : ℚ) (e : ℤ) : List Char :=
  digitsOf (e.toNat + 1) (⌊y * 10 ^ k⌋.toNat / 10 ^ k) ++
    fractionText (digitsOf k ⌊y * 10 ^ k⌋.toNat)

/-- An exponent, with its sign and at least two digits. -/
def exponentText (e : ℤ) : List Char :=
  'e' :: (if e < 0 then '-' else '+') :: digitsOf (max 2 (Nat.log 10 e.natAbs + 1)) e.natAbs

/-- A number with exponent `e` in scientific notation, of `n` digits. -/
def scientificText (n : ℕ) (y : ℚ) (e : ℤ) : List Char :=
  digitsOf 1 (⌊y * 10 ^ ((n : ℤ) - 1 - e)⌋.toNat / 10 ^ (n - 1)) ++
    (fractionText (digitsOf (n - 1) ⌊y * 10 ^ ((n : ℤ) - 1 - e)⌋.toNat) ++ exponentText e)

/-- A positive number in the format `g`, with `n` significant digits. -/
def formatGeneral (n : ℕ) (x : ℚ) : List Char :=
  if -4 ≤ Int.log 10 (roundSignificant n x) ∧ Int.log 10 (roundSignificant n x) < n then
    fixedText (n + 3) (roundSignificant n x) (Int.log 10 (roundSignificant n x))
  else scientificText n (roundSignificant n x) (Int.log 10 (roundSignificant n x))

example : formatGeneral 6 (25 / 10) = ['2', '.', '5'] := by decide +kernel

example : formatGeneral 6 1000000 = ['1', 'e', '+', '0', '6'] := by decide +kernel

theorem digitsOf_add (j k m : ℕ) :
    digitsOf (j + k) m = digitsOf j (m / 10 ^ k) ++ digitsOf k m := by
  induction k generalizing m with
  | zero => rw [pow_zero, Nat.div_one]; exact (List.append_nil _).symm
  | succ k ih =>
    rw [← add_assoc, digitsOf, ih, digitsOf, List.append_assoc, Nat.div_div_eq_div_mul, pow_succ,
      mul_comm (10 ^ k) 10]

theorem plainValue_fixedText {k : ℕ} {y : ℚ} {m : ℤ} (hy : 0 < y) (hm : y * 10 ^ k = m) :
    plainValue (fixedText k y (Int.log 10 y)) = some y := by
  have hunits : (⌊y * 10 ^ k⌋.toNat : ℚ) = y * 10 ^ k := by
    have hnonneg : 0 ≤ m := by
      have : (0 : ℚ) ≤ m := hm ▸ by positivity
      exact_mod_cast this
    rw [hm]
    exact_mod_cast Int.toNat_of_nonneg hnonneg
  have hbound : ⌊y * 10 ^ k⌋.toNat < 10 ^ ((Int.log 10 y).toNat + 1 + k) := by
    have hupper : y < (10 : ℚ) ^ ((Int.log 10 y).toNat + 1) := by
      have hlog := @Int.lt_zpow_succ_log_self ℚ _ _ _ _ 10 (by norm_num) y
      refine hlog.trans_le ?_
      rw [← zpow_natCast]
      exact zpow_le_zpow_right₀ (by norm_num) (by push_cast; omega)
    have hscaled : (⌊y * 10 ^ k⌋.toNat : ℚ) < 10 ^ ((Int.log 10 y).toNat + 1 + k) := by
      rw [hunits, pow_add _ _ k]
      exact mul_lt_mul_of_pos_right hupper (by positivity)
    exact_mod_cast hscaled
  rw [fixedText, plainValue_append_fractionText (by simp [digitsOf])
    (fun c hc => isDigit_of_mem_digitsOf hc) (fun c hc => isDigit_of_mem_digitsOf hc),
    ← digitsOf_add, digitsValue_digitsOf, Nat.mod_eq_of_lt hbound, hunits, length_digitsOf,
    mul_div_cancel_right₀ _ (by positivity)]

theorem plainValue_scientificText (n : ℕ) (y : ℚ) (e : ℤ) :
    plainValue (scientificText n y e) = none := by
  rw [scientificText]
  generalize hfraction : digitsOf (n - 1) ⌊y * 10 ^ ((n : ℤ) - 1 - e)⌋.toNat = fraction
  generalize hwhole : digitsOf 1 (⌊y * 10 ^ ((n : ℤ) - 1 - e)⌋.toNat / 10 ^ (n - 1)) = whole
  have hdigits : ∀ c ∈ whole, c.isDigit = true := fun c hc => by
    rw [← hwhole] at hc
    exact isDigit_of_mem_digitsOf hc
  rw [fractionText]
  by_cases hzeros : stripZeros fraction = []
  · obtain ⟨htake, hdrop⟩ := @takeWhile_isDigit_append whole (exponentText e) hdigits
      (by simp [exponentText])
    rw [if_pos hzeros, List.nil_append, plainValue, htake, hdrop]
    cases whole with
    | nil => rfl
    | cons c whole => exact if_neg (by simp)
  · obtain ⟨htake, hdrop⟩ := @takeWhile_isDigit_append whole
      ('.' :: (stripZeros fraction ++ exponentText e)) hdigits (by simp)
    rw [if_neg hzeros, List.cons_append, plainValue, htake, hdrop]
    cases whole with
    | nil => rfl
    | cons c whole => exact if_neg (by simp [exponentText])

theorem mem_formatGeneral {c : Char} (hc : c ∈ formatGeneral n x) :
    c.isDigit = true ∨ c ∈ ['.', 'e', '-', '+'] := by
  have hfraction : ∀ {k m : ℕ} {c : Char}, c ∈ fractionText (digitsOf k m) →
      c.isDigit = true ∨ c ∈ ['.', 'e', '-', '+'] := by
    intro k m c hc
    rw [fractionText] at hc
    split_ifs at hc with hzeros
    · cases hc
    · rcases List.mem_cons.mp hc with rfl | hc
      · exact .inr (by decide)
      · exact .inl (isDigit_of_mem_stripZeros (fun d hd => isDigit_of_mem_digitsOf hd) hc)
  rw [formatGeneral] at hc
  split_ifs at hc
  · rw [fixedText, List.mem_append] at hc
    exact hc.elim (fun hc => .inl (isDigit_of_mem_digitsOf hc)) hfraction
  · rw [scientificText, List.mem_append, List.mem_append, exponentText, List.mem_cons,
      List.mem_cons] at hc
    rcases hc with hc | hc | rfl | rfl | hc
    · exact .inl (isDigit_of_mem_digitsOf hc)
    · exact hfraction hc
    · exact .inr (by decide)
    · right
      split_ifs <;> decide
    · exact .inl (isDigit_of_mem_digitsOf hc)

theorem isWhitespace_of_mem_formatGeneral {c : Char} (hc : c ∈ formatGeneral n x) :
    c.isWhitespace = false := by
  rcases mem_formatGeneral hc with hdigit | hsign
  · exact isWhitespace_of_isDigit hdigit
  · have hall : (['.', 'e', '-', '+'].all fun c => !c.isWhitespace) = true := by decide
    simpa using List.all_eq_true.mp hall c hsign

/-- **Reading a formatted number.**  If it can be read as a plain decimal, it has the rounded
value. -/
theorem plainValue_formatGeneral (hn : 0 < n) {v : ℚ} (hx : 0 < x)
    (hread : plainValue (formatGeneral n x) = some v) : v = roundSignificant n x := by
  obtain ⟨hy, m, hm⟩ := exists_units_roundSignificant hn hx
  rw [formatGeneral] at hread
  by_cases hplain : -4 ≤ Int.log 10 (roundSignificant n x) ∧
      Int.log 10 (roundSignificant n x) < n
  · rw [if_pos hplain] at hread
    -- The last digit stands no further behind the point than the format writes.
    have hunits : roundSignificant n x * 10 ^ (n + 3) =
        ((m * 10 ^ (4 + Int.log 10 (roundSignificant n x)).toNat : ℤ) : ℚ) := by
      push_cast
      rw [← hm, mul_assoc]
      congr 1
      rw [← zpow_natCast, ← zpow_natCast, ← zpow_add₀ (by norm_num)]
      congr 1
      omega
    rw [plainValue_fixedText hy hunits] at hread
    exact (Option.some.inj hread).symm
  · rw [if_neg hplain, plainValue_scientificText] at hread
    cases hread

/-- **Formatting twice.**  A formatted number that is read as a plain decimal is formatted to the
same text again. -/
theorem formatGeneral_of_plainValue (hn : 0 < n) {v : ℚ} (hx : 0 < x)
    (hread : plainValue (formatGeneral n x) = some v) : formatGeneral n v = formatGeneral n x := by
  rw [plainValue_formatGeneral hn hx hread, formatGeneral,
    roundSignificant_roundSignificant hn hx, formatGeneral]

end DecimalText
