import Mathlib.Algebra.Order.Floor.Ring
import Mathlib.Data.Int.Log
import Mathlib.Data.List.DropRight
import Mathlib.Data.List.Lex
import Mathlib.Data.Rat.Floor
import Mathlib.Tactic.NormNum

/-!
# Numbers as decimal text

Conversions between text and numbers, over exact rationals.

* `parseDecimal` reads a decimal floating literal: surrounding blanks, an optional sign,
  digits with single underscores between them, a point, an exponent.  The literals for
  infinity and not-a-number have no rational value and are not read.
* `roundSignificant n` is the value that formatting with `n` significant digits shows,
  rounding half to even.  Two numbers print alike with `n` significant digits exactly when
  these values are equal, so a key built from the printed text is a key built from this value.

Texts are stripped of blanks and changed in case by the string functions of the same meaning; doing
either a second time changes nothing (`strip_strip`, `lowered_lowered`, `uppered_uppered`).
-/

namespace DecimalText

/-! ## Reading -/

/-- The digits at the front, and what follows them.  A single underscore may stand between two
digits; `after` says whether a digit has just been read. -/
def takeDigits : Bool → List Char → List Char × List Char
  | _, [] => ([], [])
  | after, c :: rest =>
      if c.isDigit then
        (c :: (takeDigits true rest).1, (takeDigits true rest).2)
      else if c = '_' ∧ after = true ∧ (rest.head?.any Char.isDigit) = true then
        takeDigits false rest
      else ([], c :: rest)

/-- The number that a list of digits spells. -/
def digitsValue (digits : List Char) : ℕ :=
  digits.foldl (fun value c => 10 * value + (c.toNat - '0'.toNat)) 0

/-- An optional sign: its factor and what follows it. -/
def takeSign : List Char → ℤ × List Char
  | '-' :: rest => (-1, rest)
  | '+' :: rest => (1, rest)
  | rest => (1, rest)

/-- The exponent part, or nothing; `none` when the text does not end there. -/
def parseExponent : List Char → Option ℤ
  | [] => some 0
  | c :: rest =>
      if c = 'e' ∨ c = 'E' then
        match takeSign rest with
        | (sign, rest') =>
            match takeDigits false rest' with
            | ([], _) => none
            | (digits, []) => some (sign * digitsValue digits)
            | (_, _ :: _) => none
      else none

/-- An unsigned literal: digits, an optional point with digits, an optional exponent; at least
one digit before the exponent. -/
def parseUnsigned (text : List Char) : Option ℚ :=
  match takeDigits false text with
  | (whole, rest) =>
      match (match rest with
        | '.' :: rest' => takeDigits false rest'
        | _ => ([], rest)) with
      | (fraction, rest') =>
          if whole = [] ∧ fraction = [] then none
          else
            (parseExponent rest').map fun e =>
              (digitsValue (whole ++ fraction) : ℚ) * (10 : ℚ) ^ (e - (fraction.length : ℤ))

/-- The text without the blanks around it. -/
def strip (text : List Char) : List Char :=
  ((text.dropWhile Char.isWhitespace).reverse.dropWhile Char.isWhitespace).reverse

/-- The value of a decimal floating literal. -/
def parseDecimal (text : String) : Option ℚ :=
  match takeSign (strip text.toList) with
  | (sign, rest) => (parseUnsigned rest).map fun x => (sign : ℚ) * x

/-- A number without its fraction: `int` of a float. -/
def truncate (x : ℚ) : ℤ := x.num.tdiv x.den

/-- The value of a decimal literal, without its fraction. -/
def parseTruncated (text : String) : Option ℤ := (parseDecimal text).map truncate

/-- `str.lower`, on ASCII letters. -/
def lowered (s : String) : String := String.ofList (s.toList.map Char.toLower)

/-- `str.upper`, on ASCII letters. -/
def uppered (s : String) : String := String.ofList (s.toList.map Char.toUpper)

example : parseDecimal " -12.5e1 " = some (-125) := by decide +kernel

example : parseDecimal "buy" = none := by decide +kernel

/-! ## Blanks and cases -/

/-- `str.strip`. -/
def stripped (s : String) : String := String.ofList (strip s.toList)

theorem toNat_toLower (c : Char) :
    c.toLower.toNat = if 65 ≤ c.toNat ∧ c.toNat ≤ 90 then c.toNat + 32 else c.toNat := by
  have hrange : (c.val ≥ 'A'.val ∧ c.val ≤ 'Z'.val) ↔ 65 ≤ c.toNat ∧ c.toNat ≤ 90 := by
    exact Iff.rfl
  by_cases h : 65 ≤ c.toNat ∧ c.toNat ≤ 90
  · have hval : c.toLower.val = c.val + ('a'.val - 'A'.val) :=
      congrArg Char.val (dif_pos (hrange.mpr h))
    rw [if_pos h]
    show c.toLower.val.toNat = c.val.toNat + 32
    have hbound : c.val.toNat ≤ 90 := h.2
    have hshift : ('a'.val - 'A'.val).toNat = 32 := by decide
    rw [hval, UInt32.toNat_add]
    omega
  · have hsame : c.toLower = c := dif_neg (hrange.not.mpr h)
    rw [hsame, if_neg h]

theorem toNat_toUpper (c : Char) :
    c.toUpper.toNat = if 97 ≤ c.toNat ∧ c.toNat ≤ 122 then c.toNat - 32 else c.toNat := by
  have hrange : ('a'.val ≤ c.val ∧ c.val ≤ 'z'.val) ↔ 97 ≤ c.toNat ∧ c.toNat ≤ 122 := by
    exact Iff.rfl
  by_cases h : 97 ≤ c.toNat ∧ c.toNat ≤ 122
  · have hval : c.toUpper.val = c.val + ('A'.val - 'a'.val) := by
      unfold Char.toUpper
      rw [dif_pos (hrange.mpr h)]
    rw [if_pos h]
    show c.toUpper.val.toNat = c.val.toNat - 32
    have hlow : 97 ≤ c.val.toNat := h.1
    have hhigh : c.val.toNat ≤ 122 := h.2
    have hshift : ('A'.val - 'a'.val).toNat = 2 ^ 32 - 32 := by decide
    rw [hval, UInt32.toNat_add]
    omega
  · have hsame : c.toUpper = c := dif_neg (hrange.not.mpr h)
    rw [hsame, if_neg h]

theorem isWhitespace_iff (c : Char) :
    c.isWhitespace = true ↔ c.toNat = 32 ∨ c.toNat = 9 ∨ c.toNat = 13 ∨ c.toNat = 10 := by
  have hcode : ∀ d : Char, c = d ↔ c.toNat = d.toNat := fun d => Char.toNat_inj.symm
  simp only [Char.isWhitespace, Bool.or_eq_true, decide_eq_true_eq, hcode, or_assoc]
  exact Iff.rfl

theorem isWhitespace_toLower (c : Char) : c.toLower.isWhitespace = c.isWhitespace := by
  rw [Bool.eq_iff_iff, isWhitespace_iff, isWhitespace_iff, toNat_toLower]
  split_ifs <;> omega

theorem isWhitespace_toUpper (c : Char) : c.toUpper.isWhitespace = c.isWhitespace := by
  rw [Bool.eq_iff_iff, isWhitespace_iff, isWhitespace_iff, toNat_toUpper]
  split_ifs <;> omega

theorem toLower_toLower (c : Char) : c.toLower.toLower = c.toLower := by
  rw [← Char.toNat_inj, toNat_toLower, toNat_toLower]
  split_ifs <;> omega

theorem toUpper_toUpper (c : Char) : c.toUpper.toUpper = c.toUpper := by
  rw [← Char.toNat_inj, toNat_toUpper, toNat_toUpper]
  split_ifs <;> omega

/-- A change of characters that keeps the blanks apart from the others can be made before or after
the blanks at the ends are taken off. -/
theorem strip_map {f : Char → Char} (hf : ∀ c, (f c).isWhitespace = c.isWhitespace)
    (text : List Char) : strip (text.map f) = (strip text).map f := by
  have hcomp : Char.isWhitespace ∘ f = Char.isWhitespace := funext hf
  rw [strip, strip, List.dropWhile_map, ← List.map_reverse, List.dropWhile_map, hcomp,
    List.map_reverse]

theorem strip_eq_self {text : List Char} (hfirst : ∀ c ∈ text.head?, c.isWhitespace = false)
    (hlast : ∀ c ∈ text.getLast?, c.isWhitespace = false) : strip text = text := by
  have hfront : text.dropWhile Char.isWhitespace = text := by
    cases text with
    | nil => rfl
    | cons c text => exact List.dropWhile_cons_of_neg (by simp [hfirst c rfl])
  have hback : text.reverse.dropWhile Char.isWhitespace = text.reverse := by
    rw [← List.head?_reverse] at hlast
    cases hreverse : text.reverse with
    | nil => rfl
    | cons c rest =>
      rw [hreverse] at hlast
      exact List.dropWhile_cons_of_neg (by simp [hlast c rfl])
  rw [strip, hfront, hback, List.reverse_reverse]

theorem of_mem_head?_dropWhile {p : Char → Bool} {text : List Char} {c : Char}
    (hc : c ∈ (text.dropWhile p).head?) : p c = false := by
  have hnot := List.head?_dropWhile_not p text
  rw [Option.mem_def.mp hc] at hnot
  exact hnot

theorem strip_strip (text : List Char) : strip (strip text) = strip text := by
  have hprefix : strip text <+: text.dropWhile Char.isWhitespace := List.rdropWhile_prefix _ _
  refine strip_eq_self (fun c hc => ?_) fun c hc => ?_
  · obtain ⟨rest, hrest⟩ := hprefix
    refine @of_mem_head?_dropWhile Char.isWhitespace text c ?_
    rw [← hrest, List.head?_append, Option.mem_def.mp hc]
    rfl
  · rw [strip, List.getLast?_reverse] at hc
    exact of_mem_head?_dropWhile hc

theorem lowered_lowered (s : String) : lowered (lowered s) = lowered s := by
  rw [lowered, lowered, String.toList_ofList, List.map_map]
  congr 2
  exact funext toLower_toLower

theorem uppered_uppered (s : String) : uppered (uppered s) = uppered s := by
  rw [uppered, uppered, String.toList_ofList, List.map_map]
  congr 2
  exact funext toUpper_toUpper

theorem stripped_stripped (s : String) : stripped (stripped s) = stripped s := by
  rw [stripped, stripped, String.toList_ofList, strip_strip]

theorem stripped_lowered (s : String) : stripped (lowered s) = lowered (stripped s) := by
  rw [stripped, lowered, lowered, stripped, String.toList_ofList, String.toList_ofList,
    strip_map isWhitespace_toLower]

theorem stripped_uppered (s : String) : stripped (uppered s) = uppered (stripped s) := by
  rw [stripped, uppered, uppered, stripped, String.toList_ofList, String.toList_ofList,
    strip_map isWhitespace_toUpper]

/-! ## The order of texts -/

/-- Texts compared by their code points, a text before those it begins. -/
def codesBefore : List Char → List Char → Bool
  | _, [] => false
  | [], _ :: _ => true
  | a :: as, b :: bs => a.toNat < b.toNat || (a = b && codesBefore as bs)

/-- `a < b` for texts. -/
def textBefore (a b : String) : Bool := codesBefore a.toList b.toList

/-- The code points of a text, whose lexicographic order is the order of texts. -/
def codes (s : String) : List ℕ := s.toList.map Char.toNat

theorem codesBefore_iff (as bs : List Char) :
    codesBefore as bs = true ↔ as.map Char.toNat < bs.map Char.toNat := by
  induction as generalizing bs with
  | nil => cases bs <;> simp [codesBefore]
  | cons a as ih =>
    cases bs with
    | nil => simp [codesBefore]
    | cons b bs =>
      rw [codesBefore, Bool.or_eq_true, Bool.and_eq_true, decide_eq_true_iff, decide_eq_true_iff,
        ih, List.map_cons, List.map_cons, List.cons_lt_cons_iff]
      exact or_congr_right (and_congr_left' Char.toNat_inj.symm)

theorem textBefore_iff (a b : String) : textBefore a b = true ↔ codes a < codes b :=
  codesBefore_iff a.toList b.toList

theorem not_textBefore_iff (a b : String) : textBefore a b = false ↔ codes b ≤ codes a := by
  rw [← not_lt, ← textBefore_iff, Bool.not_eq_true]

theorem codes_injective : Function.Injective codes := fun _ _ h =>
  String.ext (List.map_injective_iff.mpr (fun _ _ => Char.toNat_inj.mp) h)

example : textBefore "10" "9" = true := by decide

/-! ## Rounding to significant digits -/

/-- Round to the nearest integer, a half to the even one. -/
def roundHalfEven (x : ℚ) : ℤ :=
  if x - ⌊x⌋ < 1 / 2 then ⌊x⌋
  else if 1 / 2 < x - ⌊x⌋ then ⌊x⌋ + 1
  else if ⌊x⌋ % 2 = 0 then ⌊x⌋ else ⌊x⌋ + 1

/-- The value that `n` significant digits show. -/
def roundSignificant (n : ℕ) (x : ℚ) : ℚ :=
  if x = 0 then 0
  else
    let scale : ℚ := (10 : ℚ) ^ ((n : ℤ) - 1 - Int.log 10 |x|)
    roundHalfEven (x * scale) / scale

example : roundSignificant 3 (2 / 3) = 667 / 1000 := by decide +kernel

end DecimalText
