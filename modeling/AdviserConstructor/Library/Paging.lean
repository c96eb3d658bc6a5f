import Mathlib.Data.List.Basic
import Mathlib.Algebra.Order.Group.Int
import Mathlib.Tactic.Common

/-!
# Reading a sorted store by pages

A store of rows, in ascending order of a time, is read through requests for the rows not before a
cursor.  A page is an initial part of what a request asks for.  A reader that has read a page goes
on with the cursor one past the time of its last row, so that it leaves out the rows behind the page
that share this time.

* `notBefore_notBefore`: what a later cursor asks for is a part of what an earlier one asks for;
* `notBefore_behind`: what is asked for behind a page;
* `notBefore_behind_eq_iff`: nothing is left out exactly if no row behind the page shares the time
  of its last row;
* `readPages_eq_take_iff`: a reader of so many pages reads the rows one after the other, as far as
  the pages go, exactly if its pages are clean.
-/

namespace AdviserConstructor

namespace Paging

variable {α : Type*} (time : α → ℤ)

def Ascending (rows : List α) : Prop := rows.Pairwise fun a b => time a ≤ time b

def notBefore (cursor : ℤ) (rows : List α) : List α := rows.filter fun a => cursor ≤ time a

/-- The cursor behind a page that ends with the row. -/
def behind (last : α) : ℤ := time last + 1

variable {time} {rows page rest : List α} {cursor cursor' : ℤ} {a last : α}

@[simp] theorem mem_notBefore : a ∈ notBefore time cursor rows ↔ a ∈ rows ∧ cursor ≤ time a := by
  rw [notBefore, List.mem_filter, decide_eq_true_eq]

theorem Ascending.notBefore (h : Ascending time rows) (cursor : ℤ) :
    Ascending time (Paging.notBefore time cursor rows) :=
  h.sublist List.filter_sublist

/-- What a later cursor asks for is a part of what an earlier one asks for. -/
theorem notBefore_notBefore (h : cursor ≤ cursor') :
    notBefore time cursor' (notBefore time cursor rows) = notBefore time cursor' rows := by
  unfold notBefore
  rw [List.filter_filter]
  refine List.filter_congr fun a _ => ?_
  rw [← Bool.decide_and]
  exact decide_eq_decide.mpr ⟨And.left, fun hlater => ⟨hlater, h.trans hlater⟩⟩

theorem page_le_last (h : Ascending time rows) (hpage : notBefore time cursor rows = page ++ rest)
    (hlast : last ∈ page.getLast?) (ha : a ∈ page) : time a ≤ time last := by
  have hsorted := h.notBefore cursor
  rw [hpage] at hsorted
  obtain ⟨init, rfl⟩ := List.getLast?_eq_some_iff.mp hlast
  rcases List.mem_append.mp ha with hinit | hend
  · exact (List.pairwise_append.mp (List.pairwise_append.mp hsorted).1).2.2 a hinit last
      (List.mem_singleton_self last)
  · rw [List.mem_singleton.mp hend]

theorem cursor_lt_behind (hpage : notBefore time cursor rows = page ++ rest)
    (hlast : last ∈ page.getLast?) : cursor < behind time last := by
  have hmem : last ∈ notBefore time cursor rows :=
    hpage ▸ List.mem_append_left _ (List.mem_of_mem_getLast? hlast)
  exact Int.lt_add_one_of_le (mem_notBefore.mp hmem).2

/-- **What is asked for behind a page**: the rows behind it, less those that share the time of its
last row. -/
theorem notBefore_behind (h : Ascending time rows)
    (hpage : notBefore time cursor rows = page ++ rest) (hlast : last ∈ page.getLast?) :
    notBefore time (behind time last) rows = notBefore time (behind time last) rest := by
  rw [← notBefore_notBefore (cursor_lt_behind hpage hlast).le, hpage]
  have hnone : notBefore time (behind time last) page = [] := by
    refine List.filter_eq_nil_iff.mpr fun a ha => ?_
    have hle := page_le_last h hpage hlast ha
    rw [decide_eq_true_eq, behind]
    omega
  unfold notBefore at hnone ⊢
  rw [List.filter_append, hnone, List.nil_append]

/-- **Nothing is left out behind a page** exactly if no row behind it shares the time of its last
row. -/
theorem notBefore_behind_eq_iff (h : Ascending time rows)
    (hpage : notBefore time cursor rows = page ++ rest) (hlast : last ∈ page.getLast?) :
    notBefore time (behind time last) rows = rest ↔ ∀ a ∈ rest, time a ≠ time last := by
  rw [notBefore_behind h hpage hlast, notBefore, List.filter_eq_self]
  refine forall₂_congr fun a ha => ?_
  -- the rows behind the page are at or past its last row
  have hsorted := h.notBefore cursor
  rw [hpage] at hsorted
  have hle : time last ≤ time a :=
    (List.pairwise_append.mp hsorted).2.2 last (List.mem_of_mem_getLast? hlast) a ha
  rw [decide_eq_true_eq, behind]
  omega

/-! ## Readers of full pages -/

section Readers

variable (time) (rows) (limit : ℕ)

/-- What a reader reads with at most so many pages of `limit` rows: it stops at a page that is not
full, or that does not get past the cursor. -/
def readPages : ℕ → ℤ → List α
  | 0, _ => []
  | pages + 1, cursor =>
      let page := (notBefore time cursor rows).take limit
      match page.getLast? with
      | none => []
      | some last =>
          if page.length < limit ∨ time last ≤ cursor then page
          else page ++ readPages pages (behind time last)

/-- The pages are clean: as long as there is another page to read, a page that has rows behind it
gets past the cursor and does not end among rows of one time. -/
def CleanPages : ℕ → ℤ → Prop
  | 0, _ => True
  | pages + 1, cursor =>
      pages = 0 ∨ (notBefore time cursor rows).drop limit = [] ∨
        ∃ last ∈ ((notBefore time cursor rows).take limit).getLast?,
          cursor < time last ∧ (∀ a ∈ (notBefore time cursor rows).drop limit, time a ≠ time last) ∧
            CleanPages pages (behind time last)

end Readers

variable {limit pages : ℕ}

theorem readPages_of_none (h : ((notBefore time cursor rows).take limit).getLast? = none) :
    readPages time rows limit (pages + 1) cursor = [] := by
  rw [readPages, h]

theorem readPages_of_stop (h : ((notBefore time cursor rows).take limit).getLast? = some last)
    (hstop : ((notBefore time cursor rows).take limit).length < limit ∨ time last ≤ cursor) :
    readPages time rows limit (pages + 1) cursor = (notBefore time cursor rows).take limit := by
  rw [readPages, h]
  exact if_pos hstop

theorem readPages_of_next (h : ((notBefore time cursor rows).take limit).getLast? = some last)
    (hnext : ¬(((notBefore time cursor rows).take limit).length < limit ∨ time last ≤ cursor)) :
    readPages time rows limit (pages + 1) cursor =
      (notBefore time cursor rows).take limit ++
        readPages time rows limit pages (behind time last) := by
  rw [readPages, h]
  exact if_neg hnext

theorem mem_readPages (h : a ∈ readPages time rows limit pages cursor) :
    a ∈ rows ∧ cursor ≤ time a := by
  induction pages generalizing cursor with
  | zero => exact absurd h List.not_mem_nil
  | succ pages ih =>
    cases hlast : ((notBefore time cursor rows).take limit).getLast? with
    | none =>
      rw [readPages_of_none hlast] at h
      cases h
    | some last =>
      have hpage : ∀ b ∈ (notBefore time cursor rows).take limit, b ∈ rows ∧ cursor ≤ time b :=
        fun b hb => mem_notBefore.mp (List.mem_of_mem_take hb)
      by_cases hstop :
          ((notBefore time cursor rows).take limit).length < limit ∨ time last ≤ cursor
      · rw [readPages_of_stop hlast hstop] at h
        exact hpage a h
      · rw [readPages_of_next hlast hstop] at h
        rcases List.mem_append.mp h with hfirst | hrest
        · exact hpage a hfirst
        · obtain ⟨hmem, hle⟩ := ih hrest
          exact ⟨hmem, by unfold behind at hle; omega⟩

theorem readPages_of_drop_eq_nil (hasc : Ascending time rows)
    (h : (notBefore time cursor rows).drop limit = []) (pages : ℕ) :
    readPages time rows limit (pages + 1) cursor = notBefore time cursor rows := by
  have htake : (notBefore time cursor rows).take limit = notBefore time cursor rows :=
    List.take_of_length_le (List.drop_eq_nil_iff.mp h)
  rw [readPages, htake]
  cases hlast : (notBefore time cursor rows).getLast? with
  | none => exact (List.getLast?_eq_none_iff.mp hlast).symm
  | some last =>
    dsimp only
    split
    · rfl
    · -- a full page with nothing behind it: the next one is empty
      have hbehind := notBefore_behind hasc (List.append_nil _).symm hlast
      have hnext : readPages time rows limit pages (behind time last) = [] := by
        refine List.eq_nil_iff_forall_not_mem.mpr fun b hb => ?_
        have hmem := mem_notBefore.mpr (mem_readPages hb)
        rw [hbehind] at hmem
        cases hmem
      rw [hnext, List.append_nil]

theorem readPages_ne_take (hasc : Ascending time rest) (hpages : 0 < pages) (hlimit : 0 < limit)
    (ha : a ∈ rest) (hle : time a ≤ time last) :
    readPages time rows limit pages (behind time last) ≠ rest.take (pages * limit) := by
  intro hread
  cases rest with
  | nil => exact absurd ha List.not_mem_nil
  | cons x tail =>
    have hx : x ∈ (x :: tail).take (pages * limit) := by
      obtain ⟨n, hn⟩ := Nat.exists_eq_succ_of_ne_zero (Nat.mul_pos hpages hlimit).ne'
      rw [hn]
      exact List.mem_cons_self
    have hxle : time x ≤ time a := by
      rcases List.mem_cons.mp ha with rfl | htail
      · exact le_rfl
      · exact (List.pairwise_cons.mp hasc).1 a htail
    rw [← hread] at hx
    have hpast := (mem_readPages hx).2
    unfold behind at hpast
    omega

/-- **The rows are read one after the other** exactly if the pages are clean. -/
theorem readPages_eq_take_iff (hasc : Ascending time rows) (hlimit : 0 < limit) :
    readPages time rows limit pages cursor = (notBefore time cursor rows).take (pages * limit) ↔
      CleanPages time rows limit pages cursor := by
  induction pages generalizing cursor with
  | zero =>
    refine iff_of_true ?_ trivial
    rw [Nat.zero_mul, List.take_zero, readPages]
  | succ pages ih =>
    have hmul : (pages + 1) * limit = limit + pages * limit := by
      rw [Nat.succ_mul, Nat.add_comm]
    by_cases hrest : (notBefore time cursor rows).drop limit = []
    · refine iff_of_true ?_ (Or.inr (Or.inl hrest))
      have hshort := List.drop_eq_nil_iff.mp hrest
      rw [readPages_of_drop_eq_nil hasc hrest, List.take_of_length_le (by omega)]
    · have hlong : limit < (notBefore time cursor rows).length := by
        rw [← not_le]
        exact fun hle => hrest (List.drop_eq_nil_of_le hle)
      have hlength : ((notBefore time cursor rows).take limit).length = limit := by
        rw [List.length_take]
        omega
      have hsplit : notBefore time cursor rows = (notBefore time cursor rows).take limit ++
          (notBefore time cursor rows).drop limit := (List.take_append_drop ..).symm
      have hsorted : Ascending time ((notBefore time cursor rows).drop limit) :=
        (hasc.notBefore cursor).sublist (List.drop_sublist ..)
      obtain ⟨last, hlast⟩ : ∃ last,
          ((notBefore time cursor rows).take limit).getLast? = some last := by
        cases hget : ((notBefore time cursor rows).take limit).getLast? with
        | none =>
          rw [List.getLast?_eq_none_iff.mp hget, List.length_nil] at hlength
          omega
        | some last => exact ⟨last, rfl⟩
      rw [readPages, CleanPages, hlast, hmul, List.take_add]
      dsimp only
      rw [hlength]
      by_cases hzero : pages = 0
      · refine iff_of_true ?_ (Or.inl hzero)
        rw [hzero, Nat.zero_mul, List.take_zero, List.append_nil]
        split
        · rfl
        · exact List.append_nil _
      · by_cases hstuck : time last ≤ cursor
        · rw [if_pos (Or.inr hstuck)]
          refine iff_of_false (fun hread => ?_) ?_
          · have hlengths := congrArg List.length hread
            have hpos : 0 < pages * limit := Nat.mul_pos (Nat.pos_of_ne_zero hzero) hlimit
            simp only [List.length_append, List.length_take, List.length_drop] at hlengths
            omega
          · rintro (hnone | hnone | ⟨last', hlast', hpast, -⟩)
            · exact hzero hnone
            · exact hrest hnone
            · rw [← Option.some.inj hlast'] at hpast
              omega
        · rw [if_neg (not_or.mpr ⟨lt_irrefl _, hstuck⟩), List.append_cancel_left_eq]
          by_cases htie : ∀ a ∈ (notBefore time cursor rows).drop limit, time a ≠ time last
          · have hbehind := (notBefore_behind_eq_iff hasc hsplit hlast).mpr htie
            have hnext := @ih (behind time last)
            rw [hbehind] at hnext
            rw [hnext]
            constructor
            · exact fun hclean => Or.inr (Or.inr ⟨last, rfl, not_le.mp hstuck, htie, hclean⟩)
            · rintro (hnone | hnone | ⟨last', hlast', -, -, hclean⟩)
              · exact absurd hnone hzero
              · exact absurd hnone hrest
              · rw [Option.some.inj hlast']
                exact hclean
          · obtain ⟨b, hb, heq⟩ : ∃ b ∈ (notBefore time cursor rows).drop limit,
                time b = time last := by
              simpa only [not_forall, not_not, exists_prop] using htie
            refine iff_of_false (readPages_ne_take hsorted (Nat.pos_of_ne_zero hzero) hlimit hb
              heq.le) ?_
            rintro (hnone | hnone | ⟨last', hlast', -, hties, -⟩)
            · exact hzero hnone
            · exact hrest hnone
            · rw [← Option.some.inj hlast'] at hties
              exact hties b hb heq

end Paging

end AdviserConstructor
