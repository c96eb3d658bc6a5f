import Mathlib.Data.List.Basic
import Mathlib.Data.List.Nodup
import Mathlib.Order.Lattice

/-!
# Ledgers with a high-water mark

A ledger is filled from offers that are made again and again, of which it takes those that are past
its mark, up to the moment of the offer, and that share the unique key of no row.  The mark then
moves to the latest time that was taken.

`Tracks` says that the rows behind a start are exactly what a reference has up to the clock.  The
reference may be another one at every offer.

* `tracks_ingest_iff`: a ledger that has tracked its reference goes on to do so exactly if what it
  takes is what the new reference has past the mark, and the new reference has kept what the old one
  had up to the mark.
-/

namespace HighWaterMark

variable {α κ τ : Type*} [LinearOrder τ] [DecidableEq κ]

/-- A ledger: its rows, and the latest time that was taken. -/
structure Ledger (α τ : Type*) where
  rows : List α
  mark : τ
  deriving DecidableEq

section

variable (time : α → τ) (key : α → κ)

/-- The offers past the mark, up to the moment of the offer. -/
def pastMark (mark now : τ) (offers : List α) : List α :=
  offers.filter fun a => mark < time a ∧ time a ≤ now

/-- A row is inserted unless its key is taken. -/
def insertNew (rows : List α) (a : α) : List α :=
  if rows.any fun r => key r = key a then rows else rows ++ [a]

/-- The offers that are taken: the first past the mark of each key. -/
def taken (mark now : τ) (offers : List α) : List α :=
  (pastMark time mark now offers).foldl (insertNew key) []

def ingest (now : τ) (offers : List α) (s : Ledger α τ) : Ledger α τ where
  rows := (pastMark time s.mark now offers).foldl (insertNew key) s.rows
  mark := ((pastMark time s.mark now offers).map time).foldl max s.mark

end

variable {time : α → τ} {key : α → κ} {s : Ledger α τ} {mark now start clock : τ}
  {offers rows : List α} {a : α}

/-! ## What is taken -/

theorem mem_pastMark :
    a ∈ pastMark time mark now offers ↔ a ∈ offers ∧ mark < time a ∧ time a ≤ now := by
  rw [pastMark, List.mem_filter, decide_eq_true_eq]

theorem mem_of_mem_foldl_insertNew (as : List α) :
    ∀ {rows : List α}, a ∈ as.foldl (insertNew key) rows → a ∈ rows ∨ a ∈ as := by
  induction as with
  | nil => exact fun h => .inl h
  | cons b as ih =>
    intro rows h
    rcases ih h with hrows | has
    · rw [insertNew] at hrows
      split at hrows
      · exact .inl hrows
      · rcases List.mem_append.mp hrows with hold | hnew
        · exact .inl hold
        · exact .inr (List.mem_singleton.mp hnew ▸ List.mem_cons_self ..)
    · exact .inr (List.mem_cons_of_mem _ has)

theorem mem_pastMark_of_mem_taken (h : a ∈ taken time key mark now offers) :
    a ∈ pastMark time mark now offers :=
  (mem_of_mem_foldl_insertNew _ h).resolve_left List.not_mem_nil

theorem foldl_insertNew_append (as : List α) :
    ∀ {rows front : List α}, (∀ r ∈ front, ∀ b ∈ as, key r ≠ key b) →
      as.foldl (insertNew key) (front ++ rows) = front ++ as.foldl (insertNew key) rows := by
  induction as with
  | nil => exact fun _ => rfl
  | cons b as ih =>
    intro rows front hfront
    have hany : ((front ++ rows).any fun r => key r = key b) =
        rows.any fun r => key r = key b := by
      rw [List.any_append]
      have hnone : (front.any fun r => key r = key b) = false := by
        rw [List.any_eq_false]
        exact fun r hr heq => hfront r hr b (List.mem_cons_self ..) (of_decide_eq_true heq)
      rw [hnone, Bool.false_or]
    have htail : ∀ r ∈ front, ∀ c ∈ as, key r ≠ key c :=
      fun r hr c hc => hfront r hr c (List.mem_cons_of_mem _ hc)
    rw [List.foldl_cons, List.foldl_cons, insertNew, insertNew, hany]
    split
    · exact ih htail
    · rw [List.append_assoc]
      exact ih htail

theorem rows_ingest (hkey : ∀ a b, key a = key b → time a = time b)
    (hrows : ∀ r ∈ s.rows, time r ≤ s.mark) :
    (ingest time key now offers s).rows =
      s.rows ++ taken time key s.mark now offers := by
  have hfree : ∀ r ∈ s.rows, ∀ b ∈ pastMark time s.mark now offers, key r ≠ key b := by
    intro r hr b hb heq
    have hlt := (mem_pastMark.mp hb).2.1
    rw [← hkey r b heq] at hlt
    exact absurd (hrows r hr) (not_le.mpr hlt)
  have happend : (pastMark time s.mark now offers).foldl (insertNew key) (s.rows ++ []) =
      s.rows ++ taken time key s.mark now offers := foldl_insertNew_append _ hfree
  rwa [List.append_nil] at happend

theorem nodup_foldl_insertNew (as : List α) :
    ∀ {rows : List α}, (rows.map key).Nodup → ((as.foldl (insertNew key) rows).map key).Nodup := by
  induction as with
  | nil => exact fun h => h
  | cons b as ih =>
    intro rows h
    refine ih ?_
    rw [insertNew]
    split
    · exact h
    · rename_i hany
      rw [List.map_append, List.nodup_append']
      refine ⟨h, List.nodup_singleton _, fun k hk hb => ?_⟩
      obtain ⟨r, hr, rfl⟩ := List.mem_map.mp hk
      have heq : key r = key b := List.mem_singleton.mp hb
      exact hany (List.any_eq_true.mpr ⟨r, hr, decide_eq_true heq⟩)

theorem taken_map {β κ' : Type*} [DecidableEq κ'] {f : α → β} {time' : β → τ} {key' : β → κ'}
    (htime : ∀ a, time' (f a) = time a) (hkey : ∀ a b, key' (f a) = key' (f b) ↔ key a = key b)
    (offers : List α) :
    taken time' key' mark now (offers.map f) = (taken time key mark now offers).map f := by
  have hpast : pastMark time' mark now (offers.map f) = (pastMark time mark now offers).map f := by
    rw [pastMark, List.filter_map]
    refine congrArg _ (List.filter_congr fun a _ => ?_)
    rw [Function.comp_apply, htime]
  have hfold : ∀ as rows : List α,
      (as.map f).foldl (insertNew key') (rows.map f) = (as.foldl (insertNew key) rows).map f := by
    intro as
    induction as with
    | nil => exact fun _ => rfl
    | cons b as ih =>
      intro rows
      have hinsert : insertNew key' (rows.map f) (f b) = (insertNew key rows b).map f := by
        have hany : ((rows.map f).any fun r => key' r = key' (f b)) =
            rows.any fun r => key r = key b := by
          rw [List.any_map]
          congr 1
          funext r
          exact decide_eq_decide.mpr (hkey r b)
        rw [insertNew, insertNew, hany]
        split
        · rfl
        · rw [List.map_append, List.map_singleton]
      rw [List.map_cons, List.foldl_cons, hinsert]
      exact ih _
  rw [taken, hpast]
  exact hfold _ []

/-! ## The mark -/

theorem le_foldl_max (ts : List τ) : ∀ m : τ, m ≤ ts.foldl max m := by
  induction ts with
  | nil => exact le_refl
  | cons t ts ih => exact fun m => (le_max_left m t).trans (ih _)

theorem le_foldl_max_of_mem (ts : List τ) : ∀ (m : τ), ∀ t ∈ ts, t ≤ ts.foldl max m := by
  induction ts with
  | nil => exact fun _ _ h => absurd h List.not_mem_nil
  | cons t ts ih =>
    intro m u hu
    rcases List.mem_cons.mp hu with rfl | htail
    · exact (le_max_right m u).trans (le_foldl_max ts _)
    · exact ih _ u htail

theorem foldl_max_le (ts : List τ) :
    ∀ {m b : τ}, m ≤ b → (∀ t ∈ ts, t ≤ b) → ts.foldl max m ≤ b := by
  induction ts with
  | nil => exact fun hm _ => hm
  | cons t ts ih =>
    exact fun hm ht => ih (max_le hm (ht t (List.mem_cons_self ..)))
      fun u hu => ht u (List.mem_cons_of_mem _ hu)

/-- The order of a ledger: its rows are up to its mark, which is between its start and the clock. -/
structure InOrder (time : α → τ) (start clock : τ) (s : Ledger α τ) : Prop where
  rows : ∀ r ∈ s.rows, time r ≤ s.mark
  start : start ≤ s.mark
  clock : s.mark ≤ clock

theorem InOrder.ingest (h : InOrder time start clock s) (hnow : clock ≤ now) :
    InOrder time start now (HighWaterMark.ingest time key now offers s) where
  rows := by
    intro r hr
    rcases mem_of_mem_foldl_insertNew _ hr with hold | hnew
    · exact (h.rows r hold).trans (le_foldl_max _ _)
    · exact le_foldl_max_of_mem _ _ _ (List.mem_map_of_mem hnew)
  start := h.start.trans (le_foldl_max _ _)
  clock := by
    refine foldl_max_le _ (h.clock.trans hnow) fun t ht => ?_
    obtain ⟨a, ha, rfl⟩ := List.mem_map.mp ht
    exact (mem_pastMark.mp ha).2.2

/-! ## Tracking a reference -/

/-- The rows behind the start are what the reference has up to the clock. -/
def Tracks (time : α → τ) (start clock : τ) (ref : α → Prop) (s : Ledger α τ) : Prop :=
  ∀ a, a ∈ s.rows ∧ start < time a ↔ ref a ∧ start < time a ∧ time a ≤ clock

/-- **Tracking.**  A ledger that has tracked `ref` tracks `ref'` behind an offer exactly if it takes
what `ref'` has past the mark, and `ref'` has kept what `ref` had up to it. -/
theorem tracks_ingest_iff {ref ref' : α → Prop} (hkey : ∀ a b, key a = key b → time a = time b)
    (horder : InOrder time start clock s) (hnow : clock ≤ now)
    (h : Tracks time start clock ref s) :
    Tracks time start now ref' (ingest time key now offers s) ↔
      (∀ a, s.mark < time a → time a ≤ now →
        (a ∈ taken time key s.mark now offers ↔ ref' a)) ∧
      ∀ a, start < time a → time a ≤ s.mark → (ref' a ↔ ref a) := by
  have hrows : (ingest time key now offers s).rows = s.rows ++ taken time key s.mark now offers :=
    rows_ingest hkey horder.rows
  constructor
  · intro htracks
    refine ⟨fun a hmark hle => ⟨fun ha => ?_, fun ha => ?_⟩, fun a hstart hmark => ?_⟩
    · have hmem : a ∈ (ingest time key now offers s).rows := by
        rw [hrows]
        exact List.mem_append_right _ ha
      exact ((htracks a).mp ⟨hmem, horder.start.trans_lt hmark⟩).1
    · have hmem := ((htracks a).mpr ⟨ha, horder.start.trans_lt hmark, hle⟩).1
      rw [hrows] at hmem
      refine (List.mem_append.mp hmem).resolve_left fun hold => ?_
      exact absurd (horder.rows a hold) (not_le.mpr hmark)
    · have hsplit : a ∈ (ingest time key now offers s).rows ↔ a ∈ s.rows := by
        rw [hrows, List.mem_append]
        refine or_iff_left fun hnew => ?_
        have hpast := (mem_pastMark.mp (mem_pastMark_of_mem_taken hnew)).2.1
        exact absurd hmark (not_le.mpr hpast)
      have hclock := hmark.trans horder.clock
      constructor
      · intro href
        have hmem := ((htracks a).mpr ⟨href, hstart, hclock.trans hnow⟩).1
        exact ((h a).mp ⟨hsplit.mp hmem, hstart⟩).1
      · intro href
        have hmem := ((h a).mpr ⟨href, hstart, hclock⟩).1
        exact ((htracks a).mp ⟨hsplit.mpr hmem, hstart⟩).1
  · rintro ⟨hnews, hsettled⟩ a
    rw [hrows, List.mem_append]
    constructor
    · rintro ⟨hold | hnew, hstart⟩
      · obtain ⟨href, -, hle⟩ := (h a).mp ⟨hold, hstart⟩
        exact ⟨(hsettled a hstart (horder.rows a hold)).mpr href, hstart, hle.trans hnow⟩
      · obtain ⟨-, hmark, hle⟩ := mem_pastMark.mp (mem_pastMark_of_mem_taken hnew)
        exact ⟨(hnews a hmark hle).mp hnew, hstart, hle⟩
    · rintro ⟨href, hstart, hle⟩
      refine ⟨?_, hstart⟩
      rcases le_or_gt (time a) s.mark with hmark | hmark
      · have href' := (hsettled a hstart hmark).mp href
        exact .inl ((h a).mpr ⟨href', hstart, hmark.trans horder.clock⟩).1
      · exact .inr ((hnews a hmark hle).mpr href)

end HighWaterMark
