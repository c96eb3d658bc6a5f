import AdviserConstructor.Library.Paging

/-!
# Reading a log that grows

A log that is only added to at its end, with ascending numbers, is read page by page: a request asks
for the first entries behind the number of the last one that was read, and the log may have grown
since the request before it.  The reader stops at a page that is empty.

* `Reads.eq_newer`: however it grows and the pages are cut, the reader has the whole log at the end.
-/

namespace AdviserConstructor

namespace GrowingLog

variable {α : Type*} (number : α → ℤ)

def newer (last : ℤ) (log : List α) : List α := log.filter fun a => last < number a

/-- A reader that goes on behind a number reads `rows` of a log that has come to be `final`. -/
inductive Reads : List α → ℤ → List α → List α → Prop
  | done {log : List α} {last : ℤ} : newer number last log = [] → Reads log last [] log
  | page {log log' final page rows : List α} {last : ℤ} {a : α} :
      page <+: newer number last log → page.getLast? = some a → log <+: log' →
        Reads log' (number a) rows final → Reads log last (page ++ rows) final

variable {number} {log final rows page : List α} {last : ℤ} {a : α}

theorem newer_mono (h : log <+: final) : newer number last log <+: newer number last final :=
  h.filter _

theorem Reads.grows (h : Reads number log last rows final) : log <+: final := by
  induction h with
  | done _ => exact List.prefix_refl _
  | page _ _ hgrows _ ih => exact hgrows.trans ih

theorem newer_behind {rest : List α} (hlog : final.Pairwise fun a b => number a < number b)
    (hpage : newer number last final = page ++ rest) (ha : page.getLast? = some a) :
    newer number (number a) final = rest := by
  have hascending : Paging.Ascending number final := hlog.imp fun hlt => hlt.le
  refine (Paging.notBefore_behind_eq_iff hascending hpage ha).mpr fun b hb => ?_
  have hsorted : (page ++ rest).Pairwise fun a b => number a < number b :=
    hpage ▸ hlog.sublist List.filter_sublist
  exact ((List.pairwise_append.mp hsorted).2.2 a (List.mem_of_mem_getLast? ha) b hb).ne'

/-- **A reader has the whole log at the end.** -/
theorem Reads.eq_newer (h : Reads number log last rows final)
    (hlog : final.Pairwise fun a b => number a < number b) :
    rows = newer number last final := by
  induction h with
  | done hnone => exact hnone.symm
  | page hpage ha hgrows hrest ih =>
    -- the page is a front part of what is behind the number in the log as it comes to be
    obtain ⟨rest, hrest'⟩ := hpage.trans (newer_mono (hgrows.trans hrest.grows))
    rw [ih hlog, newer_behind hlog hrest'.symm ha, hrest']

end GrowingLog

end AdviserConstructor
