import AdviserConstructor.Library.FixedWindow
import AdviserConstructor.Library.Slots
import AdviserConstructor.Library.StepSystem

/-!
# The rate limiter

`check_rate_limit` of `app/core/ratelimit.py`, which throttles the sign-ins: a counter in Redis,
incremented by every call, and an expiry that is set by the call that has made the counter.  The two
commands are sent one after the other.  In between Redis may be lost, and the worker may die; other
calls may come in as well.  A call that does not hear from Redis is allowed, whether or not its
command has been run.

The keys do not concern one another, so this is one of them.  What is kept besides the counter are
the calls that have made one, what has been decided, and when each counter was made.

* `limitSound_step`: what holds of the counter and of what has been decided.
* `slidingLimit_of_run`: **less than twice the limit** is allowed of the calls that Redis has
  answered, in any stretch of a window's length.
* `refusesForGood_of_run`: a key refuses for good exactly if the limit is reached, the counter has
  no expiry and no call is about to set it; then the call that has made the counter is lost.
-/

namespace AdviserConstructor

namespace Auth

namespace RateLimit

/-- A key of Redis. -/
structure Counter where
  count : ℕ
  expiresAt : Option ℤ := none
  deriving DecidableEq, Repr

/-- How far a call has come that has made the counter. -/
inductive LimitCall
  /-- the expiry is still to be set: when the counter was made, and which one it is -/
  | expiring (time : ℤ) (window : ℕ)
  | returned
  | lost
  deriving DecidableEq, Repr

/-- What a call has decided: when it was counted, by which counter if it knows the count, and
whether it has made that counter. -/
structure Decision where
  time : ℤ
  window : Option ℕ
  opening : Bool
  allowed : Bool
  deriving DecidableEq, Repr

/-- What a call returns that has not heard from Redis. -/
def Decision.unavailable (time : ℤ) : Decision := ⟨time, none, false, true⟩

/-- The call is allowed and knows its count. -/
def Decision.granted (d : Decision) : Bool := d.allowed && d.window.isSome

/-- The counter that has counted the call. -/
def Decision.place (d : Decision) : ℕ := d.window.getD 0

/-- The key, the calls that have made its counters, and what has been decided. -/
structure KeyLimit where
  now : ℤ := 0
  counter : Option Counter := none
  calls : List LimitCall := []
  decisions : List Decision := []
  starts : List ℤ := []
  deriving DecidableEq, Repr

/-- One move of the clock or of a call. -/
inductive LimitStep
  | pass (seconds : ℕ)
  /-- `INCR` -/
  | check
  /-- `INCR` is run, and the answer is lost -/
  | unheard
  /-- `INCR` does not reach Redis -/
  | unreachable
  /-- `EXPIRE`, whose answer may be lost -/
  | expire (call : ℕ) (heard : Bool)
  /-- `EXPIRE` does not reach Redis -/
  | fail (call : ℕ)
  /-- the worker dies before `EXPIRE` -/
  | die (call : ℕ)
  deriving DecidableEq, Repr

/-- The counter that a call waits for to be given its expiry. -/
def LimitCall.awaits : LimitCall → Option ℕ
  | .expiring _ window => some window
  | _ => none

namespace KeyLimit

/-- The counter as Redis has it: one that has expired is gone. -/
def live (s : KeyLimit) : Option Counter :=
  s.counter.filter fun c => c.expiresAt.all fun e => decide (s.now < e)

def advance (limit window : ℕ) (s : KeyLimit) : LimitStep → Option KeyLimit
  | .pass seconds => some { s with now := s.now + seconds }
  | .check =>
      match s.live with
      | some c =>
          some { s with
            counter := some { c with count := c.count + 1 }
            decisions := s.decisions ++
              [⟨s.now, some (s.starts.length - 1), false, decide (c.count + 1 ≤ limit)⟩] }
      | none =>
          some { s with
            counter := some { count := 1 }
            calls := s.calls ++ [.expiring s.now s.starts.length]
            starts := s.starts ++ [s.now] }
  | .unheard =>
      match s.live with
      | some c =>
          some { s with
            counter := some { c with count := c.count + 1 }
            decisions := s.decisions ++ [.unavailable s.now] }
      | none =>
          some { s with
            counter := some { count := 1 }
            calls := s.calls ++ [.lost]
            decisions := s.decisions ++ [.unavailable s.now]
            starts := s.starts ++ [s.now] }
  | .unreachable => some { s with decisions := s.decisions ++ [.unavailable s.now] }
  | .expire i heard =>
      match s.calls[i]? with
      | some (.expiring time w) =>
          some { s with
            counter := s.live.map fun c => { c with expiresAt := some (s.now + window) }
            calls := s.calls.set i .returned
            decisions := s.decisions ++ [⟨time, some w, true, !heard || decide (1 ≤ limit)⟩] }
      | _ => none
  | .fail i =>
      match s.calls[i]? with
      | some (.expiring time w) =>
          some { s with
            calls := s.calls.set i .lost
            decisions := s.decisions ++ [⟨time, some w, true, true⟩] }
      | _ => none
  | .die i =>
      match s.calls[i]? with
      | some (.expiring _ _) => some { s with calls := s.calls.set i .lost }
      | _ => none

/-- How many calls behind the one that has made it a counter has allowed. -/
def later (s : KeyLimit) (i : ℕ) : ℕ :=
  s.decisions.countP fun d => d.granted && !d.opening && decide (d.place = i)

/-- Whether the call that has made the counter has been allowed. -/
def opened (s : KeyLimit) (i : ℕ) : ℕ :=
  s.decisions.countP fun d => d.granted && d.opening && decide (d.place = i)

/-- Whether that call is about to be. -/
def awaiting (s : KeyLimit) (i : ℕ) : ℕ :=
  s.calls.countP fun call => decide (call.awaits = some i)

/-- How many calls were allowed that know their count, and that were counted in a stretch of a
length. -/
def grantedIn (s : KeyLimit) (since : ℤ) (length : ℕ) : ℕ :=
  s.decisions.countP fun d => d.granted && decide (since ≤ d.time ∧ d.time < since + length)

/-! ## The invariant -/

/-- What holds of the counter, of the calls that have made one and of what has been decided. -/
structure LimitSound (limit window : ℕ) (s : KeyLimit) : Prop where
  clock : ∀ start ∈ s.starts, start ≤ s.now
  spaced : s.starts.Pairwise fun a b : ℤ => a + (window : ℤ) ≤ b
  pending : ∀ {i : ℕ} {time : ℤ} {w : ℕ}, s.calls[i]? = some (.expiring time w) →
    w + 1 = s.starts.length ∧ s.starts[w]? = some time ∧ ∃ n, s.counter = some ⟨n, none⟩
  last : ∀ {i : ℕ} {time : ℤ} {w : ℕ}, s.calls[i]? = some (.expiring time w) →
    i + 1 = s.calls.length
  fresh : s.counter = none → s.starts = []
  expiry : ∀ {c : Counter} {e : ℤ}, s.counter = some c → c.expiresAt = some e →
    ∀ start ∈ s.starts, start + window ≤ e
  counted : ∀ {c : Counter}, s.counter = some c →
    s.starts ≠ [] ∧ s.later (s.starts.length - 1) < c.count
  limited : ∀ i, s.later i < max 1 limit
  opening : ∀ i, s.opened i + s.awaiting i ≤ 1
  timed : ∀ d ∈ s.decisions, ∀ i, d.window = some i → d.time ≤ s.now ∧
    ∃ start, s.starts[i]? = some start ∧ start ≤ d.time ∧ (d.opening = true → d.time = start) ∧
      ∀ next, s.starts[i + 1]? = some next → d.time ≤ next
  unset : ∀ {n : ℕ}, s.counter = some ⟨n, none⟩ →
    (∃ (i : ℕ) (time : ℤ) (w : ℕ), s.calls[i]? = some (LimitCall.expiring time w)) ∨
      s.calls.getLast? = some LimitCall.lost

section

variable {limit window : ℕ} {s s' t : KeyLimit} {a : LimitStep} {i : ℕ}

theorem limitSound_initial (now : ℤ) : LimitSound limit window { now := now } where
  clock _ h := absurd h List.not_mem_nil
  spaced := List.Pairwise.nil
  pending h := nomatch h
  last h := nomatch h
  fresh _ := rfl
  expiry h := nomatch h
  counted h := nomatch h
  limited _ := Nat.lt_of_lt_of_le Nat.zero_lt_one (Nat.le_max_left ..)
  opening _ := Nat.zero_le _
  timed _ h := absurd h List.not_mem_nil
  unset h := nomatch h

theorem live_eq_some {c : Counter} (h : s.live = some c) :
    s.counter = some c ∧ ∀ e, c.expiresAt = some e → s.now < e := by
  obtain ⟨hcounter, hall⟩ := Option.filter_eq_some_iff.mp h
  refine ⟨hcounter, fun e he => ?_⟩
  rw [he] at hall
  exact of_decide_eq_true hall

theorem live_of_unset {n : ℕ} (h : s.counter = some ⟨n, none⟩) : s.live = some ⟨n, none⟩ := by
  rw [live, h]
  rfl

theorem LimitSound.expired (hs : LimitSound limit window s) (h : s.live = none) :
    ∀ start ∈ s.starts, start + window ≤ s.now := by
  intro start hstart
  cases hcounter : s.counter with
  | none =>
    rw [hs.fresh hcounter] at hstart
    cases hstart
  | some c =>
    rw [live, hcounter, Option.filter_some] at h
    split at h
    · cases h
    · next hnot =>
      cases hexpiry : c.expiresAt with
      | none =>
        rw [hexpiry] at hnot
        exact absurd rfl hnot
      | some e =>
        rw [hexpiry, Option.all_some, decide_eq_true_iff] at hnot
        have := hs.expiry hcounter hexpiry start hstart
        omega

theorem LimitSound.none_pending (hs : LimitSound limit window s) (h : s.live = none) {time : ℤ}
    {w : ℕ} : s.calls[i]? ≠ some (.expiring time w) := by
  intro hi
  obtain ⟨-, -, n, hcounter⟩ := hs.pending hi
  rw [live_of_unset hcounter] at h
  cases h

theorem LimitSound.not_place (hs : LimitSound limit window s) {d : Decision}
    (hd : d ∈ s.decisions) (hgranted : d.granted = true) : d.place ≠ s.starts.length := by
  intro hplace
  rw [Decision.granted, Bool.and_eq_true, Option.isSome_iff_exists] at hgranted
  obtain ⟨-, i, hi⟩ := hgranted
  rw [Decision.place, hi, Option.getD_some] at hplace
  obtain ⟨-, start, hstart, -⟩ := hs.timed d hd i hi
  have := List.lt_length_of_getElem? hstart
  omega

theorem LimitSound.later_new (hs : LimitSound limit window s) : s.later s.starts.length = 0 := by
  refine List.countP_eq_zero.mpr fun d hd h => ?_
  rw [Bool.and_eq_true, Bool.and_eq_true, decide_eq_true_iff] at h
  exact hs.not_place hd h.1.1 h.2

theorem LimitSound.opened_new (hs : LimitSound limit window s) : s.opened s.starts.length = 0 := by
  refine List.countP_eq_zero.mpr fun d hd h => ?_
  rw [Bool.and_eq_true, Bool.and_eq_true, decide_eq_true_iff] at h
  exact hs.not_place hd h.1.1 h.2

theorem LimitSound.awaiting_none (hs : LimitSound limit window s) (h : s.live = none) (i : ℕ) :
    s.awaiting i = 0 := by
  refine List.countP_eq_zero.mpr fun call hcall hawaits => ?_
  obtain ⟨j, hj⟩ := List.mem_iff_getElem?.mp hcall
  cases call with
  | expiring time w => exact hs.none_pending h hj
  | returned => exact absurd (of_decide_eq_true hawaits) nofun
  | lost => exact absurd (of_decide_eq_true hawaits) nofun

/-! ## What a step preserves -/

theorem LimitSound.made (hs : LimitSound limit window s) (h : s.live = none) {call : LimitCall}
    (hcall : call = .expiring s.now s.starts.length ∨ call = .lost) :
    LimitSound limit window { s with
      counter := some { count := 1 }
      calls := s.calls ++ [call]
      starts := s.starts ++ [s.now] } := by
  have hlast : (s.calls ++ [call])[s.calls.length]? = some call := List.getElem?_concat_length
  have hnew : ∀ {j : ℕ} {time : ℤ} {w : ℕ}, (s.calls ++ [call])[j]? = some (.expiring time w) →
      j = s.calls.length ∧ call = .expiring time w := by
    intro j time w hj
    rcases List.getElem?_concat_eq_some_iff.mp hj with hold | hnew
    · exact absurd hold (hs.none_pending h)
    · exact hnew
  refine ⟨?_, ?_, ?_, ?_, nofun, ?_, ?_, hs.limited, ?_, ?_, ?_⟩
  · intro start hstart
    rcases List.mem_append.mp hstart with hold | hlast
    · exact hs.clock start hold
    · exact Int.le_of_eq (List.mem_singleton.mp hlast)
  · refine List.pairwise_append.mpr ⟨hs.spaced, List.pairwise_singleton .., ?_⟩
    intro a ha b hb
    rw [List.mem_singleton.mp hb]
    exact hs.expired h a ha
  · intro j time w hj
    obtain ⟨rfl, hexpiring⟩ := hnew hj
    rcases hcall with rfl | rfl
    · cases hexpiring
      exact ⟨by rw [List.length_append, List.length_singleton], List.getElem?_concat_length, 1, rfl⟩
    · cases hexpiring
  · intro j _ _ hj
    rw [(hnew hj).1, List.length_append, List.length_singleton]
  · intro c e hc he
    rw [← Option.some.inj hc] at he
    cases he
  · intro c hc
    rw [← Option.some.inj hc]
    refine ⟨List.concat_ne_nil _ _, ?_⟩
    rw [List.length_append, List.length_singleton]
    exact Nat.lt_of_le_of_lt (Nat.le_of_eq hs.later_new) Nat.zero_lt_one
  · intro j
    change s.opened j + (s.calls ++ [call]).countP _ ≤ 1
    have hnone := hs.awaiting_none h j
    rw [awaiting] at hnone
    rw [List.countP_append, hnone, List.countP_singleton]
    rcases hcall with rfl | rfl
    · split
      · next hj =>
        obtain rfl : s.starts.length = j := Option.some.inj (of_decide_eq_true hj)
        rw [hs.opened_new]
      · have := hs.opening j
        omega
    · have := hs.opening j
      rw [if_neg fun hawaits => nomatch of_decide_eq_true hawaits]
      omega
  · intro d hd j hj
    obtain ⟨hnow, start, hstart, hle, hopening, hnext⟩ := hs.timed d hd j hj
    refine ⟨hnow, start, ?_, hle, hopening, fun next hget => ?_⟩
    · rw [List.getElem?_append_left (List.lt_length_of_getElem? hstart)]
      exact hstart
    · rcases Nat.lt_or_ge (j + 1) s.starts.length with hlt | hge
      · rw [List.getElem?_append_left hlt] at hget
        exact hnext next hget
      · have hmem := List.mem_of_getElem? (List.getElem?_append_right hge ▸ hget)
        rw [List.mem_singleton.mp hmem]
        exact hnow
  · intro n _
    rcases hcall with rfl | rfl
    · exact .inl ⟨s.calls.length, s.now, s.starts.length, hlast⟩
    · exact .inr List.getLast?_concat

theorem LimitSound.hit (hs : LimitSound limit window s) {c : Counter} (h : s.live = some c) :
    LimitSound limit window { s with counter := some { c with count := c.count + 1 } } := by
  have hcounter := (live_eq_some h).1
  refine ⟨hs.clock, hs.spaced, ?_, hs.last, nofun, ?_, ?_, hs.limited, hs.opening, hs.timed, ?_⟩
  · intro j time w hj
    obtain ⟨hlen, hget, n, hn⟩ := hs.pending hj
    obtain rfl := Option.some.inj (hcounter.symm.trans hn)
    exact ⟨hlen, hget, n + 1, rfl⟩
  · intro c' e hc' he
    rw [← Option.some.inj hc'] at he
    exact hs.expiry hcounter he
  · intro c' hc'
    rw [← Option.some.inj hc']
    exact ⟨(hs.counted hcounter).1, Nat.lt_succ_of_lt (hs.counted hcounter).2⟩
  · intro n hn
    refine hs.unset (n := c.count) (hcounter.trans ?_)
    have hexpiry : c.expiresAt = none := congrArg Counter.expiresAt (Option.some.inj hn)
    rw [← hexpiry]

theorem LimitSound.unavailable (hs : LimitSound limit window s) (time : ℤ) :
    LimitSound limit window { s with decisions := s.decisions ++ [.unavailable time] } := by
  have hlater : ∀ i, (s.decisions ++ [Decision.unavailable time]).countP
      (fun d => d.granted && !d.opening && decide (d.place = i)) = s.later i := fun i => by
    rw [List.countP_append]
    rfl
  have hopened : ∀ i, (s.decisions ++ [Decision.unavailable time]).countP
      (fun d => d.granted && d.opening && decide (d.place = i)) = s.opened i := fun i => by
    rw [List.countP_append]
    rfl
  refine ⟨hs.clock, hs.spaced, hs.pending, hs.last, hs.fresh, hs.expiry, ?_, ?_, ?_, ?_,
    hs.unset⟩
  · intro c hc
    refine ⟨(hs.counted hc).1, ?_⟩
    rw [later, hlater]
    exact (hs.counted hc).2
  · intro j
    rw [later, hlater]
    exact hs.limited j
  · intro j
    rw [opened, hopened]
    exact hs.opening j
  · intro d hd j hj
    rcases List.mem_append.mp hd with hold | hlast
    · exact hs.timed d hold j hj
    · rw [List.mem_singleton.mp hlast] at hj
      cases hj

/-- A call that has made a counter has done: it has given the counter its expiry, or that is
lost.  What it has decided, if anything, is of its own counter. -/
theorem LimitSound.settle (hs : LimitSound limit window s) {time : ℤ} {w n : ℕ}
    (hi : s.calls[i]? = some (.expiring time w)) (hn : s.counter = some ⟨n, none⟩)
    {counter : Option Counter} {call : LimitCall} {decided : List Decision}
    (hcall : counter = some ⟨n, some (s.now + window)⟩ ∧ call = .returned ∨
      counter = s.counter ∧ call = .lost)
    (hdecided : decided = [] ∨ ∃ allowed, decided = [⟨time, some w, true, allowed⟩]) :
    LimitSound limit window { s with
      counter := counter
      calls := s.calls.set i call
      decisions := s.decisions ++ decided } := by
  have hnot : call.awaits = none := by
    rcases hcall with ⟨-, rfl⟩ | ⟨-, rfl⟩ <;> rfl
  have hnone : ∀ {j : ℕ} {time' : ℤ} {w' : ℕ},
      (s.calls.set i call)[j]? ≠ some (.expiring time' w') := by
    intro j time' w' hj
    rw [List.getElem?_set] at hj
    split at hj
    · split at hj
      · rw [Option.some.inj hj] at hnot
        cases hnot
      · cases hj
    · next hne =>
      have hlast := hs.last hi
      have := hs.last hj
      exact hne (by omega)
  obtain ⟨hlast, hstart, -⟩ := hs.pending hi
  have hlater : ∀ j, (s.decisions ++ decided).countP
      (fun d => d.granted && !d.opening && decide (d.place = j)) = s.later j := by
    intro j
    rw [List.countP_append]
    rcases hdecided with rfl | ⟨allowed, rfl⟩
    · rfl
    · cases allowed <;> rfl
  have hcount : ∃ c, counter = some c ∧ c.count = n := by
    rcases hcall with ⟨rfl, -⟩ | ⟨rfl, -⟩
    · exact ⟨_, rfl, rfl⟩
    · exact ⟨_, hn, rfl⟩
  refine ⟨hs.clock, hs.spaced, fun hj => absurd hj hnone, fun hj => absurd hj hnone, ?_, ?_, ?_, ?_,
    ?_, ?_, ?_⟩
  · intro hfresh
    obtain ⟨c, hc, -⟩ := hcount
    exact absurd (hc.symm.trans hfresh) nofun
  · intro c e hc he start hmem
    rcases hcall with ⟨rfl, -⟩ | ⟨rfl, -⟩
    · rw [← Option.some.inj hc] at he
      have := hs.clock start hmem
      have := Option.some.inj he
      omega
    · exact hs.expiry hc he start hmem
  · intro c hc
    obtain ⟨c', hc', hsame⟩ := hcount
    obtain rfl := Option.some.inj (hc.symm.trans hc')
    refine ⟨(hs.counted hn).1, ?_⟩
    rw [later, hlater, hsame]
    exact (hs.counted hn).2
  · intro j
    rw [later, hlater]
    exact hs.limited j
  · intro j
    have hold := hs.opening j
    have hset := List.countP_set_add (a := call)
      (p := fun call : LimitCall => decide (call.awaits = some j)) hi
    rw [hnot, LimitCall.awaits] at hset
    change (s.decisions ++ decided).countP _ + (s.calls.set i call).countP _ ≤ 1
    rw [opened, awaiting] at hold
    rw [List.countP_append]
    have hone : decided.countP (fun d => d.granted && d.opening && decide (d.place = j)) ≤
        if decide (some w = some j) = true then 1 else 0 := by
      rcases hdecided with rfl | ⟨allowed, rfl⟩
      · exact Nat.zero_le _
      · rw [List.countP_singleton]
        by_cases hj : w = j
        · rw [if_pos (decide_eq_true (congrArg some hj))]
          split <;> omega
        · rw [if_neg fun h => hj (of_decide_eq_true (Bool.and_eq_true _ _ ▸ h).2)]
          exact Nat.zero_le _
    rw [if_neg (show ¬decide ((none : Option ℕ) = some j) = true from fun h =>
      nomatch of_decide_eq_true h)] at hset
    omega
  · intro d hd j hj
    rcases List.mem_append.mp hd with hmem | hmem
    · exact hs.timed d hmem j hj
    · rcases hdecided with rfl | ⟨allowed, rfl⟩
      · cases hmem
      · obtain rfl := List.mem_singleton.mp hmem
        obtain rfl := Option.some.inj hj
        refine ⟨hs.clock time (List.mem_of_getElem? hstart), time, hstart, Int.le_refl _,
          fun _ => rfl, fun next hnext => ?_⟩
        rw [List.getElem?_eq_none (Nat.le_of_eq hlast.symm)] at hnext
        cases hnext
  · intro m hm
    rcases hcall with ⟨rfl, -⟩ | ⟨-, rfl⟩
    · cases hm
    · refine .inr ?_
      rw [List.getLast?_eq_getElem?, List.length_set, ← hs.last hi, Nat.add_sub_cancel,
        List.getElem?_set_self (List.lt_length_of_getElem? hi)]

/-- **What holds of a key**, whatever its calls and Redis do. -/
theorem limitSound_step (hs : LimitSound limit window s) (h : s.advance limit window a = some s') :
    LimitSound limit window s' := by
  cases a with
  | pass seconds =>
    obtain rfl := Option.some.inj h
    have hlater : s.now ≤ s.now + seconds := by omega
    refine { hs with clock := fun start hstart => ?_, timed := fun d hd j hj => ?_ }
    · exact Int.le_trans (hs.clock start hstart) hlater
    · exact ⟨Int.le_trans (hs.timed d hd j hj).1 hlater, (hs.timed d hd j hj).2⟩
  | check =>
    rw [advance] at h
    cases hlive : s.live with
    | none =>
      rw [hlive] at h
      exact Option.some.inj h ▸ hs.made hlive (.inl rfl)
    | some c =>
      rw [hlive] at h
      obtain rfl := Option.some.inj h
      have hhit := hs.hit hlive
      have hcounted := hs.counted (live_eq_some hlive).1
      have hlater : ∀ j, (s.decisions ++ [(⟨s.now, some (s.starts.length - 1), false,
            decide (c.count + 1 ≤ limit)⟩ : Decision)]).countP
          (fun d => d.granted && !d.opening && decide (d.place = j)) =
          s.later j + if c.count + 1 ≤ limit ∧ s.starts.length - 1 = j then 1 else 0 := by
        intro j
        rw [List.countP_append, List.countP_singleton]
        congr 1
        refine if_congr ?_ rfl rfl
        rw [Decision.granted, Bool.and_eq_true, Bool.and_eq_true, Bool.and_eq_true,
          decide_eq_true_iff, decide_eq_true_iff]
        exact ⟨fun h => ⟨h.1.1.1, h.2⟩, fun h => ⟨⟨⟨h.1, rfl⟩, rfl⟩, h.2⟩⟩
      have hopened : ∀ j, (s.decisions ++ [(⟨s.now, some (s.starts.length - 1), false,
            decide (c.count + 1 ≤ limit)⟩ : Decision)]).countP
          (fun d => d.granted && d.opening && decide (d.place = j)) = s.opened j := by
        intro j
        rw [List.countP_append, List.countP_singleton, if_neg]
        · rfl
        · intro h
          rw [Bool.and_eq_true, Bool.and_eq_true] at h
          exact Bool.false_ne_true h.1.2
      refine { hhit with counted := ?_, limited := ?_, opening := ?_, timed := ?_ }
      · intro c' hc'
        rw [← Option.some.inj hc']
        refine ⟨hcounted.1, ?_⟩
        rw [later, hlater]
        dsimp only
        split <;> omega
      · intro j
        rw [later, hlater]
        have := hs.limited j
        split
        · next hj =>
          obtain ⟨hle, rfl⟩ := hj
          omega
        · exact this
      · intro j
        rw [opened, hopened]
        exact hs.opening j
      · intro d hd j hj
        rcases List.mem_append.mp hd with hmem | hmem
        · exact hs.timed d hmem j hj
        · obtain rfl := List.mem_singleton.mp hmem
          obtain rfl := Option.some.inj hj
          have hlen := List.length_pos_of_ne_nil hcounted.1
          have hlast : s.starts.length - 1 < s.starts.length := Nat.sub_lt hlen Nat.zero_lt_one
          refine ⟨Int.le_refl _, s.starts[s.starts.length - 1], List.getElem?_eq_getElem hlast,
            hs.clock _ (List.getElem_mem hlast), nofun, fun next hnext => ?_⟩
          rw [Nat.sub_add_cancel hlen, List.getElem?_eq_none (Nat.le_refl _)] at hnext
          cases hnext
  | unheard =>
    rw [advance] at h
    cases hlive : s.live with
    | none =>
      rw [hlive] at h
      exact Option.some.inj h ▸ (hs.made hlive (.inr rfl)).unavailable s.now
    | some c =>
      rw [hlive] at h
      exact Option.some.inj h ▸ (hs.hit hlive).unavailable s.now
  | unreachable => exact Option.some.inj h ▸ hs.unavailable s.now
  | expire i heard =>
    rw [advance] at h
    split at h
    · next time w hi =>
      obtain ⟨-, -, n, hn⟩ := hs.pending hi
      rw [live_of_unset hn] at h
      exact Option.some.inj h ▸ hs.settle hi hn (.inl ⟨rfl, rfl⟩) (.inr ⟨_, rfl⟩)
    · cases h
  | fail i =>
    rw [advance] at h
    split at h
    · next time w hi =>
      obtain ⟨-, -, n, hn⟩ := hs.pending hi
      exact Option.some.inj h ▸ hs.settle hi hn (.inr ⟨rfl, rfl⟩) (.inr ⟨_, rfl⟩)
    · cases h
  | die i =>
    rw [advance] at h
    split at h
    · next time w hi =>
      obtain ⟨-, -, n, hn⟩ := hs.pending hi
      have hdied := hs.settle hi hn (.inr ⟨rfl, rfl⟩) (.inl rfl)
      rw [List.append_nil] at hdied
      exact Option.some.inj h ▸ hdied
    · cases h

theorem limitSound_of_run {now : ℤ} {as : List LimitStep}
    (hrun : StepSystem.run (advance limit window) { now := now } as = some s) :
    LimitSound limit window s :=
  StepSystem.run_invariant _ (fun _ _ _ => limitSound_step) (limitSound_initial now) hrun

/-! ## A stretch of a window's length -/

/-- **Less than twice the limit.**  Of the calls whose count Redis has told them, fewer than twice
the limit are allowed in any stretch of a window's length, however the windows lie. -/
theorem slidingLimit_of_run {now : ℤ} {as : List LimitStep}
    (hrun : StepSystem.run (advance limit window) { now := now } as = some s) (since : ℤ) :
    s.grantedIn since window < 2 * max 1 limit := by
  have hs := limitSound_of_run hrun
  have hstart : ∀ d ∈ s.decisions, d.granted = true → ∃ start, s.starts[d.place]? = some start ∧
      start ≤ d.time ∧ (d.opening = true → d.time = start) ∧
      ∀ next, s.starts[d.place + 1]? = some next → d.time ≤ next := by
    intro d hd hgranted
    rw [Decision.granted, Bool.and_eq_true, Option.isSome_iff_exists] at hgranted
    obtain ⟨-, i, hi⟩ := hgranted
    rw [Decision.place, hi]
    exact (hs.timed d hd i hi).2
  have hspaced : ∀ {i j : ℕ} {x y : ℤ}, i < j → s.starts[i]? = some x → s.starts[j]? = some y →
      x + window ≤ y := by
    intro i j x y hij hx hy
    obtain ⟨hi, rfl⟩ := List.getElem?_eq_some_iff.mp hx
    obtain ⟨hj, rfl⟩ := List.getElem?_eq_some_iff.mp hy
    exact List.pairwise_iff_getElem.mp hs.spaced i j hi hj hij
  refine FixedWindow.countP_sliding_lt Decision.opening Decision.place (fun i => ?_) hs.limited
    ?_ ?_ since
  · exact Nat.le_trans (Nat.le_add_right ..) (hs.opening i)
  · intro a ha b hb hpa hpb hopening hlt
    obtain ⟨x, hx, -, hsame, -⟩ := hstart a ha hpa
    obtain ⟨y, hy, hle, -, -⟩ := hstart b hb hpb
    rw [hsame hopening]
    exact Int.le_trans (hspaced hlt hx hy) hle
  · intro a ha b hb hpa hpb hlt
    obtain ⟨y, hy, hle, -, -⟩ := hstart b hb hpb
    have hmiddle : a.place + 1 < s.starts.length := by
      have := List.lt_length_of_getElem? hy
      omega
    have hnext := List.getElem?_eq_getElem hmiddle
    obtain ⟨x, hx, -, -, hbefore⟩ := hstart a ha hpa
    have hfirst := hbefore _ hnext
    have hsecond := hspaced hlt hnext hy
    omega

/-- With a limit of two in a minute, three calls may pass within it: the second of one counter, and
both of the next. -/
theorem slidingLimit_threeOfTwo :
    ∃ s, StepSystem.run (advance 2 60) { now := 0 }
        [.check, .expire 0 true, .pass 59, .check, .pass 1, .check, .expire 1 true, .check] =
          some s ∧
      s.grantedIn 59 60 = 3 ∧ s.grantedIn 59 60 < 2 * max 1 2 := by
  have hcount : (StepSystem.run (advance 2 60) { now := 0 }
      [.check, .expire 0 true, .pass 59, .check, .pass 1, .check, .expire 1 true, .check]).map
        (fun s => s.grantedIn 59 60) = some 3 := by
    decide +kernel
  obtain ⟨s, hs, hthree⟩ := Option.map_eq_some_iff.mp hcount
  exact ⟨s, hs, hthree, slidingLimit_of_run hs 59⟩

/-! ## A key that refuses for good -/

/-- Whatever comes, no call is allowed again whose count Redis has told it. -/
def RefusesForGood (limit window : ℕ) (s : KeyLimit) : Prop :=
  ∀ bs t, StepSystem.run (advance limit window) s bs = some t →
    ∀ d ∈ t.decisions.drop s.decisions.length, d.window.isSome → d.allowed = false

/-- The limit is reached, the counter has no expiry, and no call is about to set it. -/
structure Stuck (limit : ℕ) (s : KeyLimit) : Prop where
  idle : ∀ (i : ℕ) (time : ℤ) (w : ℕ), s.calls[i]? ≠ some (.expiring time w)
  reached : ∃ n, s.counter = some ⟨n, none⟩ ∧ limit ≤ n

theorem Stuck.step (hs : Stuck limit s) (h : s.advance limit window a = some s') :
    Stuck limit s' ∧ ∃ ds, s'.decisions = s.decisions ++ ds ∧
      ∀ d ∈ ds, d.window.isSome → d.allowed = false := by
  obtain ⟨n, hn, hle⟩ := hs.reached
  have hlive := live_of_unset hn
  have hunavailable : ∀ d ∈ [Decision.unavailable s.now], d.window.isSome → d.allowed = false := by
    intro d hd hsome
    rw [List.mem_singleton.mp hd] at hsome
    cases hsome
  cases a with
  | pass seconds =>
    obtain rfl := Option.some.inj h
    exact ⟨⟨hs.idle, hs.reached⟩, [], (List.append_nil _).symm, nofun⟩
  | check =>
    rw [advance, hlive] at h
    obtain rfl := Option.some.inj h
    refine ⟨⟨hs.idle, n + 1, rfl, Nat.le_succ_of_le hle⟩, _, rfl, fun d hd _ => ?_⟩
    rw [List.mem_singleton.mp hd]
    exact decide_eq_false (by dsimp only; omega)
  | unheard =>
    rw [advance, hlive] at h
    obtain rfl := Option.some.inj h
    exact ⟨⟨hs.idle, n + 1, rfl, Nat.le_succ_of_le hle⟩, _, rfl, hunavailable⟩
  | unreachable =>
    obtain rfl := Option.some.inj h
    exact ⟨⟨hs.idle, hs.reached⟩, _, rfl, hunavailable⟩
  | expire i heard =>
    rw [advance] at h
    split at h
    · next time w hi => exact absurd hi (hs.idle i time w)
    · cases h
  | fail i =>
    rw [advance] at h
    split at h
    · next time w hi => exact absurd hi (hs.idle i time w)
    · cases h
  | die i =>
    rw [advance] at h
    split at h
    · next time w hi => exact absurd hi (hs.idle i time w)
    · cases h

theorem Stuck.refusesForGood (hs : Stuck limit s) : RefusesForGood limit window s := by
  intro bs t hrun
  have hdrop := StepSystem.run_invariant (advance limit window)
    (I := fun t => Stuck limit t ∧ ∃ ds, t.decisions = s.decisions ++ ds ∧
      ∀ d ∈ ds, d.window.isSome → d.allowed = false)
    (fun u b u' hu hstep => by
      obtain ⟨hstuck, ds, hds, hrefused⟩ := hu
      obtain ⟨hstuck', es, hes, hrefused'⟩ := hstuck.step hstep
      refine ⟨hstuck', ds ++ es, by rw [hes, hds, List.append_assoc], fun d hd => ?_⟩
      exact (List.mem_append.mp hd).elim (hrefused d) (hrefused' d))
    ⟨hs, [], (List.append_nil _).symm, nofun⟩ hrun
  obtain ⟨-, ds, hds, hrefused⟩ := hdrop
  rw [hds, List.drop_left]
  exact hrefused

theorem not_refusesForGood_of_live_none (hlimit : 0 < limit) (h : s.live = none) :
    ¬RefusesForGood limit window s := by
  intro hrefuses
  have hcheck : s.advance limit window .check = some { s with
      counter := some { count := 1 }
      calls := s.calls ++ [.expiring s.now s.starts.length]
      starts := s.starts ++ [s.now] } := by
    rw [advance, h]
  have hexpire := hrefuses [.check, .expire s.calls.length true] _
    ((StepSystem.run_cons_eq_some _).mpr ⟨_, hcheck, by
      rw [StepSystem.run_cons, advance]
      rw [List.getElem?_concat_length]
      rfl⟩)
    ⟨s.now, some s.starts.length, true, decide (1 ≤ limit)⟩
    (by
      rw [List.drop_left]
      exact List.mem_singleton.mpr rfl)
    rfl
  exact absurd hlimit (of_decide_eq_false hexpire)

/-- **Refused for good.**  A key whose limit is positive refuses for good exactly if the limit is
reached, the counter has no expiry, and no call is about to set it.  Then the call that has made
the counter is lost: its command has not set the expiry. -/
theorem refusesForGood_of_run (hlimit : 0 < limit) {now : ℤ} {as : List LimitStep}
    (hrun : StepSystem.run (advance limit window) { now := now } as = some s) :
    (RefusesForGood limit window s ↔ Stuck limit s) ∧
      (RefusesForGood limit window s → s.calls.getLast? = some .lost) := by
  have hs := limitSound_of_run hrun
  have hiff : RefusesForGood limit window s ↔ Stuck limit s := by
    refine ⟨fun hrefuses => ?_, Stuck.refusesForGood⟩
    refine ⟨fun i time w hi => ?_, ?_⟩
    · have hexpire := hrefuses [.expire i true] _
        ((StepSystem.run_cons_eq_some _).mpr ⟨_, by rw [advance, hi], rfl⟩)
        ⟨time, some w, true, decide (1 ≤ limit)⟩
        (by
          rw [List.drop_left]
          exact List.mem_singleton.mpr rfl)
        rfl
      exact absurd hlimit (of_decide_eq_false hexpire)
    · cases hcounter : s.counter with
      | none =>
        refine absurd hrefuses (not_refusesForGood_of_live_none hlimit ?_)
        rw [live, hcounter]
        rfl
      | some c =>
        cases hexpiry : c.expiresAt with
        | some e =>
          -- the counter expires, and the next call is the first of a new one
          refine absurd (fun bs t hrun => hrefuses (.pass (e - s.now).toNat :: bs) t hrun)
            (not_refusesForGood_of_live_none (s := { s with now := s.now + (e - s.now).toNat })
              hlimit ?_)
          rw [live, hcounter, Option.filter_some, hexpiry, Option.all_some, if_neg]
          rw [decide_eq_true_iff]
          dsimp only
          omega
        | none =>
          obtain ⟨n, expiresAt⟩ := c
          obtain rfl : expiresAt = none := hexpiry
          refine ⟨n, rfl, ?_⟩
          by_contra hbelow
          have hcheck := hrefuses [.check] _
            ((StepSystem.run_cons_eq_some _).mpr
              ⟨_, by rw [advance, live_of_unset hcounter], rfl⟩)
            ⟨s.now, some (s.starts.length - 1), false, decide (n + 1 ≤ limit)⟩
            (by
              rw [List.drop_left]
              exact List.mem_singleton.mpr rfl)
            rfl
          exact absurd (of_decide_eq_false hcheck) (by omega)
  refine ⟨hiff, fun hrefuses => ?_⟩
  obtain ⟨hidle, n, hn, -⟩ := hiff.mp hrefuses
  rcases hs.unset hn with ⟨i, time, w, hi⟩ | hlost
  · exact absurd hi (hidle i time w)
  · exact hlost

/-- With a limit of one, a worker that dies after the first call locks the key. -/
theorem refusesForGood_diedOnce :
    ∃ s, StepSystem.run (advance 1 60) { now := 0 } [.check, .die 0] = some s ∧
      RefusesForGood 1 60 s ∧ s.calls.getLast? = some .lost := by
  have hrun : StepSystem.run (advance 1 60) { now := 0 } [.check, .die 0] =
      some { counter := some ⟨1, none⟩, calls := [.lost], starts := [0] } := by
    decide +kernel
  have hgood := refusesForGood_of_run Nat.zero_lt_one hrun
  refine ⟨_, hrun, ?_⟩
  have hidle : ∀ (i : ℕ) (time : ℤ) (w : ℕ),
      [LimitCall.lost][i]? ≠ some (.expiring time w) := by
    intro i time w hi
    exact absurd (List.mem_singleton.mp (List.mem_of_getElem? hi)) nofun
  have hrefuses := hgood.1.mpr ⟨hidle, 1, rfl, Nat.le_refl 1⟩
  exact ⟨hrefuses, hgood.2 hrefuses⟩

end

end KeyLimit

end RateLimit

end Auth

end AdviserConstructor
