import AdviserConstructor.Library.InsertionDict
import AdviserConstructor.Library.Slots
import AdviserConstructor.Library.StepSystem

/-!
# The registry of the order queues

`get_order_queue` and `_build_queue_runner_callback` of `app/services/watchers/service.py`: one
process keeps one order queue for each account, with the task that runs its loop.  A queue is made
when there is none, or when the runner of the one at hand is done.

Control changes hands at an `await` only.  A call awaits the lock and, with the lock in its hands,
the adapter of a new queue; it may be cancelled at either place, and the adapter may fail.  A runner
may end at any time.  Its done callback is scheduled then and runs later, and in between other calls
may find the ended runner in the registry and make a new queue beside it.

* `move_of_advance`: what a step can do to the registry.
* `sound_step`: both dictionaries hold the same queues, and every running queue is among
  them.
* `oneQueue_of_run`: **one running queue for each account**, in every reachable state; the queue
  that a call gets is running when it gets it, and no call waits for ever.
-/

namespace AdviserConstructor

namespace Watchers

/-- The key of an account, `str(position.account_id)`. -/
abbrev AccountKey := String

/-- A queue and the task that runs it are made together and have one identity. -/
abbrev QueueId := ℕ

/-- How far the runner of a queue has come. -/
inductive RunnerStatus
  | running
  /-- it is done, and its callback has not run yet -/
  | done
  | settled
  deriving DecidableEq, Repr

/-- A queue with its runner. -/
structure QueueRunner where
  account : AccountKey
  status : RunnerStatus
  deriving DecidableEq, Repr

/-- How far a call of `get_order_queue` has come. -/
inductive QueueCall
  | waiting (account : AccountKey)
  /-- it has the lock and awaits the adapter of a new queue -/
  | creating (account : AccountKey)
  | returned (account : AccountKey) (queue : QueueId)
  | raised
  deriving DecidableEq, Repr

/-- The two dictionaries, the queues made so far, the calls, and the call that holds the lock. -/
structure QueueRegistry where
  registry : InsertionDict AccountKey QueueId := .empty
  runners : InsertionDict AccountKey QueueId := .empty
  queues : List QueueRunner := []
  calls : List QueueCall := []
  lock : Option ℕ := none
  deriving DecidableEq

namespace QueueRegistry

/-- The process before its first call. -/
def initial : QueueRegistry := {}

def statusOf (s : QueueRegistry) (q : QueueId) : Option RunnerStatus :=
  s.queues[q]?.map QueueRunner.status

/-- The queue that a call with the lock finds: there is one, and its runner is not done. -/
def existing (s : QueueRegistry) (account : AccountKey) : Option QueueId :=
  match s.registry.get? account, s.runners.get? account with
  | some queue, some runner => if s.statusOf runner = some .running then some queue else none
  | _, _ => none

/-- A new queue, its runner, and both in the dictionaries. -/
def register (s : QueueRegistry) (account : AccountKey) : QueueRegistry :=
  { s with
    queues := s.queues ++ [⟨account, .running⟩]
    registry := s.registry.assign account s.queues.length
    runners := s.runners.assign account s.queues.length }

def setStatus (s : QueueRegistry) (q : QueueId) (runner : QueueRunner) : QueueRegistry :=
  { s with queues := s.queues.set q runner }

/-- `_on_done`: the entries of the account are popped if they are those of this runner. -/
def onDone (s : QueueRegistry) (q : QueueId) (account : AccountKey) : QueueRegistry :=
  if s.runners.get? account = some q then
    { s with runners := s.runners.remove account, registry := s.registry.remove account }
  else s

end QueueRegistry

/-- One move of a call, of a runner or of the event loop. -/
inductive RegistryStep
  /-- `get_order_queue` is called -/
  | call (account : AccountKey)
  /-- a call gets the lock and looks into the dictionaries -/
  | enter (call : ℕ)
  | created (call : ℕ)
  /-- the adapter fails, or the call is cancelled -/
  | abandon (call : ℕ)
  /-- a runner returns, raises or is cancelled -/
  | runnerEnds (queue : QueueId)
  | callback (queue : QueueId)
  deriving DecidableEq, Repr

namespace QueueRegistry

def advance (s : QueueRegistry) : RegistryStep → Option QueueRegistry
  | .call account => some { s with calls := s.calls ++ [.waiting account] }
  | .enter c =>
      match s.calls[c]?, s.lock with
      | some (.waiting account), none =>
          match s.existing account with
          | some queue => some { s with calls := s.calls.set c (.returned account queue) }
          | none => some { s with calls := s.calls.set c (.creating account), lock := some c }
      | _, _ => none
  | .created c =>
      match s.calls[c]? with
      | some (.creating account) =>
          some { s.register account with
            calls := s.calls.set c (.returned account s.queues.length)
            lock := none }
      | _ => none
  | .abandon c =>
      match s.calls[c]? with
      | some (.waiting _) => some { s with calls := s.calls.set c .raised }
      | some (.creating _) => some { s with calls := s.calls.set c .raised, lock := none }
      | _ => none
  | .runnerEnds q =>
      match s.queues[q]? with
      | some ⟨account, .running⟩ => some (s.setStatus q ⟨account, .done⟩)
      | _ => none
  | .callback q =>
      match s.queues[q]? with
      | some ⟨account, .done⟩ => some ((s.onDone q account).setStatus q ⟨account, .settled⟩)
      | _ => none

/-! ## What a step can do -/

/-- The moves of the registry: what each one needs and what it leaves. -/
inductive Move (s : QueueRegistry) : QueueRegistry → Prop
  | call (account : AccountKey) : Move s { s with calls := s.calls ++ [.waiting account] }
  | found (c : ℕ) (account : AccountKey) (q : QueueId) (hc : s.calls[c]? = some (.waiting account))
      (hlock : s.lock = none) (hregistry : s.registry.get? account = some q)
      (hrunning : ∃ r, s.runners.get? account = some r ∧ s.statusOf r = some .running) :
      Move s { s with calls := s.calls.set c (.returned account q) }
  | locked (c : ℕ) (account : AccountKey) (hc : s.calls[c]? = some (.waiting account))
      (hlock : s.lock = none) (hnone : s.existing account = none) :
      Move s { s with calls := s.calls.set c (.creating account), lock := some c }
  | created (c : ℕ) (account : AccountKey) (hc : s.calls[c]? = some (.creating account)) :
      Move s { s.register account with
        calls := s.calls.set c (.returned account s.queues.length), lock := none }
  | gaveUp (c : ℕ) (account : AccountKey) (hc : s.calls[c]? = some (.waiting account)) :
      Move s { s with calls := s.calls.set c .raised }
  | failed (c : ℕ) (account : AccountKey) (hc : s.calls[c]? = some (.creating account)) :
      Move s { s with calls := s.calls.set c .raised, lock := none }
  | ended (q : QueueId) (account : AccountKey) (hq : s.queues[q]? = some ⟨account, .running⟩) :
      Move s (s.setStatus q ⟨account, .done⟩)
  | callback (q : QueueId) (account : AccountKey) (hq : s.queues[q]? = some ⟨account, .done⟩) :
      Move s ((s.onDone q account).setStatus q ⟨account, .settled⟩)

variable {account account' : AccountKey} {q : QueueId}

theorem existing_eq_some {s : QueueRegistry} (h : s.existing account = some q) :
    s.registry.get? account = some q ∧
      ∃ r, s.runners.get? account = some r ∧ s.statusOf r = some .running := by
  unfold existing at h
  split at h
  · next queue runner hqueue hrunner =>
    split at h
    · next hrunning =>
      obtain rfl := Option.some.inj h
      exact ⟨hqueue, runner, hrunner, hrunning⟩
    · cases h
  · cases h

/-- **What a step can do.** -/
theorem move_of_advance {s s' : QueueRegistry} {a : RegistryStep} (h : s.advance a = some s') :
    Move s s' := by
  cases a with
  | call account =>
    obtain rfl := Option.some.inj h
    exact .call account
  | enter c =>
    simp only [advance] at h
    split at h
    · next account hc hlock =>
      split at h
      · next q hq =>
        obtain rfl := Option.some.inj h
        obtain ⟨hregistry, hrunning⟩ := existing_eq_some hq
        exact .found c account q hc hlock hregistry hrunning
      · next hnone =>
        obtain rfl := Option.some.inj h
        exact .locked c account hc hlock hnone
    · cases h
  | created c =>
    simp only [advance] at h
    split at h
    · next account hc =>
      obtain rfl := Option.some.inj h
      exact .created c account hc
    · cases h
  | abandon c =>
    simp only [advance] at h
    split at h
    · next account hc =>
      obtain rfl := Option.some.inj h
      exact .gaveUp c account hc
    · next account hc =>
      obtain rfl := Option.some.inj h
      exact .failed c account hc
    · cases h
  | runnerEnds q =>
    simp only [advance] at h
    split at h
    · next account hq =>
      obtain rfl := Option.some.inj h
      exact .ended q account hq
    · cases h
  | callback q =>
    simp only [advance] at h
    split at h
    · next account hq =>
      obtain rfl := Option.some.inj h
      exact .callback q account hq
    · cases h

/-! ## The invariant -/

/-- The invariant of the process: the dictionaries agree, hold every running queue, and nothing but
queues whose callback is still to come; the call that makes a queue has the lock, and its account
has no running queue. -/
structure Sound (s : QueueRegistry) : Prop where
  same : s.registry = s.runners
  registered : ∀ {account : AccountKey} {q : QueueId}, s.runners.get? account = some q →
    ∃ status, s.queues[q]? = some ⟨account, status⟩ ∧ status ≠ .settled
  running : ∀ {account : AccountKey} {q : QueueId}, s.queues[q]? = some ⟨account, .running⟩ →
    s.runners.get? account = some q
  holder : ∀ {c : ℕ}, s.lock = some c ↔ ∃ account, s.calls[c]? = some (.creating account)
  alone : ∀ {c : ℕ} {account : AccountKey}, s.calls[c]? = some (.creating account) →
    ∀ q : QueueId, s.queues[q]? ≠ some ⟨account, .running⟩

theorem sound_initial : Sound initial where
  same := rfl
  registered h := absurd h (Option.some_ne_none _).symm
  running h := absurd h (Option.some_ne_none _).symm
  holder := ⟨fun h => absurd h (Option.some_ne_none _).symm,
    fun ⟨_, h⟩ => absurd h (Option.some_ne_none _).symm⟩
  alone h := absurd h (Option.some_ne_none _).symm

variable {s s' : QueueRegistry}

theorem existing_of_running (hs : Sound s) (hq : s.queues[q]? = some ⟨account, .running⟩) :
    s.existing account = some q := by
  have hrunner := hs.running hq
  have hstatus : s.statusOf q = some .running := by
    rw [statusOf, hq]
    rfl
  simp only [existing, hs.same, hrunner, hstatus, if_true]

theorem running_of_existing (hs : Sound s) (hregistry : s.registry.get? account = some q)
    (hrunning : ∃ r, s.runners.get? account = some r ∧ s.statusOf r = some .running) :
    s.queues[q]? = some ⟨account, .running⟩ := by
  obtain ⟨r, hr, hstatus⟩ := hrunning
  rw [hs.same, hr] at hregistry
  obtain rfl := Option.some.inj hregistry
  obtain ⟨status, hq, -⟩ := hs.registered hr
  rw [statusOf, hq] at hstatus
  obtain rfl : status = .running := Option.some.inj hstatus
  exact hq

theorem creating_unique (hs : Sound s) {c d : ℕ} (hc : s.calls[c]? = some (.creating account))
    (hd : s.calls[d]? = some (.creating account')) : c = d :=
  Option.some.inj ((hs.holder.mpr ⟨account, hc⟩).symm.trans (hs.holder.mpr ⟨account', hd⟩))

theorem not_creating (hs : Sound s) (hlock : s.lock = none) (c : ℕ) (account : AccountKey) :
    s.calls[c]? ≠ some (.creating account) := by
  intro hc
  have hsome := hs.holder.mpr ⟨account, hc⟩
  rw [hlock] at hsome
  exact absurd hsome (Option.some_ne_none c).symm

/-! ### The calls -/

theorem Sound.withCalls (hs : Sound s) {calls : List QueueCall}
    (hcalls : ∀ (c : ℕ) (account : AccountKey), calls[c]? = some (.creating account) ↔
      s.calls[c]? = some (.creating account)) : Sound { s with calls := calls } where
  same := hs.same
  registered := hs.registered
  running := hs.running
  holder := by
    intro c
    simp only [hcalls]
    exact hs.holder
  alone hc := hs.alone ((hcalls _ _).mp hc)

theorem Sound.call (hs : Sound s) (account : AccountKey) :
    Sound { s with calls := s.calls ++ [.waiting account] } := by
  refine hs.withCalls fun c account' => ?_
  rw [List.getElem?_concat_eq_some_iff]
  refine or_iff_left ?_
  rintro ⟨-, h⟩
  cases h

theorem Sound.answer (hs : Sound s) {c : ℕ} {next : QueueCall}
    (hc : s.calls[c]? = some (.waiting account)) (hnext : ∀ account, next ≠ .creating account) :
    Sound { s with calls := s.calls.set c next } := by
  refine hs.withCalls fun d account' => ?_
  rw [List.getElem?_set_eq_some_iff (List.lt_length_of_getElem? hc)]
  constructor
  · rintro (⟨-, h⟩ | ⟨-, h⟩)
    · exact absurd h (hnext account')
    · exact h
  · intro h
    refine Or.inr ⟨?_, h⟩
    rintro rfl
    rw [hc] at h
    cases h

theorem Sound.release (hs : Sound s) {c : ℕ} {next : QueueCall}
    (hc : s.calls[c]? = some (.creating account)) (hnext : ∀ account, next ≠ .creating account) :
    Sound { s with calls := s.calls.set c next, lock := none } := by
  have hnone : ∀ (d : ℕ) (account' : AccountKey),
      (s.calls.set c next)[d]? ≠ some (.creating account') := by
    intro d account' hd
    rw [List.getElem?_set_eq_some_iff (List.lt_length_of_getElem? hc)] at hd
    rcases hd with ⟨-, h⟩ | ⟨hne, h⟩
    · exact hnext account' h
    · exact hne (creating_unique hs hc h)
  refine ⟨hs.same, hs.registered, hs.running, fun {d} => ?_, fun hd => absurd hd (hnone _ _)⟩
  exact iff_of_false (Option.some_ne_none d).symm fun ⟨account', hd⟩ => hnone d account' hd

theorem Sound.acquire (hs : Sound s) {c : ℕ} (hc : s.calls[c]? = some (.waiting account))
    (hlock : s.lock = none) (hnone : s.existing account = none) :
    Sound { s with calls := s.calls.set c (.creating account), lock := some c } := by
  have hcreating : ∀ (d : ℕ) (account' : AccountKey), (s.calls.set c (.creating account))[d]? =
      some (.creating account') ↔ c = d ∧ account = account' := by
    intro d account'
    rw [List.getElem?_set_eq_some_iff (List.lt_length_of_getElem? hc), QueueCall.creating.injEq]
    exact or_iff_left fun h => not_creating hs hlock d account' h.2
  refine ⟨hs.same, hs.registered, hs.running, ?_, ?_⟩
  · intro d
    simp only [hcreating, Option.some.injEq]
    exact ⟨fun h => ⟨account, h, rfl⟩, fun ⟨_, h, _⟩ => h⟩
  · intro d account' hd q hq
    obtain ⟨-, rfl⟩ := (hcreating d account').mp hd
    rw [existing_of_running hs hq] at hnone
    exact absurd hnone (Option.some_ne_none q)

/-! ### The queues -/

theorem Sound.register (hs : Sound s) (hlock : s.lock = none)
    (halone : ∀ q : QueueId, s.queues[q]? ≠ some ⟨account, .running⟩) :
    Sound (s.register account) where
  same := by
    rw [QueueRegistry.register, hs.same]
  registered := by
    intro account' q hq
    simp only [QueueRegistry.register, InsertionDict.get?_assign] at hq ⊢
    split at hq
    · next haccount =>
      obtain rfl := Option.some.inj hq
      exact ⟨.running, haccount ▸ List.getElem?_concat_length, by decide⟩
    · obtain ⟨status, hstatus, hne⟩ := hs.registered hq
      exact ⟨status, List.getElem?_concat_of_some hstatus, hne⟩
  running := by
    intro account' q hq
    simp only [QueueRegistry.register, InsertionDict.get?_assign] at hq ⊢
    rcases List.getElem?_concat_eq_some_iff.mp hq with hold | ⟨rfl, hnew⟩
    · have hne : account' ≠ account := by
        rintro rfl
        exact halone q hold
      rw [if_neg hne]
      exact hs.running hold
    · cases hnew
      rw [if_pos rfl]
  holder := hs.holder
  alone hc := absurd hc (not_creating hs hlock _ _)

theorem Sound.ended (hs : Sound s) (hq : s.queues[q]? = some ⟨account, .running⟩) :
    Sound (s.setStatus q ⟨account, .done⟩) := by
  have hrunning : ∀ {r : QueueId} {account' : AccountKey}, (s.queues.set q ⟨account, .done⟩)[r]? =
      some ⟨account', .running⟩ → s.queues[r]? = some ⟨account', .running⟩ := by
    intro r account' hr
    rw [List.getElem?_set_eq_some_iff (List.lt_length_of_getElem? hq)] at hr
    rcases hr with ⟨-, h⟩ | ⟨-, h⟩
    · cases h
    · exact h
  refine ⟨hs.same, ?_, fun hr => hs.running (hrunning hr), hs.holder,
    fun hc r hr => hs.alone hc r (hrunning hr)⟩
  intro account' r hr
  obtain ⟨status, hstatus, hne⟩ := hs.registered hr
  simp only [setStatus, List.getElem?_set_eq_some_iff (List.lt_length_of_getElem? hq)]
  by_cases hqr : q = r
  · subst hqr
    rw [hq] at hstatus
    cases hstatus
    exact ⟨.done, Or.inl ⟨rfl, rfl⟩, by decide⟩
  · exact ⟨status, Or.inr ⟨hqr, hstatus⟩, hne⟩

theorem get?_remove {d : InsertionDict AccountKey QueueId} :
    (d.remove account).get? account' = some q ↔ account' ≠ account ∧ d.get? account' = some q := by
  rw [InsertionDict.get?_eq_some_iff, InsertionDict.get?_eq_some_iff, InsertionDict.mem_remove]

theorem get?_onDone (hs : Sound s) {r : QueueId} (hq : s.queues[q]? = some ⟨account, .done⟩) :
    (s.onDone q account).runners.get? account' = some r ↔
      r ≠ q ∧ s.runners.get? account' = some r := by
  unfold onDone
  split
  · next hrunner =>
    rw [get?_remove]
    refine and_congr_left fun hr => not_congr ?_
    constructor
    · rintro rfl
      exact Option.some.inj (hr.symm.trans hrunner)
    · rintro rfl
      obtain ⟨status, hstatus, -⟩ := hs.registered hr
      rw [hq] at hstatus
      cases hstatus
      rfl
  · next hrunner =>
    refine ⟨fun hr => ⟨?_, hr⟩, And.right⟩
    rintro rfl
    obtain ⟨status, hstatus, -⟩ := hs.registered hr
    rw [hq] at hstatus
    cases hstatus
    exact hrunner hr

theorem calls_onDone (s : QueueRegistry) (q : QueueId) (account : AccountKey) :
    (s.onDone q account).calls = s.calls ∧ (s.onDone q account).lock = s.lock := by
  unfold onDone
  split <;> exact ⟨rfl, rfl⟩

theorem Sound.callback (hs : Sound s) (hq : s.queues[q]? = some ⟨account, .done⟩) :
    Sound ((s.onDone q account).setStatus q ⟨account, .settled⟩) := by
  have hqueues : (s.onDone q account).queues = s.queues := by
    unfold onDone
    split <;> rfl
  have hcalls := calls_onDone s q account
  have hrunning : ∀ {r : QueueId} {account' : AccountKey},
      (s.queues.set q ⟨account, .settled⟩)[r]? = some ⟨account', .running⟩ →
        r ≠ q ∧ s.queues[r]? = some ⟨account', .running⟩ := by
    intro r account' hr
    rw [List.getElem?_set_eq_some_iff (List.lt_length_of_getElem? hq)] at hr
    rcases hr with ⟨-, h⟩ | ⟨hne, h⟩
    · cases h
    · exact ⟨hne.symm, h⟩
  refine ⟨?_, ?_, ?_, ?_, ?_⟩
  · simp only [onDone, hs.same]
    split
    · rfl
    · exact hs.same
  · intro account' r hr
    obtain ⟨hne, hr⟩ := (get?_onDone hs hq).mp hr
    obtain ⟨status, hstatus, hsettled⟩ := hs.registered hr
    refine ⟨status, ?_, hsettled⟩
    rw [setStatus, hqueues, List.getElem?_set_eq_some_iff (List.lt_length_of_getElem? hq)]
    exact Or.inr ⟨hne.symm, hstatus⟩
  · intro account' r hr
    rw [setStatus, hqueues] at hr
    obtain ⟨hne, hr⟩ := hrunning hr
    exact (get?_onDone hs hq).mpr ⟨hne, hs.running hr⟩
  · intro c
    simp only [setStatus, hcalls.1, hcalls.2]
    exact hs.holder
  · intro c account' hc r hr
    rw [setStatus, hcalls.1] at hc
    rw [setStatus, hqueues] at hr
    exact hs.alone hc r (hrunning hr).2

/-- **A step keeps the invariant.** -/
theorem sound_step {a : RegistryStep} (hs : Sound s) (h : s.advance a = some s') : Sound s' := by
  cases move_of_advance h with
  | call account => exact hs.call account
  | found c account q hc => exact hs.answer hc fun _ h => QueueCall.noConfusion h
  | locked c account hc hlock hnone => exact hs.acquire hc hlock hnone
  | created c account hc =>
    exact (hs.release hc fun _ h => QueueCall.noConfusion h).register rfl (hs.alone hc)
  | gaveUp c account hc => exact hs.answer hc fun _ h => QueueCall.noConfusion h
  | failed c account hc => exact hs.release hc fun _ h => QueueCall.noConfusion h
  | ended q account hq => exact hs.ended hq
  | callback q account hq => exact hs.callback hq

theorem sound_of_run {as : List RegistryStep} (h : StepSystem.run advance initial as = some s) :
    Sound s :=
  StepSystem.run_invariant advance (fun _ _ _ hs hstep => sound_step hs hstep) sound_initial h

/-! ## One queue for each account -/

/-- One running queue for each account, in both dictionaries under its key; and they hold nothing
else but queues whose done callback is still to come. -/
structure OneQueue (s : QueueRegistry) : Prop where
  unique : ∀ {account : AccountKey} {q r : QueueId}, s.queues[q]? = some ⟨account, .running⟩ →
    s.queues[r]? = some ⟨account, .running⟩ → q = r
  held : ∀ {account : AccountKey} {q : QueueId}, s.queues[q]? = some ⟨account, .running⟩ →
    s.registry.get? account = some q ∧ s.runners.get? account = some q
  nothingElse : ∀ {account : AccountKey} {q : QueueId},
    s.registry.get? account = some q ∨ s.runners.get? account = some q →
      s.queues[q]? = some ⟨account, .running⟩ ∨ s.queues[q]? = some ⟨account, .done⟩

theorem Sound.oneQueue (hs : Sound s) : OneQueue s where
  unique hq hr := Option.some.inj ((hs.running hq).symm.trans (hs.running hr))
  held hq := ⟨hs.same ▸ hs.running hq, hs.running hq⟩
  nothingElse := by
    intro account q h
    rw [hs.same, or_self] at h
    obtain ⟨status, hq, hne⟩ := hs.registered h
    cases status with
    | running => exact Or.inl hq
    | done => exact Or.inr hq
    | settled => exact absurd rfl hne

theorem Sound.answered {a : RegistryStep} (hs : Sound s) (h : s.advance a = some s') {c : ℕ}
    (hc : s'.calls[c]? = some (.returned account q))
    (hold : s.calls[c]? ≠ some (.returned account q)) :
    s'.queues[q]? = some ⟨account, .running⟩ := by
  -- the only call whose state a step changes is the one that moves
  have hmoved : ∀ {d : ℕ} {call next : QueueCall}, s.calls[d]? = some call →
      (s.calls.set d next)[c]? = some (.returned account q) → next = .returned account q := by
    intro d call next hd hnext
    rcases (List.getElem?_set_eq_some_iff (List.lt_length_of_getElem? hd)).mp hnext with
      ⟨-, h⟩ | ⟨-, h⟩
    · exact h
    · exact absurd h hold
  cases move_of_advance h with
  | call account' =>
    rcases List.getElem?_concat_eq_some_iff.mp hc with h | ⟨-, h⟩
    · exact absurd h hold
    · cases h
  | found d account' r hd hlock hregistry hrunning =>
    cases hmoved hd hc
    exact running_of_existing (s := s) hs hregistry hrunning
  | locked d account' hd => cases hmoved hd hc
  | created d account' hd =>
    cases hmoved hd hc
    exact List.getElem?_concat_length
  | gaveUp d account' hd => cases hmoved hd hc
  | failed d account' hd => cases hmoved hd hc
  | ended r account' hr => exact absurd hc hold
  | callback r account' hr =>
    rw [setStatus, (calls_onDone s r account').1] at hc
    exact absurd hc hold

theorem Sound.not_stuck (hs : Sound s) {c : ℕ} (hc : s.calls[c]? = some (.waiting account)) :
    (s.advance (.enter c)).isSome ∨
      ∃ d s', s.lock = some d ∧ s.advance (.created d) = some s' ∧ s'.lock = none := by
  cases hlock : s.lock with
  | none =>
    left
    simp only [advance, hc, hlock]
    cases s.existing account <;> rfl
  | some d =>
    right
    obtain ⟨account', hd⟩ := hs.holder.mp hlock
    refine ⟨d, { s.register account' with
      calls := s.calls.set d (.returned account' s.queues.length), lock := none }, rfl, ?_, rfl⟩
    simp only [advance, hd]

/-- **The queues of a process.**  In every interleaving of calls, failing adapters, cancellations,
runners that end and callbacks that come late, an account has one running queue at most, and the
registry holds it; what a call is answered with is a queue that runs at that moment; and no call
waits for a lock that nobody lets go. -/
theorem oneQueue_of_run {as : List RegistryStep} (h : StepSystem.run advance initial as = some s) :
    OneQueue s ∧
      (∀ a s', s.advance a = some s' → ∀ (c : ℕ) account q,
        s'.calls[c]? = some (.returned account q) → s.calls[c]? ≠ some (.returned account q) →
          s'.queues[q]? = some ⟨account, .running⟩) ∧
      ∀ (c : ℕ) account, s.calls[c]? = some (.waiting account) →
        (s.advance (.enter c)).isSome ∨
          ∃ d s', s.lock = some d ∧ s.advance (.created d) = some s' ∧ s'.lock = none := by
  have hs := sound_of_run h
  exact ⟨hs.oneQueue, fun a s' hstep c account q hc hold => hs.answered hstep hc hold,
    fun c account hc => hs.not_stuck hc⟩

/-- A runner ends, a call makes a queue in its place, and the callback comes late. -/
def lateCallback : List RegistryStep :=
  [.call "7", .enter 0, .created 0, .runnerEnds 0, .call "7", .enter 1, .created 1, .callback 0]

theorem oneQueue_lateCallback : ∃ s, StepSystem.run advance initial lateCallback = some s ∧
    OneQueue s ∧ s.registry.get? "7" = some 1 := by
  obtain ⟨s, hs⟩ := Option.isSome_iff_exists.mp
    (show (StepSystem.run advance initial lateCallback).isSome by decide)
  have hget : (StepSystem.run advance initial lateCallback).map (fun s => s.registry.get? "7") =
      some (some 1) := by decide
  rw [hs] at hget
  exact ⟨s, hs, (oneQueue_of_run hs).1, Option.some.inj hget⟩

end QueueRegistry

end Watchers

end AdviserConstructor
