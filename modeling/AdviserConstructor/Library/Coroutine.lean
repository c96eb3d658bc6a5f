import AdviserConstructor.Library.StepSystem

/-!
# Coroutines on one event loop

Handlers of an event loop share a state and take turns.  A handler reads and writes the state as
it likes until it awaits something; there the others go on, and it finds the state as they leave
it, together with the answer it has waited for.

`Coroutine σ α β` is such a handler: `σ` is the shared state, an answer is an `α`, and the handler
returns a `β`.  `EventLoop.step` interleaves any number of them, and `complete` runs one alone.

## Invariants across awaits

An invariant of the shared state may be broken while a handler is at work, since nobody looks; it
has to hold again at every await, and may be relied on behind it.  `Keeps I Q c s` says that of a
handler `c` that goes on in the state `s`, with the postcondition `Q`; `Stable I c` is the case
in which the handler relies on the invariant alone, and is closed under everything that handlers
are written with.

* `stable_of_run`: if every handler is stable, the invariant holds whenever the loop takes a turn.
-/

/-- A handler of an event loop. -/
inductive Coroutine (σ α : Type) (β : Type) where
  | done (result : β)
  /-- writes the shared state, and goes on with what it was before -/
  | atomic (write : σ → σ) (next : σ → Coroutine σ α β)
  | await (next : α → Coroutine σ α β)

namespace Coroutine

variable {σ α β γ : Type}

/-! ## Writing handlers -/

def andThen (c : Coroutine σ α β) (f : β → Coroutine σ α γ) : Coroutine σ α γ :=
  match c with
  | .done b => f b
  | .atomic write next => .atomic write fun s => (next s).andThen f
  | .await next => .await fun a => (next a).andThen f

instance : Monad (Coroutine σ α) where
  pure := .done
  bind := andThen

def get : Coroutine σ α σ := .atomic id .done

def modify (write : σ → σ) : Coroutine σ α Unit := .atomic write fun _ => .done ()

def answer : Coroutine σ α α := .await .done

/-- A handler that runs in one case only. -/
def only (p : Bool) (c : Coroutine σ α Unit) : Coroutine σ α Unit := if p then c else pure ()

/-- A handler for every element of a list. -/
def forEach {ι : Type} (body : ι → Coroutine σ α Unit) : List ι → Coroutine σ α Unit
  | [] => .done ()
  | i :: is => (body i).andThen fun _ => forEach body is

/-! ## Running handlers -/

def advance : Coroutine σ α β → σ → σ × Coroutine σ α β
  | .done b, s => (s, .done b)
  | .atomic write next, s => (next s).advance (write s)
  | .await next, s => (s, .await next)

/-- A handler alone on its loop, every await of which gets the same answer. -/
def complete (a : α) : Coroutine σ α β → σ → σ × β
  | .done b, s => (s, b)
  | .atomic write next, s => (next s).complete a (write s)
  | .await next, s => (next a).complete a s

section complete

variable (a : α)

@[simp] theorem complete_pure (b : β) (s : σ) :
    complete a (pure b : Coroutine σ α β) s = (s, b) := rfl

@[simp] theorem complete_bind (c : Coroutine σ α β) (f : β → Coroutine σ α γ) (s : σ) :
    complete a (c >>= f) s = complete a (f (complete a c s).2) (complete a c s).1 := by
  induction c generalizing s with
  | done b => rfl
  | atomic write next ih => exact ih s (write s)
  | await next ih => exact ih a s

@[simp] theorem complete_only (p : Bool) (c : Coroutine σ α Unit) (s : σ) :
    complete a (only p c) s = if p then complete a c s else (s, ()) := by
  cases p <;> rfl

end complete

/-! ## Invariants across awaits -/

/-- The invariant holds at every await, and the postcondition at the end. -/
def Keeps (I : σ → Prop) (Q : β → σ → Prop) : Coroutine σ α β → σ → Prop
  | .done b, s => Q b s
  | .atomic write next, s => (next s).Keeps I Q (write s)
  | .await next, s => I s ∧ ∀ a s', I s' → (next a).Keeps I Q s'

/-- The handler keeps the invariant, relying on it. -/
def Stable (I : σ → Prop) (c : Coroutine σ α β) : Prop :=
  ∀ s, I s → c.Keeps I (fun _ s' => I s') s

variable {I : σ → Prop} {Q R : β → σ → Prop} {c : Coroutine σ α β}

theorem Keeps.mono (hQR : ∀ b s, Q b s → R b s) {s : σ} (h : c.Keeps I Q s) : c.Keeps I R s := by
  induction c generalizing s with
  | done b => exact hQR b s h
  | atomic write next ih => exact ih s h
  | await next ih => exact ⟨h.1, fun a s' hs' => ih a (h.2 a s' hs')⟩

theorem keeps_bind {Q : γ → σ → Prop} {f : β → Coroutine σ α γ} {s : σ}
    (h : c.Keeps I (fun b s' => (f b).Keeps I Q s') s) : (c >>= f).Keeps I Q s := by
  induction c generalizing s with
  | done b => exact h
  | atomic write next ih => exact ih s h
  | await next ih => exact ⟨h.1, fun a s' hs' => ih a (h.2 a s' hs')⟩

namespace Stable

theorem pure (b : β) : Stable I (pure b : Coroutine σ α β) := fun _ hs => hs

theorem bind {f : β → Coroutine σ α γ} (hc : Stable I c) (hf : ∀ b, Stable I (f b)) :
    Stable I (c >>= f) := fun s hs => keeps_bind ((hc s hs).mono fun b s' hs' => hf b s' hs')

theorem get : Stable I (get : Coroutine σ α σ) := fun _ hs => hs

theorem modify {write : σ → σ} (h : ∀ s, I s → I (write s)) :
    Stable I (modify write : Coroutine σ α Unit) := fun s hs => h s hs

theorem answer : Stable I (answer : Coroutine σ α α) := fun _ hs => ⟨hs, fun _ _ hs' => hs'⟩

theorem only {p : Bool} {c : Coroutine σ α Unit} (h : Stable I c) : Stable I (only p c) := by
  cases p with
  | false => exact pure ()
  | true => exact h

theorem forEach {ι : Type} {body : ι → Coroutine σ α Unit} (h : ∀ i, Stable I (body i))
    (is : List ι) : Stable I (forEach body is) := by
  induction is with
  | nil => exact fun _ hs => hs
  | cons i is ih => exact bind (h i) fun _ => ih

end Stable

end Coroutine

/-! ## The loop -/

open Coroutine

/-- An event loop: the shared state, and the handlers that have been called. -/
structure EventLoop (σ α : Type) where
  shared : σ
  handlers : List (Coroutine σ α Unit) := []

/-- A turn of the loop. -/
inductive Turn (ε α : Type) where
  | call (event : ε)
  /-- a handler gets the answer it has waited for -/
  | resume (i : ℕ) (a : α)

namespace EventLoop

variable {σ α ε : Type} (handler : ε → Coroutine σ α Unit)

/-- One turn, in which one handler goes on to its next await. -/
def step (loop : EventLoop σ α) : Turn ε α → Option (EventLoop σ α)
  | .call event =>
      let (shared, rest) := (handler event).advance loop.shared
      some ⟨shared, loop.handlers ++ [rest]⟩
  | .resume i a =>
      match loop.handlers[i]? with
      | some (.await next) =>
          let (shared, rest) := (next a).advance loop.shared
          some ⟨shared, loop.handlers.set i rest⟩
      | _ => none

variable {I : σ → Prop}

/-- A handler at an await will keep the invariant behind it. -/
def Resumable (I : σ → Prop) : Coroutine σ α Unit → Prop
  | .done _ => True
  | .atomic _ _ => False
  | .await next => ∀ a s, I s → (next a).Keeps I (fun _ s' => I s') s

theorem keeps_advance {c : Coroutine σ α Unit} {s : σ} (h : c.Keeps I (fun _ s' => I s') s) :
    I (c.advance s).1 ∧ Resumable I (c.advance s).2 := by
  induction c generalizing s with
  | done b => exact ⟨h, trivial⟩
  | atomic write next ih => exact ih s h
  | await next ih => exact h

def Sound (I : σ → Prop) (loop : EventLoop σ α) : Prop :=
  I loop.shared ∧ ∀ c ∈ loop.handlers, Resumable I c

theorem Sound.step {P : ε → Prop} (hstable : ∀ event, P event → Stable I (handler event))
    {loop loop' : EventLoop σ α} {turn : Turn ε α} (h : Sound I loop)
    (hturn : ∀ event, turn = .call event → P event) (hstep : step handler loop turn = some loop') :
    Sound I loop' := by
  cases turn with
  | call event =>
    obtain rfl := Option.some.inj hstep
    obtain ⟨hshared, hrest⟩ := keeps_advance (hstable event (hturn event rfl) loop.shared h.1)
    refine ⟨hshared, fun c hc => ?_⟩
    rcases List.mem_append.mp hc with hold | hnew
    · exact h.2 c hold
    · exact List.mem_singleton.mp hnew ▸ hrest
  | resume i a =>
    unfold EventLoop.step at hstep
    dsimp only at hstep
    cases hget : loop.handlers[i]? with
    | none =>
      rw [hget] at hstep
      cases hstep
    | some c =>
      rw [hget] at hstep
      cases c with
      | done b => cases hstep
      | atomic write next => cases hstep
      | await next =>
        obtain rfl := Option.some.inj hstep
        obtain ⟨hshared, hrest⟩ :=
          keeps_advance (h.2 _ (List.mem_of_getElem? hget) a loop.shared h.1)
        refine ⟨hshared, fun c hc => ?_⟩
        rcases List.mem_or_eq_of_mem_set hc with hold | rfl
        · exact h.2 c hold
        · exact hrest

/-- **Stable handlers keep the invariant**, in whatever order they are called and resumed. -/
theorem stable_of_run {P : ε → Prop} (hstable : ∀ event, P event → Stable I (handler event))
    {s : σ} {turns : List (Turn ε α)} {loop : EventLoop σ α} (hs : I s)
    (hturns : ∀ event, .call event ∈ turns → P event)
    (hrun : StepSystem.run (step handler) ⟨s, []⟩ turns = some loop) : I loop.shared := by
  have hcalls : StepSystem.AlongRun (step handler)
      (fun _ turn => ∀ event, turn = .call event → P event) ⟨s, []⟩ turns :=
    StepSystem.alongRun_of_forall (step handler)
      (p := fun turn => ∀ event, turn = .call event → P event)
      fun turn hturn event hcall => hturns event (hcall ▸ hturn)
  exact (StepSystem.invariant_of_alongRun (step handler) (I := Sound I)
    (fun _ _ _ h hturn hstep => Sound.step handler hstable h hturn hstep) ⟨hs, by simp⟩ hcalls
    hrun).1

end EventLoop
