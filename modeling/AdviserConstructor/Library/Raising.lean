import Mathlib.Tactic.TypeStar

/-!
# Computations that may raise

A piece of imperative code works on a state and either returns or raises.  What it has done to the
state before it raises is there all the same, and may matter: calls that have gone out to another
system are not taken back with the local transaction.

`Raising σ` is where such code has got to.  An invariant that must also hold where something is
raised is one of `Raising.state`, and `andThen_keeps` and `each_keeps` are its rules for a sequence
and for a loop over a list.  `map_andThen` and `map_each` are those for a computation that is seen
through a function, such as one that drops a log.
-/

/-- Where a computation on a state has got to. -/
inductive Raising (σ : Type*) where
  | done (s : σ)
  | raised (s : σ)
  deriving DecidableEq, Repr

namespace Raising

variable {σ α : Type*}

/-- The state, whether something was raised or not. -/
def state : Raising σ → σ
  | .done s => s
  | .raised s => s

/-- One computation after the other, unless the first one raises. -/
def andThen (r : Raising σ) (f : σ → Raising σ) : Raising σ :=
  match r with
  | .done s => f s
  | .raised s => .raised s

/-- A loop over a list, which ends where something is raised. -/
def each (f : α → σ → Raising σ) : List α → σ → Raising σ
  | [], s => .done s
  | a :: as, s => (f a s).andThen (each f as)

/-- The state of a computation, seen through a function. -/
def map {τ : Type*} (f : σ → τ) : Raising σ → Raising τ
  | .done s => .done (f s)
  | .raised s => .raised (f s)

section

variable {τ : Type*} {p : σ → τ}

/-- One computation after the other, seen through a function that the second one commutes with. -/
theorem map_andThen {r : Raising σ} {f : σ → Raising σ} {g : τ → Raising τ}
    (hf : ∀ s, (f s).map p = g (p s)) : (r.andThen f).map p = (r.map p).andThen g := by
  cases r with
  | done s => exact hf s
  | raised s => rfl

/-- A loop, seen through a function that its iterations commute with. -/
theorem map_each {f : α → σ → Raising σ} {g : α → τ → Raising τ}
    (hf : ∀ a s, (f a s).map p = g a (p s)) (as : List α) :
    ∀ s, (each f as s).map p = each g as (p s) := by
  induction as with
  | nil => exact fun _ => rfl
  | cons a as ih =>
    intro s
    rw [each, each, map_andThen ih, hf]

end

variable {I : σ → Prop}

/-- What two computations keep, is kept by one after the other. -/
theorem andThen_keeps {r : Raising σ} {f : σ → Raising σ} (hr : I r.state)
    (hf : ∀ s, I s → I (f s).state) : I (r.andThen f).state := by
  cases r with
  | done s => exact hf s hr
  | raised s => exact hr

/-- **Loops.**  What every iteration keeps, is kept by the loop, wherever it ends. -/
theorem each_keeps {f : α → σ → Raising σ} {as : List α}
    (hf : ∀ a ∈ as, ∀ s, I s → I (f a s).state) : ∀ {s}, I s → I (each f as s).state := by
  induction as with
  | nil => exact fun hs => hs
  | cons a as ih =>
    intro s hs
    have hhead : I (f a s).state := hf a (List.mem_cons_self ..) s hs
    exact andThen_keeps hhead fun s' hs' =>
      ih (fun b hb => hf b (List.mem_cons_of_mem _ hb)) hs'

end Raising
