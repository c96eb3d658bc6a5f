import Mathlib.Logic.Basic
import Mathlib.Data.Option.Basic

/-!
# Rows under a lock

A transaction locks the rows that it reads for update, works on objects in the memory of its
session, and makes them durable with its commit.  A row then has three values: the committed one,
which every other session reads; the stored one, which the statements of the locking transaction
itself read; and the object.  A session that does not flush by itself writes objects to the stored
values at the flushes that the code asks for, and at the commit.

A `LockedRow` has the three values and the owner of the lock.  A row that nobody has locked has the
same value three times, which `fresh`, `commit` and `rollback` see to.

* `Both.lock`, `Both.commit`, `Both.rollback`: what is true of the committed value and of the object
  stays true of both.
-/

/-- A row, and what the transaction that has locked it has made of it. -/
structure LockedRow (ω α : Type) where
  /-- the value that the other sessions read -/
  committed : α
  owner : Option ω := none
  /-- the value that the statements of the owner read -/
  stored : α
  /-- the value that the owner has in memory -/
  object : α

namespace LockedRow

variable {ω α : Type}

def fresh (a : α) : LockedRow ω α where
  committed := a
  stored := a
  object := a

def write (f : α → α) (row : LockedRow ω α) : LockedRow ω α := { row with object := f row.object }

@[simp] theorem owner_write (f : α → α) (row : LockedRow ω α) : (row.write f).owner = row.owner :=
  rfl

@[simp] theorem object_write (f : α → α) (row : LockedRow ω α) :
    (row.write f).object = f row.object := rfl

@[simp] theorem committed_write (f : α → α) (row : LockedRow ω α) :
    (row.write f).committed = row.committed := rfl

/-- The committed value and the object have the property. -/
def Both (P : α → Prop) (row : LockedRow ω α) : Prop := P row.committed ∧ P row.object

theorem both_fresh {P : α → Prop} {a : α} (h : P a) : (fresh a : LockedRow ω α).Both P := ⟨h, h⟩

variable [DecidableEq ω]

/-- Nobody but `w` has locked the row. -/
def FreeFor (w : ω) (row : LockedRow ω α) : Prop := row.owner = none ∨ row.owner = some w

instance (w : ω) (row : LockedRow ω α) : Decidable (row.FreeFor w) :=
  inferInstanceAs (Decidable (_ ∨ _))

/-- The value that a statement of `w` reads. -/
def view (w : ω) (row : LockedRow ω α) : α :=
  if row.owner = some w then row.stored else row.committed

/-- The value that `w` works with: its object, if it has one. -/
def seen (w : ω) (row : LockedRow ω α) : α :=
  if row.owner = some w then row.object else row.committed

/-- The lock of a row that is free for `w`.  The object of a row that `w` has locked before is
kept as it is. -/
def lock (w : ω) (row : LockedRow ω α) : LockedRow ω α :=
  if row.owner = some w then row
  else { row with owner := some w, stored := row.committed, object := row.committed }

/-- A flush of the session of `w`. -/
def flush (w : ω) (row : LockedRow ω α) : LockedRow ω α :=
  if row.owner = some w then { row with stored := row.object } else row

/-- The commit of the transaction of `w`. -/
def commit (w : ω) (row : LockedRow ω α) : LockedRow ω α :=
  if row.owner = some w then fresh row.object else row

/-- The rollback of the transaction of `w`. -/
def rollback (w : ω) (row : LockedRow ω α) : LockedRow ω α :=
  if row.owner = some w then fresh row.committed else row

/-! ## Owners -/

@[simp] theorem owner_lock (w : ω) (row : LockedRow ω α) : (row.lock w).owner = some w := by
  rw [lock]
  split
  · assumption
  · rfl

@[simp] theorem owner_flush (w : ω) (row : LockedRow ω α) : (row.flush w).owner = row.owner := by
  rw [flush]
  split <;> rfl

theorem commit_of_owner {w : ω} {row : LockedRow ω α} (h : row.owner = some w) :
    row.commit w = fresh row.object := if_pos h

theorem rollback_of_owner {w : ω} {row : LockedRow ω α} (h : row.owner = some w) :
    row.rollback w = fresh row.committed := if_pos h

theorem commit_of_owner_ne {w : ω} {row : LockedRow ω α} (h : row.owner ≠ some w) :
    row.commit w = row := if_neg h

theorem rollback_of_owner_ne {w : ω} {row : LockedRow ω α} (h : row.owner ≠ some w) :
    row.rollback w = row := if_neg h

/-! ## Values -/

@[simp] theorem object_flush (w : ω) (row : LockedRow ω α) :
    (row.flush w).object = row.object := by
  rw [flush]
  split <;> rfl

@[simp] theorem committed_flush (w : ω) (row : LockedRow ω α) :
    (row.flush w).committed = row.committed := by
  rw [flush]
  split <;> rfl

@[simp] theorem committed_lock (w : ω) (row : LockedRow ω α) :
    (row.lock w).committed = row.committed := by
  rw [lock]
  split <;> rfl

@[simp] theorem object_lock (w : ω) (row : LockedRow ω α) : (row.lock w).object = row.seen w := by
  rw [lock, seen]
  split <;> rfl

theorem seen_of_owner {w : ω} {row : LockedRow ω α} (h : row.owner = some w) :
    row.seen w = row.object := if_pos h

theorem view_of_owner_ne {w : ω} {row : LockedRow ω α} (h : row.owner ≠ some w) :
    row.view w = row.committed := if_neg h

theorem seen_write_lock (w : ω) (f : α → α) (row : LockedRow ω α) :
    ((row.lock w).write f).seen w = f (row.seen w) := by
  rw [seen_of_owner (by rw [owner_write, owner_lock]), object_write, object_lock]

theorem seen_write_lock_of_ne {v w : ω} (hne : v ≠ w) (f : α → α) {row : LockedRow ω α}
    (hfree : row.FreeFor w) : ((row.lock w).write f).seen v = row.seen v := by
  have hother : row.owner ≠ some v := by
    rcases hfree with howner | howner
    · rw [howner]
      exact nofun
    · rw [howner]
      exact fun h => hne (Option.some.inj h).symm
  rw [seen, owner_write, owner_lock, if_neg fun h => hne (Option.some.inj h).symm,
    committed_write, committed_lock, seen, if_neg hother]

/-! ## Properties of both values -/

namespace Both

variable {P : α → Prop} {row : LockedRow ω α}

theorem seen (h : row.Both P) (w : ω) : P (row.seen w) := by
  rw [LockedRow.seen]
  split
  · exact h.2
  · exact h.1

theorem lock (h : row.Both P) (w : ω) : (row.lock w).Both P := by
  refine ⟨?_, ?_⟩
  · rw [committed_lock]
    exact h.1
  · rw [object_lock]
    exact h.seen w

theorem commit (h : row.Both P) (w : ω) : (row.commit w).Both P := by
  rw [LockedRow.commit]
  split
  · exact ⟨h.2, h.2⟩
  · exact h

theorem rollback (h : row.Both P) (w : ω) : (row.rollback w).Both P := by
  rw [LockedRow.rollback]
  split
  · exact ⟨h.1, h.1⟩
  · exact h

end Both

end LockedRow
