import Mathlib.Data.List.Induction
import Mathlib.Data.List.Nodup

/-!
# Dictionaries in insertion order

A finite map that remembers the order in which its keys were first inserted: assigning to a
key that is present changes the value in place, assigning to a new key appends, and removing
a key keeps the order of the others.  Iteration runs over `entries` in that order, so a loop
that stops at the first match stops at the oldest one.

That no key occurs twice is a field of the structure, so it never has to be carried along a
run by hand.  The two membership lemmas `mem_assign` and `mem_remove` say everything about
the two updates, and `get?_eq_some_iff` says that looking a key up and having it as an entry
are the same thing.
-/

/-- A dictionary in insertion order; no key occurs twice. -/
structure InsertionDict (κ ν : Type*) where
  entries : List (κ × ν)
  nodup_keys : (entries.map Prod.fst).Nodup

namespace InsertionDict

variable {κ ν : Type*}

variable {d : InsertionDict κ ν}

theorem ext {e : InsertionDict κ ν} (h : d.entries = e.entries) : d = e := by
  cases d
  cases e
  cases h
  rfl

def empty : InsertionDict κ ν := ⟨[], List.nodup_nil⟩

@[simp] theorem entries_empty : (empty : InsertionDict κ ν).entries = [] := rfl

variable {k k' : κ}

theorem eq_of_mem_of_fst_eq {v w : ν} (hv : (k, v) ∈ d.entries) (hw : (k, w) ∈ d.entries) :
    v = w := by
  have h := List.inj_on_of_nodup_map d.nodup_keys hv hw rfl
  exact congrArg Prod.snd h

variable [DecidableEq κ]

instance [DecidableEq ν] : DecidableEq (InsertionDict κ ν) := fun d e =>
  decidable_of_iff (d.entries = e.entries) ⟨ext, fun h => h ▸ rfl⟩

/-! ## Looking up -/

/-- The value of a key, if there is one. -/
def get? (d : InsertionDict κ ν) (k : κ) : Option ν :=
  (d.entries.find? fun e => e.1 = k).map Prod.snd

/-- The value of a key, or a default. -/
def getD (d : InsertionDict κ ν) (k : κ) (default : ν) : ν := (d.get? k).getD default

@[simp] theorem get?_empty (k : κ) : (empty : InsertionDict κ ν).get? k = none := rfl

theorem get?_eq_some_iff {v : ν} : d.get? k = some v ↔ (k, v) ∈ d.entries := by
  rw [get?, Option.map_eq_some_iff]
  constructor
  · rintro ⟨⟨k', v'⟩, hfind, rfl⟩
    have hk : k' = k := by simpa using List.find?_some hfind
    exact hk ▸ List.mem_of_find?_eq_some hfind
  · intro hmem
    cases hfind : d.entries.find? fun e => e.1 = k with
    | none => exact absurd (List.find?_eq_none.mp hfind _ hmem) (by simp)
    | some e =>
      refine ⟨e, rfl, ?_⟩
      have hk : e.1 = k := by simpa using List.find?_some hfind
      have he : (k, e.2) ∈ d.entries := hk ▸ List.mem_of_find?_eq_some hfind
      exact eq_of_mem_of_fst_eq he hmem

theorem get?_eq_none_iff : d.get? k = none ↔ ∀ v, (k, v) ∉ d.entries := by
  rw [Option.eq_none_iff_forall_ne_some]
  exact forall_congr' fun v => not_congr get?_eq_some_iff

theorem get?_eq_none_iff_not_mem : d.get? k = none ↔ k ∉ d.entries.map Prod.fst := by
  rw [get?_eq_none_iff, List.mem_map]
  constructor
  · rintro h ⟨⟨_, v⟩, hmem, rfl⟩
    exact h v hmem
  · exact fun h v hmem => h ⟨(k, v), hmem, rfl⟩

/-! ## Assigning -/

/-- Assign to a key that is present, in place. -/
def overwrite (k : κ) (v : ν) (entries : List (κ × ν)) : List (κ × ν) :=
  entries.map fun e => if e.1 = k then (e.1, v) else e

theorem map_fst_overwrite (k : κ) (v : ν) (entries : List (κ × ν)) :
    (overwrite k v entries).map Prod.fst = entries.map Prod.fst := by
  rw [overwrite, List.map_map]
  refine List.map_congr_left fun e _ => ?_
  simp only [Function.comp_apply]
  split <;> rfl

/-- `d[k] = v`. -/
def assign (d : InsertionDict κ ν) (k : κ) (v : ν) : InsertionDict κ ν :=
  if h : k ∈ d.entries.map Prod.fst then
    ⟨overwrite k v d.entries, by rw [map_fst_overwrite]; exact d.nodup_keys⟩
  else
    ⟨d.entries ++ [(k, v)], by
      rw [List.map_append, List.map_singleton, List.nodup_append]
      refine ⟨d.nodup_keys, List.nodup_singleton k, ?_⟩
      intro a ha b hb hab
      rw [List.mem_singleton] at hb
      rw [hab, hb] at ha
      exact h ha⟩

theorem entries_assign_of_mem (v : ν) (h : k ∈ d.entries.map Prod.fst) :
    (d.assign k v).entries = overwrite k v d.entries := by
  rw [assign, dif_pos h]

theorem entries_assign_of_not_mem (v : ν) (h : k ∉ d.entries.map Prod.fst) :
    (d.assign k v).entries = d.entries ++ [(k, v)] := by
  rw [assign, dif_neg h]

theorem mem_assign {v v' : ν} :
    (k', v') ∈ (d.assign k v).entries ↔
      (k' = k ∧ v' = v) ∨ (k' ≠ k ∧ (k', v') ∈ d.entries) := by
  unfold assign
  split
  · next h =>
    obtain ⟨⟨k₀, v₀⟩, hmem, hk₀⟩ := List.mem_map.mp h
    subst hk₀
    simp only [overwrite, List.mem_map]
    constructor
    · rintro ⟨⟨a, b⟩, hab, he⟩
      by_cases ha : a = k₀
      · rw [if_pos ha, Prod.mk.injEq] at he
        exact Or.inl ⟨he.1 ▸ ha, he.2.symm⟩
      · rw [if_neg ha] at he
        obtain ⟨rfl, rfl⟩ := he
        exact Or.inr ⟨ha, hab⟩
    · rintro (⟨rfl, rfl⟩ | ⟨hne, hmem'⟩)
      · exact ⟨(k', v₀), hmem, if_pos rfl⟩
      · exact ⟨(k', v'), hmem', if_neg hne⟩
  · next h =>
    have hne : ∀ {b : ν}, (k', b) ∈ d.entries → k' ≠ k := by
      rintro b hb rfl
      exact h (List.mem_map.mpr ⟨_, hb, rfl⟩)
    simp only [List.mem_append, List.mem_singleton, Prod.mk.injEq]
    constructor
    · rintro (hmem | heq)
      · exact Or.inr ⟨hne hmem, hmem⟩
      · exact Or.inl heq
    · rintro (heq | ⟨_, hmem⟩)
      · exact Or.inr heq
      · exact Or.inl hmem

@[simp] theorem get?_assign_self (d : InsertionDict κ ν) (k : κ) (v : ν) :
    (d.assign k v).get? k = some v :=
  get?_eq_some_iff.mpr (mem_assign.mpr (Or.inl ⟨rfl, rfl⟩))

theorem get?_assign_of_ne {v : ν} (h : k' ≠ k) : (d.assign k v).get? k' = d.get? k' := by
  refine Option.ext fun w => ?_
  rw [get?_eq_some_iff, get?_eq_some_iff, mem_assign]
  simp [h]

theorem get?_assign (d : InsertionDict κ ν) (k k' : κ) (v : ν) :
    (d.assign k v).get? k' = if k' = k then some v else d.get? k' := by
  split
  · next h => rw [h, get?_assign_self]
  · next h => exact get?_assign_of_ne h

/-! ## Removing -/

/-- `d.pop(k, None)`: remove a key if it is there. -/
def remove (d : InsertionDict κ ν) (k : κ) : InsertionDict κ ν :=
  ⟨d.entries.filter fun e => e.1 ≠ k, d.nodup_keys.sublist (List.filter_sublist.map _)⟩

theorem mem_remove {v : ν} : (k', v) ∈ (d.remove k).entries ↔ k' ≠ k ∧ (k', v) ∈ d.entries := by
  rw [remove, and_comm]
  simp

/-- The dictionary that a literal `{k₁: v₁, …}` builds. -/
def ofList (entries : List (κ × ν)) : InsertionDict κ ν :=
  entries.foldl (fun d e => d.assign e.1 e.2) empty

theorem get?_ofList (entries : List (κ × ν)) (k : κ) :
    (ofList entries).get? k = (entries.reverse.find? fun e => e.1 = k).map Prod.snd := by
  induction entries using List.reverseRecOn with
  | nil => rfl
  | append_singleton entries e ih =>
    have hassign : ofList (entries ++ [e]) = (ofList entries).assign e.1 e.2 := by
      unfold ofList
      rw [List.foldl_append]
      rfl
    rw [hassign, get?_assign, List.reverse_append, List.reverse_singleton, List.singleton_append]
    by_cases hk : k = e.1
    · rw [if_pos hk, List.find?_cons_of_pos (by simpa using hk.symm), Option.map_some]
    · rw [if_neg hk, List.find?_cons_of_neg (by simpa using Ne.symm hk), ih]

end InsertionDict
