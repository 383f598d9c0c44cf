import Mathlib.Data.List.Nodup
import Mathlib.Algebra.BigOperators.Group.List.Basic
import Mathlib.Tactic.Common

/-!
# Association lists

The entries of a hash map, in any order: the first entry for a key counts, and `set` and `erase`
leave one and no entry for their key.
-/

-- what holds of every member of a list is decided along the list, also for characters
attribute [instance (2000)] List.decidableBAll

namespace Lib

/-- The entries of a map. -/
abbrev Assoc (K V : Type*) := List (K × V)

namespace Assoc

variable {K V : Type*} [DecidableEq K]

/-- The value under a key. -/
def get (m : Assoc K V) (k : K) : Option V := (m.find? (·.1 = k)).map Prod.snd

/-- Remove the entries of a key. -/
def erase (m : Assoc K V) (k : K) : Assoc K V := m.filter (·.1 ≠ k)

/-- Set the value under a key. -/
def set (m : Assoc K V) (k : K) (v : V) : Assoc K V := (k, v) :: erase m k

omit [DecidableEq K] in
/-- The keys. -/
def keys (m : Assoc K V) : List K := m.map Prod.fst

variable {m : Assoc K V} {k k' : K}

theorem get_filter (f : K → Bool) (m : Assoc K V) (k : K) :
    get (m.filter fun e => f e.1) k = if f k then get m k else none := by
  induction m with
  | nil => simp [get]
  | cons e m ih =>
    by_cases hk : e.1 = k
    · by_cases hf : f k
      · simp [get, hk, hf]
      · simp only [List.filter_cons, hk, hf, Bool.false_eq_true, if_false]
        rw [ih, if_neg hf]
    · by_cases hf : f e.1
      · simpa [get, hf, List.find?_cons, hk] using ih
      · simpa [get, hf, List.find?_cons, hk] using ih

theorem get_erase_self (m : Assoc K V) (k : K) : get (erase m k) k = none := by
  rw [erase, get_filter (fun k' => decide (k' ≠ k))]
  simp

theorem get_erase_of_ne (m : Assoc K V) (h : k' ≠ k) : get (erase m k) k' = get m k' := by
  rw [erase, get_filter (fun k' => decide (k' ≠ k)), if_pos (decide_eq_true h)]

@[simp] theorem get_set_self (m : Assoc K V) (k : K) (v : V) : get (set m k v) k = some v := by
  simp [get, set]

theorem get_set_of_ne (m : Assoc K V) (v : V) (h : k' ≠ k) : get (set m k v) k' = get m k' := by
  rw [get, set, List.find?_cons_of_neg (by simpa using Ne.symm h)]
  exact get_erase_of_ne m h

theorem mem_of_get {v : V} (h : get m k = some v) : (k, v) ∈ m := by
  obtain ⟨e, hfind, rfl⟩ := Option.map_eq_some_iff.mp h
  have hk : e.1 = k := by simpa using List.find?_some hfind
  exact hk ▸ List.mem_of_find?_eq_some hfind

@[simp] theorem mem_set {v : V} {e : K × V} :
    e ∈ set m k v ↔ e = (k, v) ∨ e ∈ m ∧ e.1 ≠ k := by
  simp [set, erase]

/-! ## One entry for every key -/

theorem get_of_mem (h : (keys m).Nodup) {v : V} (hmem : (k, v) ∈ m) : get m k = some v := by
  induction m with
  | nil => simp at hmem
  | cons e m ih =>
    obtain ⟨hnotMem, hnodup⟩ := List.nodup_cons.mp h
    rcases List.mem_cons.mp hmem with rfl | hmem
    · simp [get]
    · have hne : e.1 ≠ k := fun heq => hnotMem (heq ▸ List.mem_map_of_mem hmem)
      have hcons : get (e :: m) k = get m k := by simp [get, hne]
      rw [hcons, ih hnodup hmem]

theorem notMem_keys_erase (m : Assoc K V) (k : K) : k ∉ keys (erase m k) := by
  intro hk
  obtain ⟨e, he, rfl⟩ := List.mem_map.mp hk
  exact of_decide_eq_true (List.mem_filter.mp he).2 rfl

theorem nodup_keys_erase (h : (keys m).Nodup) (k : K) : (keys (erase m k)).Nodup :=
  h.sublist (List.filter_sublist.map Prod.fst)

theorem nodup_keys_set (h : (keys m).Nodup) (k : K) (v : V) : (keys (set m k v)).Nodup :=
  List.nodup_cons.mpr ⟨notMem_keys_erase m k, nodup_keys_erase h k⟩

theorem erase_of_notMem (h : k ∉ keys m) : erase m k = m := by
  refine List.filter_eq_self.mpr fun e he => decide_eq_true fun hk => h ?_
  exact List.mem_map.mpr ⟨e, he, hk⟩

/-- Removing a key takes away what its entry contributes to a sum. -/
theorem sum_erase_add {M : Type*} [AddCommMonoid M] (h : (keys m).Nodup) (k : K) (f : V → M) :
    ((erase m k).map fun e => f e.2).sum + ((get m k).map f).getD 0 =
      (m.map fun e => f e.2).sum := by
  induction m with
  | nil => exact add_zero 0
  | cons e m ih =>
    obtain ⟨hnotMem, hnodup⟩ := List.nodup_cons.mp h
    by_cases hk : e.1 = k
    · have hrest : erase (e :: m) k = m := by
        rw [erase, List.filter_cons_of_neg (by simpa using hk)]
        exact erase_of_notMem (hk ▸ hnotMem)
      have hget : get (e :: m) k = some e.2 := by simp [get, hk]
      rw [hrest, hget, List.map_cons, List.sum_cons]
      exact add_comm _ _
    · have hrest : erase (e :: m) k = e :: erase m k :=
        List.filter_cons_of_pos (by simpa using hk)
      have hget : get (e :: m) k = get m k := by simp [get, hk]
      rw [hrest, hget, List.map_cons, List.map_cons, List.sum_cons, List.sum_cons, add_assoc,
        ih hnodup]

/-- Setting a value adds what it contributes and takes away what was there. -/
theorem sum_set_add {M : Type*} [AddCommMonoid M] (h : (keys m).Nodup) (k : K) (v : V) (f : V → M) :
    ((set m k v).map fun e => f e.2).sum + ((get m k).map f).getD 0 =
      (m.map fun e => f e.2).sum + f v := by
  rw [set, List.map_cons, List.sum_cons, add_assoc, sum_erase_add h]
  exact add_comm _ _

end Assoc

end Lib
