import Mathlib.Data.List.Basic
import Mathlib.Data.List.Pairwise
import Mathlib.Data.List.Sort
import Mathlib.Order.Hom.Basic

/-!
# Ordered maps

An association list sorted by key: the observable behaviour of a B-tree map, whatever its nodes
look like. `mapEntries` carries a map along an order embedding of the keys, and every operation
commutes with it, which is what relates two maps whose keys are encodings of each other.
-/

namespace Lib

/-- A finite map whose entries are listed in strictly increasing key order. -/
structure OrdMap (K V : Type*) [LinearOrder K] where
  entries : List (K × V)
  sorted : entries.Pairwise fun a b => a.1 < b.1

namespace OrdMap

variable {K K' V V' : Type*} [LinearOrder K] [LinearOrder K']

variable {m : OrdMap K V} {k k' : K}

@[ext] theorem ext {m' : OrdMap K V} (h : m.entries = m'.entries) : m = m' := by
  cases m
  cases m'
  cases h
  rfl

/-- The empty map. -/
def empty : OrdMap K V := ⟨[], List.Pairwise.nil⟩

/-- Insert into a sorted list, replacing the entry that has the key. -/
def insertEntry (k : K) (v : V) : List (K × V) → List (K × V)
  | [] => [(k, v)]
  | e :: es =>
    if k < e.1 then (k, v) :: e :: es
    else if k = e.1 then (k, v) :: es
    else e :: insertEntry k v es

/-- Insertion adds only the inserted entry. -/
theorem mem_insertEntry_imp {v : V} {l : List (K × V)} {e : K × V} (h : e ∈ insertEntry k v l) :
    e = (k, v) ∨ e ∈ l := by
  induction l with
  | nil => exact Or.inl (List.mem_singleton.mp h)
  | cons a as ih =>
    rw [insertEntry] at h
    split_ifs at h
    · exact List.mem_cons.mp h
    · rcases List.mem_cons.mp h with h | h
      · exact Or.inl h
      · exact Or.inr (List.mem_cons_of_mem a h)
    · rcases List.mem_cons.mp h with h | h
      · exact Or.inr (h ▸ List.mem_cons_self)
      · exact (ih h).imp_right (List.mem_cons_of_mem a)

theorem sorted_insertEntry (k : K) (v : V) {l : List (K × V)}
    (h : l.Pairwise fun a b => a.1 < b.1) :
    (insertEntry k v l).Pairwise fun a b => a.1 < b.1 := by
  induction l with
  | nil => exact List.pairwise_singleton _ _
  | cons a as ih =>
    rw [List.pairwise_cons] at h
    rw [insertEntry]
    split_ifs with hlt heq
    · refine List.pairwise_cons.mpr ⟨?_, List.pairwise_cons.mpr h⟩
      intro b hb
      rcases List.mem_cons.mp hb with rfl | hb
      · exact hlt
      · exact hlt.trans (h.1 b hb)
    · exact List.pairwise_cons.mpr ⟨fun b hb => heq ▸ h.1 b hb, h.2⟩
    · refine List.pairwise_cons.mpr ⟨?_, ih h.2⟩
      intro b hb
      rcases mem_insertEntry_imp hb with rfl | hb
      · exact lt_of_le_of_ne (not_lt.mp hlt) (Ne.symm heq)
      · exact h.1 b hb

/-- `insert`: add a binding, replacing the one the key has. -/
def insert (m : OrdMap K V) (k : K) (v : V) : OrdMap K V :=
  ⟨insertEntry k v m.entries, sorted_insertEntry k v m.sorted⟩

/-- Keep the entries whose key satisfies a test. -/
def filterKeys (p : K → Bool) (m : OrdMap K V) : OrdMap K V :=
  ⟨m.entries.filter fun e => p e.1, m.sorted.filter _⟩

/-- `remove`: drop the binding of a key. -/
def remove (m : OrdMap K V) (k : K) : OrdMap K V := m.filterKeys fun k' => k' ≠ k

/-- Remove keys one after another, in list order. -/
def removeAll (m : OrdMap K V) (ks : List K) : OrdMap K V := ks.foldl remove m

/-- `get`: the value bound to a key. -/
def get (m : OrdMap K V) (k : K) : Option V :=
  (m.entries.find? fun e => e.1 = k).map Prod.snd

/-- The keys in increasing order. -/
def keys (m : OrdMap K V) : List K := m.entries.map Prod.fst

/-- The values in increasing key order. -/
def values (m : OrdMap K V) : List V := m.entries.map Prod.snd

/-- `last`: the entry with the greatest key. -/
def last (m : OrdMap K V) : Option (K × V) := m.entries.getLast?

/-! ## Ranges -/

/-- One end of a range of keys. -/
inductive Bound (K : Type*) where
  | included (k : K)
  | excluded (k : K)
  | unbounded
deriving DecidableEq

/-- The key lies after the lower end. -/
def Bound.isBelow (lo : Bound K) (k : K) : Bool :=
  match lo with
  | .included a => a ≤ k
  | .excluded a => a < k
  | .unbounded => true

/-- The key lies before the upper end. -/
def Bound.isAbove (hi : Bound K) (k : K) : Bool :=
  match hi with
  | .included b => k ≤ b
  | .excluded b => k < b
  | .unbounded => true

/-- `RangeBounds::contains`. -/
def inRange (lo hi : Bound K) (k : K) : Bool := lo.isBelow k && hi.isAbove k

/-- The key at a finite end. -/
def Bound.key : Bound K → Option K
  | .included k | .excluded k => some k
  | .unbounded => none

/-- The start of the range is not after its end. -/
def Ordered (lo hi : Bound K) : Prop := ∀ a ∈ lo.key, ∀ b ∈ hi.key, a ≤ b

instance (lo hi : Bound K) : Decidable (Ordered lo hi) := by
  unfold Ordered
  infer_instance

/-- Both ends exclude the same key. -/
def BothExclude (lo hi : Bound K) : Prop := ∃ k, lo = .excluded k ∧ hi = .excluded k

instance (lo hi : Bound K) : Decidable (BothExclude lo hi) :=
  match lo, hi with
  | .excluded a, .excluded b => decidable_of_iff (a = b) (by simp [BothExclude, eq_comm])
  | .included _, _ | .unbounded, _ | .excluded _, .included _ | .excluded _, .unbounded =>
    isFalse (by simp [BothExclude])

/-- The entries of a range of keys; `none` where the B-tree map panics: when the start is after the
end, and when both ends exclude the same key. -/
def range (lo hi : Bound K) (m : OrdMap K V) : Option (List (K × V)) :=
  if Ordered lo hi ∧ ¬ BothExclude lo hi then some (m.entries.filter fun e => inRange lo hi e.1)
  else none

/-! ## Reading after writing -/

private theorem find?_insertEntry (k : K) (v : V) (k' : K) (l : List (K × V)) :
    (insertEntry k v l).find? (fun e => e.1 = k') =
      if k = k' then some (k, v) else l.find? fun e => e.1 = k' := by
  induction l with
  | nil => by_cases h : k = k' <;> simp [insertEntry, h]
  | cons a as ih =>
    by_cases h : k = k'
    · subst h
      rw [insertEntry, if_pos rfl]
      split_ifs with hlt heq
      · simp
      · simp
      · rw [List.find?_cons_of_neg (by simpa using fun h => heq h.symm), ih, if_pos rfl]
    · rw [insertEntry, if_neg h]
      split_ifs with hlt heq
      · rw [List.find?_cons_of_neg (by simpa using h)]
      · rw [List.find?_cons_of_neg (by simpa using h),
          List.find?_cons_of_neg (by simpa [← heq] using h)]
      · rw [List.find?_cons, List.find?_cons, ih, if_neg h]

@[simp] theorem get_insert_self (m : OrdMap K V) (k : K) (v : V) :
    (m.insert k v).get k = some v := by
  simp [get, insert, find?_insertEntry]

theorem get_insert_ne (m : OrdMap K V) (v : V) (h : k ≠ k') :
    (m.insert k v).get k' = m.get k' := by
  simp [get, insert, find?_insertEntry, h]

private theorem find?_filter_key (p : K → Bool) (k : K) (l : List (K × V)) :
    (l.filter fun e => p e.1).find? (fun e => e.1 = k) =
      if p k then l.find? fun e => e.1 = k else none := by
  induction l with
  | nil => simp
  | cons a as ih =>
    rw [List.filter_cons, List.find?_cons]
    by_cases hk : a.1 = k
    · by_cases hp : p k
      · simp [hk, hp]
      · simp only [hk, hp, Bool.false_eq_true, if_false, ih]
    · by_cases hp : p a.1
      · simp only [hp, if_true, List.find?_cons, hk, decide_false, ih]
      · simp only [hp, Bool.false_eq_true, if_false, hk, decide_false, ih]

@[simp] theorem get_filterKeys (p : K → Bool) (m : OrdMap K V) (k : K) :
    (m.filterKeys p).get k = if p k then m.get k else none := by
  rw [get, filterKeys, find?_filter_key]
  split_ifs <;> rfl

@[simp] theorem get_remove_self (m : OrdMap K V) (k : K) : (m.remove k).get k = none := by
  simp [remove]

theorem get_remove_ne (m : OrdMap K V) (h : k' ≠ k) :
    (m.remove k).get k' = m.get k' := by
  simp [remove, h]

/-! ## Removing a set of keys -/

/-- Removing keys one by one keeps exactly the entries whose key is not listed. -/
theorem removeAll_eq_filterKeys (m : OrdMap K V) (ks : List K) :
    m.removeAll ks = m.filterKeys fun k => k ∉ ks := by
  induction ks generalizing m with
  | nil =>
    ext1
    simp [removeAll, filterKeys]
  | cons k ks ih =>
    have hrec : m.removeAll (k :: ks) = (m.remove k).removeAll ks := rfl
    rw [hrec, ih]
    ext1
    -- two filters in a row are one filter with both tests
    simp only [filterKeys, remove, List.filter_filter]
    apply List.filter_congr
    intro e _
    by_cases h : e.1 = k <;> simp [h]

/-! ## Keys -/

theorem keys_sortedLT (m : OrdMap K V) : m.keys.SortedLT := by
  refine List.Pairwise.sortedLT ?_
  rw [keys, List.pairwise_map]
  exact m.sorted

theorem filter_keys_sortedLT (m : OrdMap K V) (p : K → Bool) : (m.keys.filter p).SortedLT :=
  (m.keys_sortedLT.pairwise.filter p).sortedLT

theorem mem_keys_insert {v : V} :
    k' ∈ (m.insert k v).keys ↔ k' = k ∨ k' ∈ m.keys := by
  have hlist : ∀ l : List (K × V),
      k' ∈ (insertEntry k v l).map Prod.fst ↔ k' = k ∨ k' ∈ l.map Prod.fst := by
    intro l
    induction l with
    | nil => simp [insertEntry]
    | cons a as ih =>
      rw [insertEntry]
      split_ifs with hlt heq
      · simp
      · simp [heq]
      · rw [List.map_cons, List.map_cons, List.mem_cons, List.mem_cons, ih]
        exact or_left_comm
  exact hlist m.entries

theorem mem_keys_removeAll {ks : List K} :
    k ∈ (m.removeAll ks).keys ↔ k ∈ m.keys ∧ k ∉ ks := by
  rw [removeAll_eq_filterKeys, keys, filterKeys, keys]
  constructor
  · intro h
    obtain ⟨e, he, rfl⟩ := List.mem_map.mp h
    rw [List.mem_filter] at he
    exact ⟨List.mem_map_of_mem he.1, by simpa using he.2⟩
  · rintro ⟨h, hk⟩
    obtain ⟨e, he, rfl⟩ := List.mem_map.mp h
    exact List.mem_map_of_mem (List.mem_filter.mpr ⟨he, by simpa using hk⟩)

theorem mem_entries_removeAll_imp {ks : List K} {e : K × V} (h : e ∈ (m.removeAll ks).entries) :
    e ∈ m.entries := by
  rw [removeAll_eq_filterKeys] at h
  exact (List.mem_filter.mp h).1

/-! ## Transport along an order embedding of the keys -/

/-- Apply an order embedding to the keys and a function to the values. -/
def mapEntries (f : K ↪o K') (g : V → V') (m : OrdMap K V) : OrdMap K' V' :=
  ⟨m.entries.map fun e => (f e.1, g e.2), by
    rw [List.pairwise_map]
    exact m.sorted.imp fun h => f.lt_iff_lt.mpr h⟩

variable (f : K ↪o K') (g : V → V')

theorem mapEntries_insert (m : OrdMap K V) (k : K) (v : V) :
    (m.insert k v).mapEntries f g = (m.mapEntries f g).insert (f k) (g v) := by
  ext1
  simp only [mapEntries, insert]
  induction m.entries with
  | nil => rfl
  | cons a as ih =>
    simp only [insertEntry, List.map_cons, f.lt_iff_lt, f.injective.eq_iff]
    split_ifs
    · rfl
    · rfl
    · rw [List.map_cons, ih]

theorem mapEntries_filterKeys (m : OrdMap K V) (p : K → Bool) (p' : K' → Bool)
    (h : ∀ k, p' (f k) = p k) :
    (m.filterKeys p).mapEntries f g = (m.mapEntries f g).filterKeys p' := by
  ext1
  simp only [mapEntries, filterKeys, List.filter_map]
  congr 1
  apply List.filter_congr
  intro e _
  simp [h]

theorem mapEntries_removeAll (m : OrdMap K V) (ks : List K) :
    (m.removeAll ks).mapEntries f g = (m.mapEntries f g).removeAll (ks.map f) := by
  rw [removeAll_eq_filterKeys, removeAll_eq_filterKeys]
  apply mapEntries_filterKeys
  intro k
  simp [f.injective.eq_iff]

theorem keys_mapEntries (m : OrdMap K V) : (m.mapEntries f g).keys = m.keys.map f := by
  simp [keys, mapEntries]

/-- The keys that pass a test, on either side. -/
theorem filter_keys_mapEntries (m : OrdMap K V) (p : K → Bool) (p' : K' → Bool)
    (h : ∀ k, p' (f k) = p k) :
    (m.mapEntries f g).keys.filter p' = (m.keys.filter p).map f := by
  rw [keys_mapEntries, List.filter_map]
  congr 1
  apply List.filter_congr
  intro k _
  exact h k

theorem last_mapEntries (m : OrdMap K V) :
    (m.mapEntries f g).last = m.last.map fun e => (f e.1, g e.2) := by
  simp [last, mapEntries]

end OrdMap

end Lib
