import Picloud.Lib.Assoc

/-!
# Reverse indexes

A reverse index lists, under each tag, the keys that carry it. A key is listed once for each time that its list
of tags names the tag, and taking a key out of the index takes all of these.
-/

namespace Lib

/-- Under each tag, the keys that carry it. -/
abbrev ReverseIndex (T K : Type*) := Assoc T (List K)

namespace ReverseIndex

variable {T K : Type*} [DecidableEq T] [DecidableEq K]

/-- The keys under a tag. -/
def keysAt (idx : ReverseIndex T K) (tag : T) : List K := (Assoc.get idx tag).getD []

/-- List the key under each of its tags. -/
def add (idx : ReverseIndex T K) (key : K) (tags : List T) : ReverseIndex T K :=
  tags.foldl (fun idx tag => Assoc.set idx tag (keysAt idx tag ++ [key])) idx

/-- Take the key out from under one tag; a tag without keys is dropped. -/
def removeAt (key : K) (idx : ReverseIndex T K) (tag : T) : ReverseIndex T K :=
  match Assoc.get idx tag with
  | none => idx
  | some keys =>
    let kept := keys.filter (· ≠ key)
    if kept = [] then Assoc.erase idx tag else Assoc.set idx tag kept

/-- Take the key out from under each of the tags. -/
def remove (idx : ReverseIndex T K) (key : K) (tags : List T) : ReverseIndex T K :=
  tags.foldl (removeAt key) idx

variable {idx : ReverseIndex T K} {key key' : K} {tag tag' : T} {tags : List T}

omit [DecidableEq K] in
@[simp] theorem keysAt_set {keys : List K} : keysAt (Assoc.set idx tag keys) tag' =
    if tag' = tag then keys else keysAt idx tag' := by
  by_cases h : tag' = tag
  · subst h
    simp [keysAt]
  · rw [if_neg h, keysAt, Assoc.get_set_of_ne idx keys h, keysAt]

theorem keysAt_removeAt : keysAt (removeAt key idx tag) tag' =
    if tag' = tag then (keysAt idx tag').filter (· ≠ key) else keysAt idx tag' := by
  unfold removeAt
  split
  · next hnone =>
    by_cases h : tag' = tag
    · subst h
      simp [keysAt, hnone]
    · rw [if_neg h]
  · next keys hkeys =>
    by_cases h : tag' = tag
    · subst h
      have hat : keysAt idx tag' = keys := by rw [keysAt, hkeys, Option.getD_some]
      rw [if_pos rfl, hat]
      dsimp only
      split
      · next hnil => rw [keysAt, Assoc.get_erase_self, hnil, Option.getD_none]
      · rw [keysAt_set, if_pos rfl]
    · rw [if_neg h]
      dsimp only
      split
      · rw [keysAt, Assoc.get_erase_of_ne idx h, keysAt]
      · rw [keysAt_set, if_neg h]

/-- A key that is added is listed once more for each mention of the tag. -/
theorem count_add : (keysAt (add idx key tags) tag).count key' =
    (keysAt idx tag).count key' + if key' = key then tags.count tag else 0 := by
  induction tags generalizing idx with
  | nil => simp [add]
  | cons t tags ih =>
    rw [add, List.foldl_cons]
    refine ih.trans ?_
    rw [keysAt_set]
    by_cases ht : tag = t
    · subst ht
      by_cases hk : key' = key
      · subst hk
        rw [if_pos rfl, if_pos rfl, if_pos rfl, List.count_append, List.count_singleton_self,
          List.count_cons_self]
        omega
      · simp [hk, List.count_append, Ne.symm hk]
    · simp [ht, Ne.symm ht]

/-- A key that is removed is listed no more under its tags. -/
theorem count_remove : (keysAt (remove idx key tags) tag).count key' =
    if key' = key ∧ tag ∈ tags then 0 else (keysAt idx tag).count key' := by
  induction tags generalizing idx with
  | nil => simp [remove]
  | cons t tags ih =>
    rw [remove, List.foldl_cons]
    refine ih.trans ?_
    rw [keysAt_removeAt]
    by_cases hk : key' = key
    · subst hk
      by_cases ht : tag = t
      · simp [ht, List.count_eq_zero]
      · simp [ht]
    · by_cases ht : tag = t
      · simp [ht, hk, List.count_filter]
      · simp [ht, hk]

end ReverseIndex

end Lib
