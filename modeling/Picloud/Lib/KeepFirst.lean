import Mathlib.Data.List.Basic
import Mathlib.Tactic.Common

/-!
# The first of each key

`keepFirst key seen as` passes over the elements whose key has occurred before, in `seen` or in the
list; elements without a key are kept. What is kept of one key is the first element that has it
(`filter_keepFirst`). A part of the list can be taken before or after, with the same result, exactly when
no key of the part is first that of another element (`filter_keepFirst_eq_iff`).
-/

namespace Lib

variable {α κ : Type*} [DecidableEq κ] (key : α → Option κ)

/-- Keep the elements without a key, and the first of each key that has not been seen. -/
def keepFirst : List κ → List α → List α
  | _, [] => []
  | seen, a :: as =>
    match key a with
    | none => a :: keepFirst seen as
    | some k => if k ∈ seen then keepFirst seen as else a :: keepFirst (k :: seen) as

variable {key}

variable {seen : List κ} {as : List α}

/-- Only which keys have been seen matters. -/
theorem keepFirst_congr {seen' : List κ} (h : ∀ k, k ∈ seen ↔ k ∈ seen') (as : List α) :
    keepFirst key seen as = keepFirst key seen' as := by
  induction as generalizing seen seen' with
  | nil => rfl
  | cons a as ih =>
    rw [keepFirst, keepFirst]
    cases key a with
    | none => simp only [ih h]
    | some k =>
      have hcons : ∀ l, l ∈ k :: seen ↔ l ∈ k :: seen' := fun l => by
        rw [List.mem_cons, List.mem_cons, h]
      simp only [h k, ih h, ih hcons]

theorem keepFirst_sublist (seen : List κ) (as : List α) : (keepFirst key seen as).Sublist as := by
  induction as generalizing seen with
  | nil => exact List.Sublist.refl []
  | cons a as ih =>
    rw [keepFirst]
    cases key a with
    | none => exact (ih seen).cons_cons a
    | some k =>
      dsimp only
      split_ifs
      · exact (ih seen).cons a
      · exact (ih (k :: seen)).cons_cons a

/-- What is kept of a key that has been seen: nothing. What is kept of another key: the first
element that has it. -/
theorem filter_keepFirst (k : κ) (seen : List κ) (as : List α) :
    (keepFirst key seen as).filter (fun a => key a = some k) =
      if k ∈ seen then [] else (as.find? fun a => key a = some k).toList := by
  induction as generalizing seen with
  | nil => simp [keepFirst]
  | cons a as ih =>
    rw [keepFirst]
    cases ha : key a with
    | none => simp [ha, ih]
    | some l =>
      by_cases hl : l ∈ seen
      · have hne : k ∉ seen → ¬ l = k := fun hk heq => hk (heq ▸ hl)
        simp only [hl, if_true, ih, List.find?_cons, ha, Option.some.injEq]
        split_ifs with hk
        · rfl
        · simp [hne hk]
      · by_cases heq : l = k
        · subst heq
          simp [ha, hl, ih]
        · simp [ha, hl, heq, Ne.symm heq, ih]

/-- A key of the list that has not been seen is the key of an element that is kept. -/
theorem exists_mem_keepFirst {a : α} {k : κ} (ha : a ∈ as) (hk : key a = some k) (hseen : k ∉ seen) :
    ∃ b ∈ keepFirst key seen as, key b = some k := by
  have hkept : (keepFirst key seen as).filter (fun a => key a = some k) ≠ [] := by
    rw [filter_keepFirst, if_neg hseen, ne_eq, Option.toList_eq_nil_iff, List.find?_eq_none]
    exact fun h => h a ha (by simpa using hk)
  obtain ⟨b, hb⟩ := List.exists_mem_of_ne_nil _ hkept
  rw [List.mem_filter] at hb
  exact ⟨b, hb.1, by simpa using hb.2⟩

/-! ## A part of the list -/

variable {P : α → Bool}

/-- An element of the part, the first in it with its key, comes after another one with this key. -/
def KeyTaken (key : α → Option κ) (P : α → Bool) (as : List α) : Prop :=
  ∃ before a after k, as = before ++ a :: after ∧ P a = true ∧ key a = some k ∧
    (∃ b ∈ before, key b = some k) ∧ ∀ b ∈ before, P b = true → key b ≠ some k

/-- As long as no key is taken, in the list or in what has been seen, the part is kept alone. -/
theorem filter_keepFirst_of_free {seen' : List κ} (hsub : ∀ k ∈ seen', k ∈ seen)
    (hfree : ∀ before a after k, as = before ++ a :: after → P a = true → key a = some k →
      k ∉ seen' → (∀ b ∈ before, P b = true → key b ≠ some k) →
      k ∉ seen ∧ ∀ b ∈ before, key b ≠ some k) :
    (keepFirst key seen as).filter P = keepFirst key seen' (as.filter P) := by
  induction as generalizing seen seen' with
  | nil => rfl
  | cons a as ih =>
    -- what the condition says behind the first element
    have hrest : ∀ before b after k, as = before ++ b :: after → P b = true → key b = some k →
        k ∉ seen' → (P a = true → key a ≠ some k) →
        (∀ c ∈ before, P c = true → key c ≠ some k) →
        k ∉ seen ∧ key a ≠ some k ∧ ∀ c ∈ before, key c ≠ some k := by
      intro before b after k heq hb hk hseen ha hbefore
      have hall := hfree (a :: before) b after k (by rw [heq, List.cons_append]) hb hk hseen
        (List.forall_mem_cons.mpr ⟨ha, hbefore⟩)
      exact ⟨hall.1, (List.forall_mem_cons.mp hall.2).1, (List.forall_mem_cons.mp hall.2).2⟩
    rw [keepFirst]
    cases ha : key a with
    | none =>
      have hnext := ih hsub fun before b after k heq hb hk hseen hbefore =>
        have hall := hrest before b after k heq hb hk hseen (fun _ h => nomatch ha.symm.trans h) hbefore
        ⟨hall.1, hall.2.2⟩
      cases hP : P a with
      | true => simp [hP, keepFirst, ha, hnext]
      | false => simp [hP, hnext]
    | some l =>
      by_cases hl : l ∈ seen
      · have hin : P a = true → l ∈ seen' := fun hP => by
          by_contra hl'
          exact (hfree [] a as l rfl hP ha hl' fun b hb => absurd hb List.not_mem_nil).1 hl
        have hnext := ih hsub fun before b after k heq hb hk hseen hbefore =>
          have hall := hrest before b after k heq hb hk hseen
            (fun hP h => hseen (Option.some.inj (ha.symm.trans h) ▸ hin hP)) hbefore
          ⟨hall.1, hall.2.2⟩
        cases hP : P a with
        | true => simp [hP, keepFirst, ha, hl, hin hP, hnext]
        | false => simp [hP, hl, hnext]
      · have hl' : l ∉ seen' := fun h => hl (hsub l h)
        cases hP : P a with
        | true =>
          have hnext : (keepFirst key (l :: seen) as).filter P =
              keepFirst key (l :: seen') (as.filter P) := ih
            (fun k hk => List.mem_cons.mpr ((List.mem_cons.mp hk).imp id (hsub k)))
            fun before b after k heq hb hk hseen hbefore =>
              have hne : k ≠ l := fun h => hseen (h ▸ List.mem_cons_self)
              have hall := hrest before b after k heq hb hk
                (fun h => hseen (List.mem_cons_of_mem l h))
                (fun _ h => hne (Option.some.inj (h.symm.trans ha))) hbefore
              ⟨fun h => (List.mem_cons.mp h).elim hne hall.1, hall.2.2⟩
          simp [hP, keepFirst, ha, hl, hl', hnext]
        | false =>
          have hnext : (keepFirst key (l :: seen) as).filter P =
              keepFirst key seen' (as.filter P) := ih
            (fun k hk => List.mem_cons_of_mem l (hsub k hk))
            fun before b after k heq hb hk hseen hbefore =>
              have hall := hrest before b after k heq hb hk hseen
                (fun hP' => absurd hP' (by rw [hP]; decide)) hbefore
              ⟨fun h => (List.mem_cons.mp h).elim
                (fun heq' => hall.2.1 (by rw [ha, heq'])) hall.1, hall.2.2⟩
          simp [hP, hl, hnext]

/-- A part is kept alone exactly when none of its keys is taken. -/
theorem filter_keepFirst_eq_iff :
    (keepFirst key [] as).filter P = keepFirst key [] (as.filter P) ↔ ¬ KeyTaken key P as := by
  constructor
  · rintro heq ⟨before, a, after, k, rfl, ha, hk, ⟨c, hc, hck⟩, hfirst⟩
    have hmem : a ∈ (before ++ a :: after).filter P := by simp [ha]
    obtain ⟨b, hb, hbk⟩ := exists_mem_keepFirst hmem hk List.not_mem_nil
    rw [← heq, List.mem_filter] at hb
    have hfound : (keepFirst key [] (before ++ a :: after)).filter (fun x => key x = some k) =
        ((before ++ a :: after).find? fun x => key x = some k).toList := by
      rw [filter_keepFirst, if_neg List.not_mem_nil]
    rw [List.find?_append] at hfound
    have hb' : b ∈ (keepFirst key [] (before ++ a :: after)).filter fun x => key x = some k :=
      List.mem_filter.mpr ⟨hb.1, by simpa using hbk⟩
    -- the only element with this key stands before the part's own
    cases hfind : before.find? fun x => key x = some k with
    | none => exact List.find?_eq_none.mp hfind c hc (by simpa using hck)
    | some d =>
      rw [hfound, hfind, Option.some_or, Option.toList_some, List.mem_singleton] at hb'
      subst hb'
      exact hfirst b (List.mem_of_find?_eq_some hfind) hb.2 hbk
  · intro hfree
    refine filter_keepFirst_of_free (fun k hk => hk) fun before a after k heq ha hk _ hfirst =>
      ⟨List.not_mem_nil, fun b hb hbk => ?_⟩
    exact hfree ⟨before, a, after, k, heq, ha, hk, ⟨b, hb, hbk⟩, hfirst⟩

end Lib
