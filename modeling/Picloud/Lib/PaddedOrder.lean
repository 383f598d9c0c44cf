import Mathlib.Order.PiLex
import Mathlib.Order.WellFounded

/-!
# The order of padded sequences, and choosing a greatest element

A list is read as a sequence that goes on with one value, and sequences are ordered at their first
difference. `compareAt` looks for this difference at some places one by one, which is enough when the
sequences agree at all the others (`compareAt_range_eq_lt`).

`selectBest` goes through a list and keeps what is better than the best so far. If a key in a linear
order says what is better, it ends in an element with the greatest key, in whatever order the elements
come (`selectBest_spec`).
-/

namespace Lib

/-! ## Sequences -/

section Compare

variable {α : Type*} [LinearOrder α]

/-- A list as a sequence that goes on with a value. -/
def padded (pad : α) (l : List α) : Lex (ℕ → α) := toLex fun i => l.getD i pad

/-- Compare two sequences at some places, up to their first difference. -/
def compareAt (f g : ℕ → α) : List ℕ → Ordering
  | [] => .eq
  | i :: places =>
    match compare (f i) (g i) with
    | .eq => compareAt f g places
    | other => other

variable {f g : ℕ → α}

theorem compareAt_swap (f g : ℕ → α) (places : List ℕ) :
    compareAt g f places = (compareAt f g places).swap := by
  induction places with
  | nil => rfl
  | cons i places ih =>
    rcases lt_trichotomy (f i) (g i) with h | h | h
    · simp [compareAt, compare_lt_iff_lt.mpr h, compare_gt_iff_gt.mpr h]
    · simp [compareAt, h, ih]
    · simp [compareAt, compare_lt_iff_lt.mpr h, compare_gt_iff_gt.mpr h]

/-- The comparison at consecutive places finds a first difference among them. -/
theorem compareAt_range'_eq_lt {start n : ℕ} :
    compareAt f g (List.range' start n) = .lt ↔
      ∃ i, start ≤ i ∧ i < start + n ∧ (∀ j, start ≤ j → j < i → f j = g j) ∧ f i < g i := by
  induction n generalizing start with
  | zero =>
    simp only [List.range'_zero, compareAt, reduceCtorEq, false_iff, not_exists]
    omega
  | succ n ih =>
    rw [List.range'_succ, compareAt]
    rcases lt_trichotomy (f start) (g start) with h | h | h
    · rw [compare_lt_iff_lt.mpr h]
      refine ⟨fun _ => ⟨start, le_refl _, by omega, fun j hj hlt => by omega, h⟩, fun _ => rfl⟩
    · rw [compare_eq_iff_eq.mpr h]
      dsimp only
      rw [ih]
      constructor
      · rintro ⟨i, hi, hbound, hagree, hlt⟩
        refine ⟨i, by omega, by omega, fun j hj hji => ?_, hlt⟩
        rcases Nat.eq_or_lt_of_le hj with rfl | hj
        · exact h
        · exact hagree j hj hji
      · rintro ⟨i, hi, hbound, hagree, hlt⟩
        have hne : i ≠ start := by
          rintro rfl
          exact absurd h hlt.ne
        exact ⟨i, by omega, by omega, fun j hj hji => hagree j (by omega) hji, hlt⟩
    · rw [compare_gt_iff_gt.mpr h]
      refine iff_of_false (by simp) ?_
      rintro ⟨i, hi, -, hagree, hlt⟩
      rcases Nat.eq_or_lt_of_le hi with rfl | hi
      · exact lt_asymm h hlt
      · exact h.ne' (hagree start (le_refl _) hi)

/-- If the sequences agree from a place on, comparing them before it is comparing them. -/
theorem compareAt_range_eq_lt {n : ℕ} (hagree : ∀ i, n ≤ i → f i = g i) :
    compareAt f g (List.range n) = .lt ↔ toLex f < toLex g := by
  rw [List.range_eq_range', compareAt_range'_eq_lt]
  constructor
  · rintro ⟨i, -, -, hbefore, hlt⟩
    exact ⟨i, fun j hj => hbefore j (Nat.zero_le _) hj, hlt⟩
  · rintro ⟨i, hbefore, hlt⟩
    refine ⟨i, Nat.zero_le _, ?_, fun j _ hj => hbefore j hj, hlt⟩
    by_contra hi
    exact hlt.ne (hagree i (by omega))

/-- Comparing two lists up to the longer one is comparing the padded sequences. -/
theorem compareAt_getD_eq_lt (pad : α) (a b : List α) :
    compareAt (a.getD · pad) (b.getD · pad) (List.range (max a.length b.length)) = .lt ↔
      padded pad a < padded pad b := by
  refine compareAt_range_eq_lt fun i hi => ?_
  have hend : ∀ l : List α, l.length ≤ i → l.getD i pad = pad := fun l hl => by
    rw [List.getD_eq_getElem?_getD, List.getElem?_eq_none hl, Option.getD_none]
  rw [hend a ((le_max_left _ _).trans hi), hend b ((le_max_right _ _).trans hi)]

end Compare

/-! ## Choosing -/

section Select

variable {β σ κ : Type*}

/-- Go through a list and keep what is better than the best so far, of what is allowed. -/
def selectBest (allowed : β → Bool) (better : β → σ → Bool) (make : β → σ) (best : Option σ)
    (bs : List β) : Option σ :=
  bs.foldl (fun best b =>
    if !allowed b then best
    else
      let isBetter := match best with
        | none => true
        | some current => better b current
      if isBetter then some (make b) else best) best

variable [LinearOrder κ] {allowed : β → Bool} {better : β → σ → Bool} {make : β → σ} {key : β → κ}
  {keyOf : σ → κ}

variable (allowed keyOf)

/-- What is chosen at the end has the greatest key, of what was chosen before and what is allowed. -/
theorem selectBest_some (hmake : ∀ b, keyOf (make b) = key b)
    (hbetter : ∀ b s, better b s = true ↔ keyOf s < key b) (s : σ) (bs : List β) :
    ∃ s', selectBest allowed better make (some s) bs = some s' ∧
      (s' = s ∨ ∃ b ∈ bs, allowed b = true ∧ s' = make b) ∧ keyOf s ≤ keyOf s' ∧
        ∀ b ∈ bs, allowed b = true → key b ≤ keyOf s' := by
  induction bs generalizing s with
  | nil => exact ⟨s, rfl, Or.inl rfl, le_refl _, fun b hb => absurd hb List.not_mem_nil⟩
  | cons b bs ih =>
    by_cases hb : allowed b = true
    · by_cases hkey : keyOf s < key b
      · -- the new element takes the place of the old one
        obtain ⟨s', hrun, hfrom, hle, hall⟩ := ih (make b)
        rw [hmake] at hle
        have hstep : selectBest allowed better make (some s) (b :: bs) =
            selectBest allowed better make (some (make b)) bs := by
          simp [selectBest, hb, (hbetter b s).mpr hkey]
        refine ⟨s', hstep.trans hrun, Or.inr ?_, hkey.le.trans hle, List.forall_mem_cons.mpr
          ⟨fun _ => hle, hall⟩⟩
        rcases hfrom with rfl | ⟨b', hb', hallowed, rfl⟩
        · exact ⟨b, List.mem_cons_self, hb, rfl⟩
        · exact ⟨b', List.mem_cons_of_mem _ hb', hallowed, rfl⟩
      · obtain ⟨s', hrun, hfrom, hle, hall⟩ := ih s
        have hworse : better b s = false := by
          rw [← Bool.not_eq_true, hbetter]
          exact hkey
        have hstep : selectBest allowed better make (some s) (b :: bs) =
            selectBest allowed better make (some s) bs := by
          simp [selectBest, hb, hworse]
        refine ⟨s', hstep.trans hrun, hfrom.imp_right ?_, hle, List.forall_mem_cons.mpr
          ⟨fun _ => (not_lt.mp hkey).trans hle, hall⟩⟩
        rintro ⟨b', hb', hallowed, rfl⟩
        exact ⟨b', List.mem_cons_of_mem _ hb', hallowed, rfl⟩
    · obtain ⟨s', hrun, hfrom, hle, hall⟩ := ih s
      have hstep : selectBest allowed better make (some s) (b :: bs) =
          selectBest allowed better make (some s) bs := by
        simp [selectBest, hb]
      refine ⟨s', hstep.trans hrun, hfrom.imp_right ?_, hle, List.forall_mem_cons.mpr
        ⟨fun hallowed => absurd hallowed hb, hall⟩⟩
      rintro ⟨b', hb', hallowed, rfl⟩
      exact ⟨b', List.mem_cons_of_mem _ hb', hallowed, rfl⟩

/-- **The choice is a greatest element.** Nothing is chosen when nothing is allowed; otherwise an
allowed element with the greatest key is. -/
theorem selectBest_spec (hmake : ∀ b, keyOf (make b) = key b)
    (hbetter : ∀ b s, better b s = true ↔ keyOf s < key b) (bs : List β) :
    (selectBest allowed better make none bs = none ∧ ∀ b ∈ bs, allowed b = false) ∨
      ∃ b ∈ bs, allowed b = true ∧ selectBest allowed better make none bs = some (make b) ∧
        ∀ b' ∈ bs, allowed b' = true → key b' ≤ key b := by
  induction bs with
  | nil => exact Or.inl ⟨rfl, fun b hb => absurd hb List.not_mem_nil⟩
  | cons b bs ih =>
    by_cases hb : allowed b = true
    · right
      have hstep : selectBest allowed better make none (b :: bs) =
          selectBest allowed better make (some (make b)) bs := by
        simp [selectBest, hb]
      obtain ⟨s', hrun, hfrom, hle, hall⟩ := selectBest_some allowed keyOf hmake hbetter (make b) bs
      rw [hmake] at hle
      rcases hfrom with rfl | ⟨b', hb', hallowed, rfl⟩
      · rw [hmake] at hall
        exact ⟨b, List.mem_cons_self, hb, hstep.trans hrun,
          List.forall_mem_cons.mpr ⟨fun _ => le_refl _, hall⟩⟩
      · rw [hmake] at hle hall
        exact ⟨b', List.mem_cons_of_mem _ hb', hallowed, hstep.trans hrun,
          List.forall_mem_cons.mpr ⟨fun _ => hle, hall⟩⟩
    · have hstep : selectBest allowed better make none (b :: bs) =
          selectBest allowed better make none bs := by
        simp [selectBest, hb]
      rw [hstep]
      rcases ih with ⟨hnone, hall⟩ | ⟨b', hb', hallowed, hrun, hall⟩
      · exact Or.inl ⟨hnone, List.forall_mem_cons.mpr ⟨by simpa using hb, hall⟩⟩
      · exact Or.inr ⟨b', List.mem_cons_of_mem _ hb', hallowed, hrun, List.forall_mem_cons.mpr
          ⟨fun h => absurd h hb, hall⟩⟩

end Select

end Lib
