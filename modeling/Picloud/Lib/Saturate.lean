import Picloud.Lib.Quads

/-!
# Running a rule to its fixed point

A pass adds consequences to a list; passes are repeated until one of them adds nothing. `Adds U s t`
says that `t` is `s` with new elements of `U` behind it. If every pass adds elements of a fixed
finite list `U`, more passes than `U` has elements are enough to reach the fixed point.
-/

namespace Lib

variable {α : Type*}

/-- Repeat a pass until it adds nothing, at most `fuel` times. -/
def saturate (pass : List α → List α) : ℕ → List α → List α
  | 0, s => s
  | fuel + 1, s => if (pass s).length = s.length then pass s else saturate pass fuel (pass s)

/-- The second list is the first with new elements of `U` behind it, each of them once. -/
def Adds (U s t : List α) : Prop :=
  ∃ l, t = s ++ l ∧ l.Nodup ∧ (∀ a ∈ l, a ∉ s) ∧ ∀ a ∈ l, a ∈ U

namespace Adds

variable {U s t u : List α}

theorem refl (U s : List α) : Adds U s s := ⟨[], by simp⟩

theorem trans (hst : Adds U s t) (htu : Adds U t u) : Adds U s u := by
  obtain ⟨l, rfl, hnodup, hnew, hU⟩ := hst
  obtain ⟨m, rfl, hnodup', hnew', hU'⟩ := htu
  refine ⟨l ++ m, by rw [List.append_assoc], ?_, ?_, ?_⟩
  · refine List.nodup_append.mpr ⟨hnodup, hnodup', ?_⟩
    rintro a ha b hb rfl
    exact hnew' a hb (List.mem_append_right s ha)
  · intro a ha hs
    rcases List.mem_append.mp ha with hl | hm
    · exact hnew a hl hs
    · exact hnew' a hm (List.mem_append_left l hs)
  · intro a ha
    exact (List.mem_append.mp ha).elim (hU a) (hU' a)

theorem subset (h : Adds U s t) : s ⊆ t := by
  obtain ⟨l, rfl, -⟩ := h
  exact List.subset_append_left s l

theorem mem_cases (h : Adds U s t) {a : α} (ha : a ∈ t) : a ∈ s ∨ a ∈ U := by
  obtain ⟨l, rfl, -, -, hU⟩ := h
  exact (List.mem_append.mp ha).imp_right (hU a)

theorem length_le (h : Adds U s t) : s.length ≤ t.length ∧ t.length ≤ s.length + U.length := by
  obtain ⟨l, rfl, hnodup, -, hU⟩ := h
  have := List.Nodup.length_le_of_subset hnodup fun a ha => hU a ha
  rw [List.length_append]
  omega

theorem eq_of_length (h : Adds U s t) (hlen : t.length = s.length) : t = s := by
  obtain ⟨l, rfl, -⟩ := h
  rw [List.length_append] at hlen
  rw [List.length_eq_zero_iff.mp (show l.length = 0 by omega), List.append_nil]

/-- A loop whose body adds elements of `U` adds elements of `U`. -/
theorem foldl {β : Type*} {f : List α → β → List α} {bs : List β}
    (h : ∀ b ∈ bs, ∀ t, Adds U s t → Adds U t (f t b)) (ht : Adds U s t) :
    Adds U t (bs.foldl f t) := by
  induction bs generalizing t with
  | nil => exact refl U t
  | cons b bs ih =>
    have hb := h b List.mem_cons_self t ht
    exact hb.trans (ih (fun c hc => h c (List.mem_cons_of_mem b hc)) (ht.trans hb))

end Adds

/-- Inserting one quad of `U`. -/
theorem adds_insert {U : List Quad} (s : Store) {q : Quad} (hq : q ∈ U) : Adds U s (s.insert q) := by
  unfold Store.insert
  by_cases hmem : q ∈ s
  · rw [if_pos hmem]
    exact Adds.refl U s
  · rw [if_neg hmem]
    exact ⟨[q], rfl, by simp, by simpa using hmem, by simpa using hq⟩

variable {fuel : ℕ} {pass : List α → List α} {s : List α} {counted : List α → List α × ℕ}

/-- What every pass keeps, the loop keeps. -/
theorem saturate_invariant {I : List α → Prop} (hI : ∀ t, I t → I (pass t)) (hs : I s) :
    I (saturate pass fuel s) := by
  induction fuel generalizing s with
  | zero => exact hs
  | succ fuel ih =>
    unfold saturate
    by_cases hlen : (pass s).length = s.length
    · rw [if_pos hlen]
      exact hI s hs
    · rw [if_neg hlen]
      exact ih (hI s hs)

/-- **The fixed point is reached.** With more fuel than `U` has elements, the loop ends in a list to
which the pass adds nothing. -/
theorem saturate_spec {U : List α} (hpass : ∀ t, Adds U s t → Adds U t (pass t))
    (hfuel : U.length < fuel) :
    Adds U s (saturate pass fuel s) ∧ pass (saturate pass fuel s) = saturate pass fuel s := by
  have hloop : ∀ (fuel : ℕ) (t : List α), Adds U s t → s.length + U.length < fuel + t.length →
      Adds U s (saturate pass fuel t) ∧ pass (saturate pass fuel t) = saturate pass fuel t := by
    intro fuel
    induction fuel with
    | zero =>
      intro t ht hlt
      have := ht.length_le
      omega
    | succ fuel ih =>
      intro t ht hlt
      have hp := hpass t ht
      unfold saturate
      by_cases hlen : (pass t).length = t.length
      · have heq : pass t = t := hp.eq_of_length hlen
        rw [if_pos hlen, heq]
        exact ⟨ht, heq⟩
      · rw [if_neg hlen]
        have := hp.length_le
        exact ih (pass t) (ht.trans hp) (by omega)
  exact hloop fuel s (Adds.refl U s) (by omega)

/-! ## Counting what is added -/

/-- Repeat a pass that counts what it adds until it adds nothing; `none` when the fuel has run out. -/
def saturateCounted (pass : List α → List α × ℕ) : ℕ → List α → Option (List α × ℕ)
  | 0, _ => none
  | fuel + 1, s =>
    if (pass s).2 = 0 then some ((pass s).1, 0)
    else (saturateCounted pass fuel (pass s).1).map fun r => (r.1, (pass s).2 + r.2)

/-- The counted update does what the other one does, and counts by how much it grows. -/
def Counts (counted : List α × ℕ → List α × ℕ) (f : List α → List α) : Prop :=
  ∀ r, (counted r).1 = f r.1 ∧ (counted r).2 + r.1.length = r.2 + (f r.1).length

theorem Counts.id : Counts (α := α) id id := fun _ => ⟨rfl, rfl⟩

theorem Counts.foldl {β : Type*} {counted : List α × ℕ → β → List α × ℕ} {f : List α → β → List α}
    {bs : List β} (h : ∀ b ∈ bs, Counts (fun r => counted r b) fun s => f s b) :
    Counts (fun r => bs.foldl counted r) fun s => bs.foldl f s := by
  induction bs with
  | nil => exact Counts.id
  | cons b bs ih =>
    intro r
    obtain ⟨hstore, hcount⟩ := h b List.mem_cons_self r
    obtain ⟨hstore', hcount'⟩ := ih (fun c hc => h c (List.mem_cons_of_mem b hc)) (counted r b)
    dsimp only at hstore hcount hstore' hcount' ⊢
    rw [hstore] at hstore' hcount'
    rw [List.foldl_cons, List.foldl_cons]
    exact ⟨hstore', by omega⟩

theorem saturateCounted_of_fixed (h : counted s = (s, 0)) (fuel : ℕ) :
    saturateCounted counted (fuel + 1) s = some (s, 0) := by
  rw [saturateCounted, h, if_pos rfl]

/-- What every pass keeps, the counting loop keeps. -/
theorem saturateCounted_invariant {I : List α → Prop} (hI : ∀ t, I t → I (counted t).1)
    {r : List α × ℕ} (h : saturateCounted counted fuel s = some r) (hs : I s) : I r.1 := by
  induction fuel generalizing s r with
  | zero => cases h
  | succ fuel ih =>
    rw [saturateCounted] at h
    split at h
    · cases h
      exact hI s hs
    · obtain ⟨r', hr', rfl⟩ := Option.map_eq_some_iff.mp h
      have hrest := ih hr' (hI s hs)
      exact hrest

/-- More fuel changes nothing. -/
theorem saturateCounted_le {fuel' : ℕ} (hle : fuel ≤ fuel') {r : List α × ℕ}
    (h : saturateCounted counted fuel s = some r) :
    saturateCounted counted fuel' s = some r := by
  induction fuel generalizing s r fuel' with
  | zero => cases h
  | succ fuel ih =>
    obtain ⟨more, rfl⟩ : ∃ more, fuel' = more + 1 := ⟨fuel' - 1, by omega⟩
    rw [saturateCounted] at h ⊢
    split at h
    · next hzero => rw [if_pos hzero, h]
    · next hsome =>
      obtain ⟨r', hr', rfl⟩ := Option.map_eq_some_iff.mp h
      rw [if_neg hsome, ih (by omega) hr', Option.map_some]

/-- **With enough fuel the counting loop ends** in the fixed point, with the number of added elements;
what every pass keeps holds there. -/
theorem saturateCounted_spec {U : List α}
    (hcounts : ∀ s, (counted s).1 = pass s ∧ (counted s).2 + s.length = (pass s).length)
    (hpass : ∀ t, Adds U s t → Adds U t (pass t)) :
    ∃ l, (∀ fuel, U.length < fuel → saturateCounted counted fuel s = some (s ++ l, l.length)) ∧
      pass (s ++ l) = s ++ l ∧ Adds U s (s ++ l) ∧
      ∀ I : List α → Prop, (∀ t, I t → I (pass t)) → I s → I (s ++ l) := by
  have hloop : ∀ (fuel : ℕ) (t : List α), Adds U s t → s.length + U.length < fuel + t.length →
      ∃ l, saturateCounted counted fuel t = some (t ++ l, l.length) ∧ pass (t ++ l) = t ++ l ∧
        Adds U s (t ++ l) := by
    intro fuel
    induction fuel with
    | zero =>
      intro t ht hlt
      have := ht.length_le
      omega
    | succ fuel ih =>
      intro t ht hlt
      obtain ⟨hstore, hcount⟩ := hcounts t
      have hp := hpass t ht
      rw [saturateCounted]
      by_cases hzero : (counted t).2 = 0
      · have heq : pass t = t := hp.eq_of_length (by omega)
        refine ⟨[], ?_, ?_, ?_⟩
        · rw [if_pos hzero, hstore, heq, List.append_nil, List.length_nil]
        · rw [List.append_nil, heq]
        · rwa [List.append_nil]
      · obtain ⟨l, hl, -⟩ := id hp
        have hlength : l.length = (counted t).2 := by
          rw [hl, List.length_append] at hcount
          omega
        obtain ⟨l', hrest, hfix, hadds⟩ := ih (pass t) (ht.trans hp) (by omega)
        refine ⟨l ++ l', ?_, ?_, ?_⟩
        · rw [if_neg hzero, hstore, hrest, Option.map_some, ← hlength, hl, List.append_assoc,
            List.length_append]
        · rw [← List.append_assoc, ← hl, hfix]
        · rwa [← List.append_assoc, ← hl]
  obtain ⟨l, hend, hfix, hadds⟩ := hloop (U.length + 1) s (Adds.refl U s) (by omega)
  refine ⟨l, fun fuel hfuel => saturateCounted_le (Nat.succ_le_of_lt hfuel) hend, hfix, hadds, fun I hI hs => ?_⟩
  exact saturateCounted_invariant (fun t ht => (hcounts t).1 ▸ hI t ht) hend hs

end Lib
