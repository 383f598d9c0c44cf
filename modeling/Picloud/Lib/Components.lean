import Picloud.Lib.Split
import Picloud.Lib.Texts

/-!
# Texts made of components

A text is made of components with a separator between them. Looking for a component with separators around it
finds the first inner one (`breakOn_joined`), and a suffix of the text that begins with a separator is made of
the last components (`isSuffix_joined_iff`). `trimEnd` takes a suffix off as long as there is one.
-/

namespace Lib

variable {α : Type*}

/-- The components with the separator between them. -/
def joined (sep : α) : List (List α) → List α
  | [] => []
  | [c] => c
  | c :: d :: cs => c ++ sep :: joined sep (d :: cs)

section Joined

variable {sep : α} {c d : List α} {cs ds : List (List α)}

theorem joined_cons (h : cs ≠ []) : joined sep (c :: cs) = c ++ sep :: joined sep cs := by
  obtain ⟨d, cs, rfl⟩ := List.exists_cons_of_ne_nil h
  rfl

theorem joined_append (hcs : cs ≠ []) (hds : ds ≠ []) :
    joined sep (cs ++ ds) = joined sep cs ++ sep :: joined sep ds := by
  induction cs with
  | nil => exact absurd rfl hcs
  | cons c cs ih =>
    by_cases hnil : cs = []
    · rw [hnil, List.singleton_append, joined_cons hds, joined]
    · rw [List.cons_append, joined_cons (by simp [hnil]), joined_cons hnil, ih hnil, List.append_assoc,
        List.cons_append]

/-- The components are found again. -/
theorem joined_injective (hcs : cs ≠ []) (hds : ds ≠ []) (hc : ∀ c ∈ cs, sep ∉ c) (hd : ∀ d ∈ ds, sep ∉ d)
    (h : joined sep cs = joined sep ds) : cs = ds := by
  induction cs generalizing ds with
  | nil => exact absurd rfl hcs
  | cons c cs ih =>
    obtain ⟨d, ds, rfl⟩ := List.exists_cons_of_ne_nil hds
    have hsep : sep ∉ c := hc c List.mem_cons_self
    have hsep' : sep ∉ d := hd d List.mem_cons_self
    by_cases hnil : cs = [] <;> by_cases hnil' : ds = []
    · rw [hnil, hnil', joined, joined] at h
      rw [hnil, hnil', h]
    · rw [hnil, joined, joined_cons hnil'] at h
      exact absurd (h ▸ List.mem_append_right d List.mem_cons_self) hsep
    · rw [hnil', joined, joined_cons hnil] at h
      exact absurd (h ▸ List.mem_append_right c List.mem_cons_self) hsep'
    · rw [joined_cons hnil, joined_cons hnil'] at h
      obtain ⟨rfl, hrest⟩ := append_cons_inj_first h hsep hsep'
      rw [ih hnil hnil' (fun c hmem => hc c (List.mem_cons_of_mem _ hmem))
        (fun d hmem => hd d (List.mem_cons_of_mem _ hmem)) hrest]

/-- Every text is made of components. -/
theorem exists_joined (sep : α) (s : List α) : ∃ cs, cs ≠ [] ∧ (∀ c ∈ cs, sep ∉ c) ∧ joined sep cs = s := by
  classical
  induction s with
  | nil => exact ⟨[[]], by simp, by simp, rfl⟩
  | cons x s ih =>
    obtain ⟨cs, hcs, hsep, rfl⟩ := ih
    by_cases hx : x = sep
    · refine ⟨[] :: cs, by simp, ?_, ?_⟩
      · simpa using hsep
      · rw [joined_cons hcs, List.nil_append, hx]
    · obtain ⟨c, cs, rfl⟩ := List.exists_cons_of_ne_nil hcs
      refine ⟨(x :: c) :: cs, by simp, ?_, ?_⟩
      · intro d hd
        rcases List.mem_cons.mp hd with rfl | hd
        · rw [List.mem_cons, not_or]
          exact ⟨Ne.symm hx, hsep c List.mem_cons_self⟩
        · exact hsep d (List.mem_cons_of_mem c hd)
      · cases cs with
        | nil => rfl
        | cons d cs => rfl

/-- A suffix that begins with a separator is made of the last components. -/
theorem isSuffix_joined_iff (hcs : cs ≠ []) (hds : ds ≠ []) (hc : ∀ c ∈ cs, sep ∉ c) (hd : ∀ d ∈ ds, sep ∉ d) :
    sep :: joined sep ds <:+ joined sep cs ↔ ∃ front, front ≠ [] ∧ cs = front ++ ds := by
  constructor
  · rintro ⟨s, hs⟩
    obtain ⟨front, hfront, hsep, rfl⟩ := exists_joined sep s
    refine ⟨front, hfront, joined_injective hcs (by simp [hds]) hc (fun c hmem => ?_) ?_⟩
    · exact (List.mem_append.mp hmem).elim (hsep c) (hd c)
    · rw [joined_append hfront hds, hs]
  · rintro ⟨front, hfront, rfl⟩
    rw [joined_append hfront hds]
    exact List.suffix_append _ _

end Joined

/-! ## Looking for a component -/

section Search

variable [DecidableEq α] {sep : α} {pat s seg : List α} {cs before after : List (List α)}

/-- A pattern does not begin among other letters. -/
theorem breakOn_skip {x : α} {c : List α} (h : x ∉ c) :
    breakOn (x :: pat) (c ++ s) = (breakOn (x :: pat) s).map fun cut => (c ++ cut.1, cut.2) := by
  induction c with
  | nil => simp
  | cons y c ih =>
    rw [List.mem_cons, not_or] at h
    rw [List.cons_append, breakOn, if_neg fun hpat => h.1 (List.cons_prefix_cons.mp hpat).1, ih h.2, Option.map_map]
    rfl

/-- The component with separators around it begins at the next separator, or later. -/
theorem breakOn_joined_cons {c d : List α} (hseg : sep ∉ seg) (hc : sep ∉ c) (hd : sep ∉ d) :
    breakOn (sep :: seg ++ [sep]) (joined sep (c :: d :: cs)) =
      if d = seg ∧ cs ≠ [] then some (c, joined sep cs)
      else (breakOn (sep :: seg ++ [sep]) (joined sep (d :: cs))).map fun cut => (c ++ sep :: cut.1, cut.2) := by
  have hhead : sep :: (seg ++ [sep]) <+: sep :: joined sep (d :: cs) ↔ d = seg ∧ cs ≠ [] := by
    rw [List.cons_prefix_cons, and_iff_right rfl]
    by_cases hcs : cs = []
    · rw [hcs, joined]
      refine ⟨fun h => absurd (h.subset (List.mem_append_right _ List.mem_cons_self)) hd, fun h => absurd rfl h.2⟩
    · rw [joined_cons hcs]
      constructor
      · rintro ⟨rest, hrest⟩
        rw [List.append_assoc, List.singleton_append] at hrest
        exact ⟨(append_cons_inj_first hrest hseg hd).1.symm, hcs⟩
      · rintro ⟨rfl, -⟩
        exact ⟨joined sep cs, by rw [List.append_assoc, List.singleton_append]⟩
  rw [joined_cons (List.cons_ne_nil d cs), List.cons_append, breakOn_skip hc, breakOn]
  by_cases hfound : d = seg ∧ cs ≠ []
  · obtain ⟨rfl, hcs⟩ := hfound
    rw [if_pos (hhead.mpr ⟨rfl, hcs⟩), if_pos ⟨rfl, hcs⟩, joined_cons hcs]
    have hdrop : (sep :: (d ++ sep :: joined sep cs)).drop (sep :: (d ++ [sep])).length = joined sep cs := by
      rw [show sep :: (d ++ sep :: joined sep cs) = (sep :: (d ++ [sep])) ++ joined sep cs by simp, List.drop_left]
    rw [hdrop, Option.map_some, List.append_nil]
  · rw [if_neg fun h => hfound (hhead.mp h), if_neg hfound, Option.map_map]
    rfl

/-- Without such an inner component there is nothing to find. -/
theorem breakOn_joined_eq_none (hseg : sep ∉ seg) (hcs : ∀ c ∈ cs, sep ∉ c) (h : seg ∉ cs.tail.dropLast) :
    breakOn (sep :: seg ++ [sep]) (joined sep cs) = none := by
  have hsingle : ∀ c, sep ∉ c → breakOn (sep :: seg ++ [sep]) c = none := fun c hc => by
    have hskip : breakOn (sep :: (seg ++ [sep])) (c ++ []) =
        (breakOn (sep :: (seg ++ [sep])) []).map fun cut => (c ++ cut.1, cut.2) := breakOn_skip hc
    rw [List.append_nil] at hskip
    exact hskip
  induction cs with
  | nil => rfl
  | cons c cs ih =>
    cases cs with
    | nil => exact hsingle c (hcs c List.mem_cons_self)
    | cons d cs =>
      rw [List.tail_cons] at h
      rw [breakOn_joined_cons hseg (hcs c List.mem_cons_self) (hcs d (by simp)), if_neg, ih, Option.map_none]
      · exact fun c hmem => hcs c (List.mem_cons_of_mem _ hmem)
      · intro hmem
        rw [List.tail_cons] at hmem
        refine h ?_
        rw [List.dropLast_cons_of_ne_nil (by rintro rfl; exact absurd hmem List.not_mem_nil)]
        exact List.mem_cons_of_mem d hmem
      · rintro ⟨rfl, hne⟩
        exact h (by rw [List.dropLast_cons_of_ne_nil hne]; exact List.mem_cons_self)

/-- The first inner component is found. -/
theorem breakOn_joined (hseg : sep ∉ seg) (hcs : ∀ c ∈ before, sep ∉ c) (hbefore : before ≠ [])
    (hafter : after ≠ []) (h : seg ∉ before.tail) :
    breakOn (sep :: seg ++ [sep]) (joined sep (before ++ seg :: after)) =
      some (joined sep before, joined sep after) := by
  induction before with
  | nil => exact absurd rfl hbefore
  | cons c before ih =>
    cases before with
    | nil =>
      rw [List.singleton_append, breakOn_joined_cons hseg (hcs c List.mem_cons_self) hseg,
        if_pos ⟨rfl, hafter⟩]
      rfl
    | cons d before =>
      rw [List.tail_cons, List.mem_cons, not_or] at h
      have hcons : c :: d :: before ++ seg :: after = c :: d :: (before ++ seg :: after) := rfl
      have hrest : breakOn (sep :: seg ++ [sep]) (joined sep (d :: (before ++ seg :: after))) =
          some (joined sep (d :: before), joined sep after) :=
        ih (fun c hmem => hcs c (List.mem_cons_of_mem _ hmem)) (List.cons_ne_nil _ _) h.2
      rw [hcons, breakOn_joined_cons hseg (hcs c List.mem_cons_self) (hcs d (by simp)),
        if_neg fun hfound => h.1 hfound.1.symm, hrest]
      rfl

end Search

/-! ## Taking suffixes off -/

section Trim

variable [DecidableEq α] {pat s : List α}

/-- Take the suffix off, at most so many times. -/
def trimEndFrom (pat : List α) : ℕ → List α → List α
  | 0, s => s
  | n + 1, s => if pat <:+ s then trimEndFrom pat n (s.take (s.length - pat.length)) else s

/-- `trim_end_matches`, for a pattern that is not empty. -/
def trimEnd (pat s : List α) : List α := trimEndFrom pat s.length s

theorem trimEndFrom_of_not_isSuffix (h : ¬ pat <:+ s) (n : ℕ) : trimEndFrom pat n s = s := by
  cases n with
  | zero => rfl
  | succ n => rw [trimEndFrom, if_neg h]

theorem trimEndFrom_isPrefix (pat : List α) (n : ℕ) (s : List α) : trimEndFrom pat n s <+: s := by
  induction n generalizing s with
  | zero => exact List.prefix_rfl
  | succ n ih =>
    rw [trimEndFrom]
    split
    · exact (ih _).trans (List.take_prefix _ _)
    · exact List.prefix_rfl

theorem trimEnd_of_not_isSuffix (h : ¬ pat <:+ s) : trimEnd pat s = s := trimEndFrom_of_not_isSuffix h _

theorem trimEnd_append_self : trimEnd pat (s ++ pat) = trimEndFrom pat (s.length + pat.length - 1) s ∨ pat = [] := by
  by_cases hpat : pat = []
  · exact Or.inr hpat
  · refine Or.inl ?_
    have hlen : 0 < pat.length := List.length_pos_of_ne_nil hpat
    obtain ⟨n, hn⟩ : ∃ n, s.length + pat.length = n + 1 := ⟨s.length + pat.length - 1, by omega⟩
    rw [trimEnd, List.length_append, hn, trimEndFrom, if_pos (List.suffix_append s pat), List.length_append,
      Nat.add_sub_cancel_right, List.take_left, Nat.add_sub_cancel]

/-- One suffix, and no more. -/
theorem trimEnd_append (hpat : pat ≠ []) (h : ¬ pat <:+ s) : trimEnd pat (s ++ pat) = s := by
  rw [trimEnd_append_self.resolve_right hpat, trimEndFrom_of_not_isSuffix h]

/-- More than one suffix is taken off. -/
theorem length_trimEnd_append_lt (hpat : pat ≠ []) (h : pat <:+ s) : (trimEnd pat (s ++ pat)).length < s.length := by
  rw [trimEnd_append_self.resolve_right hpat]
  obtain ⟨t, rfl⟩ := h
  have hlen : 0 < pat.length := List.length_pos_of_ne_nil hpat
  obtain ⟨n, hn⟩ : ∃ n, (t ++ pat).length + pat.length - 1 = n + 1 :=
    ⟨(t ++ pat).length + pat.length - 2, by rw [List.length_append]; omega⟩
  rw [hn, trimEndFrom, if_pos (List.suffix_append t pat), List.length_append, Nat.add_sub_cancel_right,
    List.take_left]
  have hle := (trimEndFrom_isPrefix pat n t).length_le
  omega

end Trim

end Lib
