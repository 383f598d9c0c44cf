import Mathlib.Data.List.Induction
import Mathlib.Data.Set.Basic
import Mathlib.Tactic.Common

/-!
# Values that entries add or replace

An entry of a history gives values to a register. Some entries replace what is there, the others add to it. The
register then holds what was given from the last replacing entry on.
-/

namespace Lib

section SinceLast

variable {α : Type*} {replaces : α → Prop} [DecidablePred replaces] {l : List α} {a b : α}

/-- The entries from the last replacing one on; without one, all. -/
def sinceLast (replaces : α → Prop) [DecidablePred replaces] (l : List α) : List α :=
  l.foldl (fun kept a => if replaces a then [a] else kept ++ [a]) []

@[simp] theorem sinceLast_nil : sinceLast replaces [] = [] := rfl

theorem sinceLast_append_singleton : sinceLast replaces (l ++ [a]) =
    if replaces a then [a] else sinceLast replaces l ++ [a] := by
  rw [sinceLast, List.foldl_append]
  rfl

theorem mem_sinceLast_append_singleton :
    b ∈ sinceLast replaces (l ++ [a]) ↔ ¬ replaces a ∧ b ∈ sinceLast replaces l ∨ b = a := by
  rw [sinceLast_append_singleton]
  split <;> simp [*]

theorem mem_of_mem_sinceLast (h : b ∈ sinceLast replaces l) : b ∈ l := by
  induction l using List.reverseRecOn with
  | nil => exact h
  | append_singleton l a ih =>
    rw [mem_sinceLast_append_singleton] at h
    rw [List.mem_append, List.mem_singleton]
    exact h.imp (fun h => ih h.2) fun h => h

/-- An entry is kept, or there is a replacing one that is. -/
theorem mem_sinceLast_or (replaces : α → Prop) [DecidablePred replaces] (h : b ∈ l) :
    b ∈ sinceLast replaces l ∨ ∃ c ∈ sinceLast replaces l, replaces c := by
  induction l using List.reverseRecOn with
  | nil => simp at h
  | append_singleton l a ih =>
    simp only [mem_sinceLast_append_singleton]
    rw [List.mem_append, List.mem_singleton] at h
    by_cases ha : replaces a
    · exact Or.inr ⟨a, Or.inr rfl, ha⟩
    · rcases h with h | rfl
      · rcases ih h with hkept | ⟨c, hc, hreplaces⟩
        · exact Or.inl (Or.inl ⟨ha, hkept⟩)
        · exact Or.inr ⟨c, Or.inl ⟨ha, hc⟩, hreplaces⟩
      · exact Or.inl (Or.inr rfl)

/-- One replacing entry at most is kept. -/
theorem eq_of_mem_sinceLast {c : α} (hb : b ∈ sinceLast replaces l) (hc : c ∈ sinceLast replaces l)
    (hreplacesb : replaces b) (hreplacesc : replaces c) : b = c := by
  induction l using List.reverseRecOn with
  | nil => simp at hb
  | append_singleton l a ih =>
    rw [mem_sinceLast_append_singleton] at hb hc
    rcases hb with ⟨ha, hb⟩ | rfl
    · rcases hc with ⟨-, hc⟩ | rfl
      · exact ih hb hc
      · exact absurd hreplacesc ha
    · rcases hc with ⟨ha, -⟩ | rfl
      · exact absurd hreplacesb ha
      · rfl

/-- Without a replacing entry all are kept. -/
theorem sinceLast_of_forall_not (h : ∀ a, ¬ replaces a) : sinceLast replaces l = l := by
  induction l using List.reverseRecOn with
  | nil => rfl
  | append_singleton l a ih => rw [sinceLast_append_singleton, if_neg (h a), ih]

end SinceLast

/-! ## Registers -/

/-- The register holds the values given from the last replacing entry on. -/
def HoldsSince {α β : Type*} (replaces : α → Prop) [DecidablePred replaces] (given : α → Set β)
    (history : List α) (register : Set β) : Prop :=
  ∀ o, o ∈ register ↔ ∃ a ∈ sinceLast replaces history, o ∈ given a

section HoldsSince

variable {α β : Type*} {replaces : α → Prop} [DecidablePred replaces] {given : α → Set β}
  {history : List α} {register register' : Set β} {a : α}

theorem holdsSince_nil : HoldsSince replaces given [] ∅ := by simp [HoldsSince]

/-- One more entry. -/
theorem HoldsSince.step (h : HoldsSince replaces given history register)
    (hstep : ∀ o, o ∈ register' ↔ ¬ replaces a ∧ o ∈ register ∨ o ∈ given a) :
    HoldsSince replaces given (history ++ [a]) register' := by
  intro o
  rw [hstep, h o]
  simp only [mem_sinceLast_append_singleton, or_and_right, exists_or, exists_eq_left, and_assoc,
    exists_and_left]

end HoldsSince

/-! ## The last value -/

section LastValue

variable {α β : Type*} {sets clears : α → Prop} [DecidablePred sets] [DecidablePred clears] {given : α → Option β}
  {l : List α} {a : α} {b : β}

/-- What the last entry gives that sets the register; such an entry may give nothing. -/
def lastValue (sets : α → Prop) [DecidablePred sets] (given : α → Option β) (l : List α) : Option β :=
  ((l.filter sets).getLast?).bind given

@[simp] theorem lastValue_nil : lastValue sets given [] = none := rfl

theorem lastValue_append_singleton :
    lastValue sets given (l ++ [a]) = if sets a then given a else lastValue sets given l := by
  rw [lastValue, List.filter_append]
  by_cases ha : sets a
  · rw [if_pos ha, List.filter_cons_of_pos (by simpa using ha), List.filter_nil, List.getLast?_concat,
      Option.bind_some]
  · rw [if_neg ha, List.filter_cons_of_neg (by simpa using ha), List.filter_nil, List.append_nil]
    rfl

/-- A register that every value replaces holds the last one. -/
theorem exists_mem_sinceLast_iff (hgiven : ∀ a b, given a = some b → sets a) :
    (∃ a ∈ sinceLast sets l, given a = some b) ↔ lastValue sets given l = some b := by
  induction l using List.reverseRecOn with
  | nil => simp
  | append_singleton l a ih =>
    rw [lastValue_append_singleton]
    simp only [mem_sinceLast_append_singleton, or_and_right, exists_or, exists_eq_left, and_assoc,
      exists_and_left]
    by_cases ha : sets a
    · simp [ha]
    · have hnone : given a ≠ some b := fun h => ha (hgiven a b h)
      simp [ha, hnone, ih]

variable [DecidablePred fun a => clears a ∨ (given a).isSome = true]

/-- The last value is among those since the register was cleared. -/
theorem exists_mem_of_lastValue
    (h : lastValue (fun a => clears a ∨ (given a).isSome = true) given l = some b) :
    ∃ a ∈ sinceLast clears l, given a = some b := by
  induction l using List.reverseRecOn with
  | nil => cases h
  | append_singleton l a ih =>
    rw [lastValue_append_singleton] at h
    simp only [mem_sinceLast_append_singleton]
    split_ifs at h with ha
    · exact ⟨a, Or.inr rfl, h⟩
    · obtain ⟨c, hc, hgiven⟩ := ih h
      exact ⟨c, Or.inl ⟨fun hcleared => ha (Or.inl hcleared), hc⟩, hgiven⟩

/-- If there is a value since the register was cleared, there is a last one. -/
theorem isSome_lastValue (ha : a ∈ sinceLast clears l) (hgiven : given a = some b) :
    (lastValue (fun a => clears a ∨ (given a).isSome = true) given l).isSome = true := by
  induction l using List.reverseRecOn with
  | nil => simp at ha
  | append_singleton l c ih =>
    rw [lastValue_append_singleton]
    rcases mem_sinceLast_append_singleton.mp ha with ⟨hc, ha⟩ | rfl
    · by_cases hsome : (given c).isSome = true
      · rw [if_pos (Or.inr hsome)]
        exact hsome
      · rw [if_neg (by simp [hc, hsome])]
        exact ih ha
    · rw [if_pos (Or.inr (by rw [hgiven]; rfl)), hgiven]
      rfl

/-- **A register that values are only added to holds the last one exactly when all since it was cleared are the
same.** -/
theorem addOnly_iff :
    (∀ b, (∃ a ∈ sinceLast clears l, given a = some b) ↔
        lastValue (fun a => clears a ∨ (given a).isSome = true) given l = some b) ↔
      ∀ a ∈ sinceLast clears l, ∀ a' ∈ sinceLast clears l, ∀ b b', given a = some b → given a' = some b' →
        b = b' := by
  constructor
  · intro h a ha a' ha' b b' hb hb'
    have hlast := (h b).mp ⟨a, ha, hb⟩
    rw [(h b').mp ⟨a', ha', hb'⟩] at hlast
    exact (Option.some.inj hlast).symm
  · intro h b
    constructor
    · rintro ⟨a, ha, hgiven⟩
      obtain ⟨c, hc⟩ := Option.isSome_iff_exists.mp (isSome_lastValue ha hgiven)
      obtain ⟨a', ha', hgiven'⟩ := exists_mem_of_lastValue hc
      rw [hc, h a ha a' ha' b c hgiven hgiven']
    · exact fun hlast => exists_mem_of_lastValue hlast

omit [DecidablePred fun a => clears a ∨ (given a).isSome = true]

/-- **A register that is also cleared by others holds the last value exactly when, if there is one, it is not
cleared afterwards.** -/
theorem alsoCleared_iff [DecidablePred fun a => clears a ∨ sets a] (hgiven : ∀ a b, given a = some b → sets a)
    (hclears : ∀ a, clears a → ¬ sets a) :
    (∀ b, (∃ a ∈ sinceLast (fun a => clears a ∨ sets a) l, given a = some b) ↔ lastValue sets given l = some b) ↔
      (lastValue sets given l ≠ none → ∀ a ∈ sinceLast sets l, ¬ clears a) := by
  have hnone : ∀ a, clears a → given a = none := fun a ha =>
    Option.eq_none_iff_forall_not_mem.mpr fun b hb => hclears a ha (hgiven a b hb)
  have hvalue : ∀ b, (∃ a ∈ sinceLast (fun a => clears a ∨ sets a) l, given a = some b) ↔
      lastValue (fun a => clears a ∨ sets a) given l = some b :=
    fun b => exists_mem_sinceLast_iff fun a b h => Or.inr (hgiven a b h)
  simp only [hvalue]
  -- the two last values agree as long as nothing is cleared after the last value
  have hsame : lastValue (fun a => clears a ∨ sets a) given l =
      if ∃ a ∈ sinceLast sets l, clears a then none else lastValue sets given l := by
    clear hvalue
    induction l using List.reverseRecOn with
    | nil => simp
    | append_singleton l a ih =>
      rw [lastValue_append_singleton, lastValue_append_singleton, ih]
      simp only [mem_sinceLast_append_singleton, or_and_right, exists_or, exists_eq_left, and_assoc,
        exists_and_left]
      by_cases ha : sets a
      · have hkept : ¬ clears a := fun h => hclears a h ha
        simp [ha, hkept]
      · by_cases hcleared : clears a
        · simp [ha, hcleared, hnone a hcleared]
        · simp [ha, hcleared]
  rw [hsame]
  constructor
  · intro h hsome a ha hcleared
    obtain ⟨b, hb⟩ := Option.ne_none_iff_exists'.mp hsome
    have hlast := (h b).mpr hb
    rw [if_pos ⟨a, ha, hcleared⟩] at hlast
    cases hlast
  · intro h b
    by_cases hcleared : ∃ a ∈ sinceLast sets l, clears a
    · have hlast : lastValue sets given l = none := by
        by_contra hsome
        obtain ⟨a, ha, hclear⟩ := hcleared
        exact h hsome a ha hclear
      rw [if_pos hcleared, hlast]
    · rw [if_neg hcleared]

end LastValue

end Lib
