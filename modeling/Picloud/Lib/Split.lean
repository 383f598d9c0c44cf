import Mathlib.Data.List.Infix
import Mathlib.Tactic.Common

/-!
# Splitting a list at a pattern

`breakOn pat s` cuts `s` at the first occurrence of a pattern that is not empty; `secondPiece` is the
piece between the first occurrence and the next one. `breakOn_append` finds an occurrence that is
written out, when the pattern does not occur before it, not even with a part of itself.
-/

namespace Lib

variable {α : Type*} [DecidableEq α]

/-- What stands before and after the first occurrence of the pattern. -/
def breakOn (pat : List α) : List α → Option (List α × List α)
  | [] => none
  | c :: s =>
    if pat <+: c :: s then some ([], (c :: s).drop pat.length)
    else (breakOn pat s).map fun cut => (c :: cut.1, cut.2)

/-- The second piece of a list that is split at every occurrence of the pattern. -/
def secondPiece (pat s : List α) : Option (List α) :=
  (breakOn pat s).map fun cut => ((breakOn pat cut.2).map Prod.fst).getD cut.2

variable {pat : List α}

variable {rest s : List α}

omit [DecidableEq α] in
/-- A pattern that begins inside `s ++ pat`, and is no part of `s ++ pat.dropLast`, begins at the end
of `s`. -/
theorem not_isPrefix_of_not_isInfix {c : α} (h : ¬ pat <:+: c :: s ++ pat.dropLast) :
    ¬ pat <+: c :: (s ++ pat ++ rest) := by
  intro hpat
  have hall : c :: s ++ pat.dropLast <+: c :: (s ++ pat ++ rest) := by
    rw [List.append_assoc, ← List.cons_append]
    exact (List.prefix_append_right_inj _).mpr
      ((List.dropLast_prefix pat).trans (List.prefix_append pat rest))
  have hlen : pat.length ≤ (c :: s ++ pat.dropLast).length := by
    rw [List.length_append, List.length_cons, List.length_dropLast]
    omega
  exact h (List.prefix_of_prefix_length_le hpat hall hlen).isInfix

theorem breakOn_append (hpat : pat ≠ []) (h : ¬ pat <:+: s ++ pat.dropLast) :
    breakOn pat (s ++ pat ++ rest) = some (s, rest) := by
  induction s with
  | nil =>
    obtain ⟨c, tail, rfl⟩ := List.exists_cons_of_ne_nil hpat
    have hhead : c :: tail <+: c :: (tail ++ rest) := List.prefix_append (c :: tail) rest
    rw [List.nil_append, List.cons_append, breakOn, if_pos hhead, ← List.cons_append, List.drop_left]
  | cons c s ih =>
    have hrest : ¬ pat <:+: s ++ pat.dropLast :=
      fun hin => h (hin.trans (List.suffix_cons c _).isInfix)
    rw [List.cons_append, List.cons_append, breakOn, if_neg (not_isPrefix_of_not_isInfix h),
      ih hrest]
    rfl

/-- The two parts and the pattern between them make up the list. -/
theorem eq_of_breakOn {a b : List α} (h : breakOn pat s = some (a, b)) : s = a ++ pat ++ b := by
  induction s generalizing a with
  | nil => cases h
  | cons c s ih =>
    rw [breakOn] at h
    split at h
    · next hpat =>
      cases h
      obtain ⟨rest, hrest⟩ := hpat
      rw [← hrest, List.drop_left, List.nil_append]
    · obtain ⟨⟨a', b'⟩, hcut, heq⟩ := Option.map_eq_some_iff.mp h
      cases heq
      rw [List.cons_append, List.cons_append, ← ih hcut]

/-- A list in which the pattern does not occur is not cut. -/
theorem breakOn_eq_none (h : ¬ pat <:+: s) : breakOn pat s = none := by
  induction s with
  | nil => rfl
  | cons c s ih =>
    have hrest : ¬ pat <:+: s := fun hin => h (hin.trans (List.suffix_cons c s).isInfix)
    rw [breakOn, if_neg fun hpat => h hpat.isInfix, ih hrest]
    rfl

theorem secondPiece_append {c : α} (hc : pat.head? = some c) (h : ¬ pat <:+: s ++ pat.dropLast)
    (hrest : c ∉ rest) :
    secondPiece pat (s ++ pat ++ rest) = some rest := by
  have hpat : pat ≠ [] := by
    rintro rfl
    cases hc
  have hnone : ¬ pat <:+: rest := by
    obtain ⟨tail, rfl⟩ := List.head?_eq_some_iff.mp hc
    exact fun hin => hrest (hin.subset List.mem_cons_self)
  rw [secondPiece, breakOn_append hpat h, Option.map_some, breakOn_eq_none hnone]
  rfl

end Lib
