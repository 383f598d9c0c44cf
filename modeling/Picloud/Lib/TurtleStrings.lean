import Mathlib.Data.List.Basic
import Mathlib.Tactic.Common

/-!
# Strings of Turtle

The grammar of a short string literal (`STRING_LITERAL_QUOTE`): characters that stand for themselves,
escaped characters, and numbers of characters. A literal stands for one text (`StringLiteral.unique`),
and a text between quotes stands for itself exactly when all its characters do
(`stringLiteral_self_iff`).
-/

namespace Lib

/-- A character that stands for itself. -/
def PlainChar (c : Char) : Prop := c ≠ '"' ∧ c ≠ '\\' ∧ c ≠ '\n' ∧ c ≠ '\r'

/-- What a character behind a backslash stands for. -/
def escapedChar : Char → Option Char
  | 't' => some '\t'
  | 'b' => some '\x08'
  | 'n' => some '\n'
  | 'r' => some '\r'
  | 'f' => some '\x0c'
  | '"' => some '"'
  | '\'' => some '\''
  | '\\' => some '\\'
  | _ => none

/-- The value of a hexadecimal digit. -/
def hexDigit (c : Char) : Option ℕ :=
  if '0' ≤ c ∧ c ≤ '9' then some (c.toNat - '0'.toNat)
  else if 'a' ≤ c ∧ c ≤ 'f' then some (c.toNat - 'a'.toNat + 10)
  else if 'A' ≤ c ∧ c ≤ 'F' then some (c.toNat - 'A'.toNat + 10)
  else none

/-- The character with a number in hexadecimal. -/
def hexChar (digits : List Char) : Option Char := do
  let values ← digits.mapM hexDigit
  let n := values.foldl (fun n d => 16 * n + d) 0
  if n.isValidChar then some (Char.ofNat n) else none

/-- The characters between the quotes, and the text they stand for. -/
inductive LiteralBody : List Char → List Char → Prop
  | nil : LiteralBody [] []
  | plain {c : Char} {s v : List Char} (hc : PlainChar c) (h : LiteralBody s v) :
      LiteralBody (c :: s) (c :: v)
  | escaped {e c : Char} {s v : List Char} (hc : escapedChar e = some c) (h : LiteralBody s v) :
      LiteralBody ('\\' :: e :: s) (c :: v)
  | shortNumber {digits s v : List Char} {c : Char} (hlength : digits.length = 4)
      (hc : hexChar digits = some c) (h : LiteralBody s v) :
      LiteralBody ('\\' :: 'u' :: (digits ++ s)) (c :: v)
  | longNumber {digits s v : List Char} {c : Char} (hlength : digits.length = 8)
      (hc : hexChar digits = some c) (h : LiteralBody s v) :
      LiteralBody ('\\' :: 'U' :: (digits ++ s)) (c :: v)

/-- The literal is a string literal that stands for the text. -/
def StringLiteral (literal text : String) : Prop :=
  ∃ body, literal.toList = '"' :: body ++ ['"'] ∧ LiteralBody body text.toList

/-- A literal stands for one text only. -/
theorem LiteralBody.unique {s v w : List Char} (hv : LiteralBody s v) (hw : LiteralBody s w) : v = w := by
  induction hv generalizing w with
  | nil =>
    cases hw
    rfl
  | plain hc _ ih =>
    cases hw with
    | plain _ h => rw [ih h]
    | escaped => exact absurd rfl hc.2.1
    | shortNumber => exact absurd rfl hc.2.1
    | longNumber => exact absurd rfl hc.2.1
  | escaped hc _ ih =>
    cases hw with
    | plain hc' _ => exact absurd rfl hc'.2.1
    | escaped hc' h => rw [ih h, Option.some.inj (hc.symm.trans hc')]
    | shortNumber => cases hc
    | longNumber => cases hc
  | @shortNumber digits s v c hlength hc _ ih =>
    generalize heq : '\\' :: 'u' :: (digits ++ s) = t at hw
    cases hw with
    | nil => cases heq
    | plain hc' _ => exact absurd (List.cons.inj heq).1.symm hc'.2.1
    | escaped hc' _ =>
      cases heq
      cases hc'
    | shortNumber hlength' hc' h =>
      obtain ⟨rfl, rfl⟩ := List.append_inj (List.cons.inj (List.cons.inj heq).2).2
        (hlength.trans hlength'.symm)
      rw [ih h, Option.some.inj (hc.symm.trans hc')]
    | longNumber => cases heq
  | @longNumber digits s v c hlength hc _ ih =>
    generalize heq : '\\' :: 'U' :: (digits ++ s) = t at hw
    cases hw with
    | nil => cases heq
    | plain hc' _ => exact absurd (List.cons.inj heq).1.symm hc'.2.1
    | escaped hc' _ =>
      cases heq
      cases hc'
    | shortNumber => cases heq
    | longNumber hlength' hc' h =>
      obtain ⟨rfl, rfl⟩ := List.append_inj (List.cons.inj (List.cons.inj heq).2).2
        (hlength.trans hlength'.symm)
      rw [ih h, Option.some.inj (hc.symm.trans hc')]

theorem StringLiteral.unique {literal text text' : String} (h : StringLiteral literal text)
    (h' : StringLiteral literal text') : text = text' := by
  obtain ⟨body, hbody, h⟩ := h
  obtain ⟨body', hbody', h'⟩ := h'
  have heq : '"' :: body ++ ['"'] = '"' :: body' ++ ['"'] := hbody.symm.trans hbody'
  rw [List.append_left_inj, List.cons_inj_right] at heq
  subst heq
  exact String.toList_injective (h.unique h')

/-- Each escape is longer than what it stands for. -/
theorem LiteralBody.length_le {s v : List Char} (h : LiteralBody s v) :
    v.length ≤ s.length ∧ (v.length = s.length → ∀ c ∈ s, PlainChar c) := by
  induction h with
  | nil => exact ⟨Nat.le_refl _, fun _ c hc => absurd hc List.not_mem_nil⟩
  | plain hc _ ih =>
    simp only [List.length_cons]
    refine ⟨by omega, fun hlength => List.forall_mem_cons.mpr ⟨hc, ih.2 (by omega)⟩⟩
  | escaped hc _ ih =>
    simp only [List.length_cons]
    exact ⟨by omega, fun hlength => absurd hlength (by omega)⟩
  | shortNumber hlength' hc _ ih =>
    simp only [List.length_cons, List.length_append, hlength']
    exact ⟨by omega, fun hlength => absurd hlength (by omega)⟩
  | longNumber hlength' hc _ ih =>
    simp only [List.length_cons, List.length_append, hlength']
    exact ⟨by omega, fun hlength => absurd hlength (by omega)⟩

theorem literalBody_self {s : List Char} (h : ∀ c ∈ s, PlainChar c) : LiteralBody s s := by
  induction s with
  | nil => exact .nil
  | cons c s ih => exact .plain (h c List.mem_cons_self) (ih fun d hd => h d (List.mem_cons_of_mem c hd))

/-- **A text between quotes stands for itself exactly when all its characters do.** -/
theorem stringLiteral_self_iff {text : String} :
    StringLiteral ("\"" ++ text ++ "\"") text ↔ ∀ c ∈ text.toList, PlainChar c := by
  have hquotes : ("\"" ++ text ++ "\"").toList = '"' :: text.toList ++ ['"'] := by simp
  constructor
  · rintro ⟨body, hbody, h⟩
    rw [hquotes, List.append_left_inj, List.cons_inj_right] at hbody
    rw [← hbody] at h
    exact h.length_le.2 rfl
  · intro h
    exact ⟨text.toList, hquotes, literalBody_self h⟩

end Lib
