import Picloud.Lib.Bytes
import Mathlib.Data.List.Chain
import Mathlib.Data.List.Infix
import Mathlib.Data.List.Sort
import Mathlib.Data.List.Lex
import Mathlib.Data.Char

/-!
# Texts as lists

`replaceAll` replaces the occurrences of a pattern that is not empty, from left to right;
`replaceAll_append` leaves alone what no occurrence ends in. `chunks` cuts a list into pieces of one
length, `hexLower` writes bytes in hexadecimal, `sortTexts` sorts strings, and `append_cons_inj` and
`append_cons_inj_first` read a text from its last and from its first separator.
-/

namespace Lib

variable {α : Type*}

/-! ## Separators -/

variable {s : List α} {sep : α}

/-- A text is cut at its last separator in one way. -/
theorem append_cons_inj {s' t t' : List α} (h : s ++ sep :: t = s' ++ sep :: t') (ht : sep ∉ t)
    (ht' : sep ∉ t') : s = s' ∧ t = t' := by
  rcases List.append_eq_append_iff.mp h with ⟨as, hs, htail⟩ | ⟨as, hs, htail⟩
  · cases as with
    | nil =>
      rw [List.nil_append, List.cons.injEq] at htail
      exact ⟨(hs.trans (List.append_nil s)).symm, htail.2⟩
    | cons a as =>
      rw [List.cons_append, List.cons.injEq] at htail
      exact absurd (htail.2 ▸ List.mem_append_right as List.mem_cons_self) ht
  · cases as with
    | nil =>
      rw [List.nil_append, List.cons.injEq] at htail
      exact ⟨hs.trans (List.append_nil s'), htail.2.symm⟩
    | cons a as =>
      rw [List.cons_append, List.cons.injEq] at htail
      exact absurd (htail.2 ▸ List.mem_append_right as List.mem_cons_self) ht'

/-- A text is cut at its first separator in one way. -/
theorem append_cons_inj_first {s' t t' : List α} (h : s ++ sep :: t = s' ++ sep :: t')
    (hs : sep ∉ s) (hs' : sep ∉ s') : s = s' ∧ t = t' := by
  have hreverse : t.reverse ++ sep :: s.reverse = t'.reverse ++ sep :: s'.reverse := by
    simpa using congrArg List.reverse h
  obtain ⟨ht, hs⟩ := append_cons_inj hreverse (by simpa using hs) (by simpa using hs')
  exact ⟨List.reverse_injective hs, List.reverse_injective ht⟩

/-- No two separators stand next to each other, and the text does not begin with one. -/
def Segmented (sep : α) (s : List α) : Prop :=
  s.head? ≠ some sep ∧ s.IsChain fun a b => ¬ (a = sep ∧ b = sep)

/-- A segment, a separator and segments. -/
theorem Segmented.cons {rest : List α} (hs : s ≠ []) (hsep : sep ∉ s) (h : Segmented sep rest) :
    Segmented sep (s ++ sep :: rest) := by
  have hsegment : s.IsChain fun a b => ¬ (a = sep ∧ b = sep) :=
    List.isChain_iff_forall_rel_of_append_cons_cons.mpr fun a b l₁ l₂ heq hab =>
      hsep (heq ▸ hab.1 ▸ List.mem_append_right l₁ List.mem_cons_self)
  have hrest : (sep :: rest).IsChain fun a b => ¬ (a = sep ∧ b = sep) := by
    refine List.isChain_cons.mpr ⟨fun b hb hab => h.1 (hab.2 ▸ hb), h.2⟩
  refine ⟨?_, List.isChain_append.mpr ⟨hsegment, hrest, fun a ha b _ hab => ?_⟩⟩
  · obtain ⟨c, tail, rfl⟩ := List.exists_cons_of_ne_nil hs
    rintro heq
    exact hsep (Option.some.inj heq ▸ List.mem_cons_self)
  · exact hsep (hab.1 ▸ List.mem_of_getLast? ha)

theorem segmented_of_notMem (h : sep ∉ s) : Segmented sep s := by
  refine ⟨fun heq => h (List.mem_of_head? heq), ?_⟩
  exact List.isChain_iff_forall_rel_of_append_cons_cons.mpr fun a b l₁ l₂ heq hab =>
    h (heq ▸ hab.1 ▸ List.mem_append_right l₁ List.mem_cons_self)

/-- What ends in two separators does not end in a segmented text. -/
theorem Segmented.not_isSuffix {rest : List α} (h : Segmented sep rest) {r : List α}
    (hr : r <+: rest) (hne : r ≠ []) {pat : List α} (hpat : [sep, sep] <:+ pat) (s : List α) :
    ¬ pat <:+ s ++ r := by
  intro hsuffix
  obtain ⟨a, ha⟩ := hpat.trans hsuffix
  obtain ⟨b, hb⟩ := hr
  obtain ⟨r₀, c, rfl⟩ := (List.eq_nil_or_concat' r).resolve_left hne
  have hlast : a ++ [sep] ++ [sep] = s ++ r₀ ++ [c] := by simpa using ha
  obtain ⟨hbefore, hc⟩ := List.append_inj' hlast rfl
  obtain rfl : sep = c := List.head_eq_of_cons_eq hc
  rcases List.eq_nil_or_concat' r₀ with rfl | ⟨r₁, d, rfl⟩
  · exact h.1 (hb ▸ rfl)
  · rw [← List.append_assoc] at hbefore
    obtain rfl : sep = d := List.head_eq_of_cons_eq (List.append_inj' hbefore rfl).2
    have hrest : rest = r₁ ++ sep :: sep :: b := by
      rw [← hb]
      simp
    exact List.isChain_iff_forall_rel_of_append_cons_cons.mp h.2 hrest ⟨rfl, rfl⟩

/-! ## Replacing -/

section Replace

variable [DecidableEq α] (pat new : List α)

/-- Replace the occurrences of the pattern, the first `skip` elements belonging to the last one. -/
def replaceFrom : ℕ → List α → List α
  | _, [] => []
  | skip + 1, _ :: s => replaceFrom skip s
  | 0, c :: s =>
    if pat <+: c :: s then new ++ replaceFrom (pat.length - 1) s else c :: replaceFrom 0 s

/-- `s.replace(pat, new)`, for a pattern that is not empty. -/
def replaceAll (s : List α) : List α := replaceFrom pat new 0 s

variable {pat new}

/-- Nothing is replaced in a text without occurrences. -/
theorem replaceFrom_of_not_isInfix {s : List α} (h : ¬ pat <:+: s) :
    replaceFrom pat new 0 s = s := by
  induction s with
  | nil => rfl
  | cons c s ih =>
    have hrest : ¬ pat <:+: s := fun hin => h (hin.trans (List.suffix_cons c s).isInfix)
    rw [replaceFrom, if_neg fun hpat => h hpat.isInfix, ih hrest]

theorem replaceFrom_append (hpat : pat ≠ []) {s rest : List α}
    (hends : ∀ r, r <+: rest → r ≠ [] → ∀ s, ¬ pat <:+ s ++ r) {skip : ℕ} (hskip : skip ≤ s.length) :
    replaceFrom pat new skip (s ++ rest) = replaceFrom pat new skip s ++ rest := by
  induction s generalizing skip with
  | nil =>
    obtain rfl : skip = 0 := Nat.le_zero.mp hskip
    refine replaceFrom_of_not_isInfix fun hin => ?_
    obtain ⟨a, b, hab⟩ := hin
    refine hends (a ++ pat) ⟨b, hab⟩ (by simp [hpat]) [] ?_
    exact List.suffix_append a pat
  | cons c s ih =>
    cases skip with
    | succ skip => exact ih (Nat.le_of_succ_le_succ hskip)
    | zero =>
      -- an occurrence at the front lies before the rest, or ends in it
      have hiff : pat <+: c :: s ++ rest ↔ pat <+: c :: s := by
        refine ⟨fun hin => ?_, fun hin => hin.trans (List.prefix_append (c :: s) rest)⟩
        rcases List.prefix_or_prefix_of_prefix hin (List.prefix_append (c :: s) rest) with
          hbefore | ⟨r, rfl⟩
        · exact hbefore
        · by_cases hr : r = []
          · rw [hr, List.append_nil]
          · exact absurd List.suffix_rfl
              (hends r ((List.prefix_append_right_inj (c :: s)).mp hin) hr (c :: s))
      rw [List.cons_append] at hiff
      rw [List.cons_append, replaceFrom, replaceFrom]
      by_cases hfront : pat <+: c :: s
      · have hlen : pat.length - 1 ≤ s.length := by
          have := hfront.length_le
          rw [List.length_cons] at this
          omega
        rw [if_pos hfront, if_pos (hiff.mpr hfront), ih hlen, List.append_assoc]
      · rw [if_neg hfront, if_neg (mt hiff.mp hfront), ih (Nat.zero_le _), List.cons_append]

/-- A text that no occurrence ends in stays. -/
theorem replaceAll_append (hpat : pat ≠ []) (s : List α) {rest : List α}
    (hends : ∀ r, r <+: rest → r ≠ [] → ∀ s, ¬ pat <:+ s ++ r) :
    replaceAll pat new (s ++ rest) = replaceAll pat new s ++ rest :=
  replaceFrom_append hpat hends (Nat.zero_le _)

/-- What has no first element of the pattern stays at the front. -/
theorem replaceAll_append_of_notMem {c : α} (hpat : pat.head? = some c) {s : List α} (h : c ∉ s)
    (rest : List α) : replaceAll pat new (s ++ rest) = s ++ replaceAll pat new rest := by
  induction s with
  | nil => rfl
  | cons d s ih =>
    rw [List.mem_cons, not_or] at h
    have hfront : ¬ pat <+: d :: (s ++ rest) := by
      rintro hin
      obtain ⟨p, rfl⟩ : ∃ p, pat = c :: p := by
        cases pat with
        | nil => cases hpat
        | cons c' p => exact ⟨p, by rw [Option.some.inj hpat]⟩
      exact h.1 (List.cons_prefix_cons.mp hin).1
    rw [List.cons_append, replaceAll, replaceFrom, if_neg hfront, ← replaceAll, ih h.2,
      List.cons_append]

/-- An occurrence at the front is replaced. -/
theorem replaceAll_pat_append (hpat : pat ≠ []) (rest : List α) :
    replaceAll pat new (pat ++ rest) = new ++ replaceAll pat new rest := by
  have hskip : ∀ s : List α, replaceFrom pat new s.length (s ++ rest) = replaceFrom pat new 0 rest := by
    intro s
    induction s with
    | nil => rfl
    | cons c s ih => exact ih
  cases hp : pat with
  | nil => exact absurd hp hpat
  | cons c p =>
    rw [← hp, replaceAll, replaceAll]
    have hcons : pat ++ rest = c :: (p ++ rest) := by rw [hp, List.cons_append]
    have hlength : pat.length - 1 = p.length := by rw [hp, List.length_cons, Nat.add_sub_cancel]
    rw [hcons, replaceFrom, if_pos (by rw [← hcons]; exact List.prefix_append _ _), hlength, hskip]

end Replace

/-! ## Sorting -/

/-- Sort strings by their characters. -/
def sortTexts (texts : List String) : List String :=
  texts.insertionSort fun a b => a.toList ≤ b.toList

theorem mem_sortTexts {text : String} {texts : List String} :
    text ∈ sortTexts texts ↔ text ∈ texts := List.mem_insertionSort _

/-! ## Chunks -/

/-- The pieces of a list, as long as the list at most. -/
def chunksFrom (size : ℕ) : ℕ → List α → List (List α)
  | 0, _ => []
  | fuel + 1, s => if s.isEmpty then [] else s.take size :: chunksFrom size fuel (s.drop size)

/-- `s.chunks(size)`: pieces of the given length, the last one possibly shorter. -/
def chunks (size : ℕ) (s : List α) : List (List α) := chunksFrom size s.length s

theorem flatten_chunksFrom {size : ℕ} (hsize : 1 ≤ size) {fuel : ℕ} (hfuel : s.length ≤ fuel) :
    (chunksFrom size fuel s).flatten = s := by
  induction fuel generalizing s with
  | zero =>
    obtain rfl : s = [] := List.length_eq_zero_iff.mp (Nat.le_zero.mp hfuel)
    rfl
  | succ fuel ih =>
    rw [chunksFrom]
    by_cases hs : s.isEmpty
    · rw [if_pos hs, List.isEmpty_iff.mp hs]
      rfl
    · have hdrop : (s.drop size).length ≤ fuel := by
        rw [List.length_drop]
        omega
      rw [if_neg hs, List.flatten_cons, ih hdrop, List.take_append_drop]

/-- The pieces make up the list. -/
theorem flatten_chunks {size : ℕ} (hsize : 1 ≤ size) (s : List α) : (chunks size s).flatten = s :=
  flatten_chunksFrom hsize le_rfl

/-! ## Hexadecimal digits -/

/-- The two digits of a byte. -/
def hexByte (b : UInt8) : List Char := [Nat.digitChar (b.toNat / 16), Nat.digitChar (b.toNat % 16)]

/-- Bytes in lower-case hexadecimal. -/
def hexLower (bytes : Bytes) : List Char := bytes.flatMap hexByte

theorem length_hexLower (bytes : Bytes) : (hexLower bytes).length = 2 * bytes.length := by
  induction bytes with
  | nil => rfl
  | cons b bytes ih =>
    rw [hexLower] at ih ⊢
    rw [List.flatMap_cons, List.length_append, ih]
    simp [hexByte]
    omega

theorem digitChar_inj : ∀ a < 16, ∀ b < 16, Nat.digitChar a = Nat.digitChar b → a = b := by decide

theorem digitChar_ne_slash : ∀ a < 16, Nat.digitChar a ≠ '/' := by decide

theorem hexByte_inj {a b : UInt8} (h : hexByte a = hexByte b) : a = b := by
  have ha := a.toNat_lt
  have hb := b.toNat_lt
  simp only [hexByte, List.cons.injEq, and_true] at h
  have hhigh := digitChar_inj _ (by omega) _ (by omega) h.1
  have hlow := digitChar_inj _ (by omega) _ (by omega) h.2
  exact UInt8.toNat_inj.mp (by omega)

theorem hexLower_injective : Function.Injective hexLower := by
  intro s t h
  induction s generalizing t with
  | nil =>
    cases t with
    | nil => rfl
    | cons b t => cases h
  | cons a s ih =>
    cases t with
    | nil => cases h
    | cons b t =>
      rw [hexLower, hexLower, List.flatMap_cons, List.flatMap_cons] at h
      obtain ⟨hbyte, hrest⟩ := List.append_inj h rfl
      rw [hexByte_inj hbyte, ih hrest]

theorem slash_notMem_hexLower (bytes : Bytes) : '/' ∉ hexLower bytes := by
  intro h
  obtain ⟨b, -, hb⟩ := List.mem_flatMap.mp h
  have hlt := b.toNat_lt
  simp only [hexByte, List.mem_cons, List.not_mem_nil, or_false] at hb
  rcases hb with hb | hb
  · exact digitChar_ne_slash _ (by omega) hb.symm
  · exact digitChar_ne_slash _ (by omega) hb.symm

end Lib
