import Mathlib.Data.Nat.Log
import Mathlib.Data.List.TakeWhile
import Mathlib.Data.Nat.Digits.Defs
import Mathlib.Tactic.Ring
import Mathlib.Tactic.SplitIfs
import Mathlib.Algebra.Order.Ring.Nat

/-!
# Floating point numbers of 64 bits

A finite number is a mantissa below `2 ^ 53` times a power of two. `ofRatio` rounds a ratio to the nearest
number, ties to the even mantissa; `parse` reads a decimal text, and `saturate` is the conversion to an
unsigned integer type, which cuts off the fraction and stays in the range of the type. A natural number
comes back from its decimal text exactly when it is such a number within the range, or the end of it
(`saturate_ofRatio`).
-/

namespace Lib

/-- A floating point number. -/
inductive Binary64 where
  | nan
  | infinite (negative : Bool)
  | finite (negative : Bool) (mantissa : ℕ) (exponent : ℤ)
deriving DecidableEq

namespace Binary64

/-! ## Rounding -/

/-- The integer next to a ratio, the even one of two. -/
def roundHalfEven (num den : ℕ) : ℕ :=
  if den < 2 * (num % den) ∨ (2 * (num % den) = den ∧ num / den % 2 = 1) then num / den + 1
  else num / den

/-- The binary exponent of a ratio, down to far below the smallest number. -/
def log2Ratio (num den : ℕ) : ℤ := (num * 2 ^ 1200 / den).log2 - 1200

/-- The number next to a ratio. -/
def ofRatio (negative : Bool) (num den : ℕ) : Binary64 :=
  if num = 0 then .finite negative 0 (-1074)
  else
    let exponent := max (log2Ratio num den - 52) (-1074)
    let mantissa := roundHalfEven (num * 2 ^ (-exponent).toNat) (den * 2 ^ exponent.toNat)
    if mantissa = 2 ^ 53 then
      if 971 < exponent + 1 then .infinite negative else .finite negative (2 ^ 52) (exponent + 1)
    else if 971 < exponent then .infinite negative
    else .finite negative mantissa exponent

/-! ## Texts -/

/-- `digits` times a power of ten. -/
def ofDecimal (negative : Bool) (digits : List Char) (power : ℤ) : Binary64 :=
  ofRatio negative (Nat.ofDigitChars 10 digits 0 * 10 ^ power.toNat) (10 ^ (-power).toNat)

/-- A sign in front. -/
def splitSign : List Char → Bool × List Char
  | '-' :: cs => (true, cs)
  | '+' :: cs => (false, cs)
  | cs => (false, cs)

/-- A fraction in front. -/
def splitFraction : List Char → List Char × List Char
  | '.' :: cs => (cs.takeWhile Char.isDigit, cs.dropWhile Char.isDigit)
  | cs => ([], cs)

/-- The power of ten behind the digits, which is all that is left. -/
def powerOf : List Char → Option ℤ
  | [] => some 0
  | c :: cs =>
    let (negative, digits) := splitSign cs
    if (c = 'e' ∨ c = 'E') ∧ digits ≠ [] ∧ digits.all Char.isDigit then
      let power : ℤ := Nat.ofDigitChars 10 digits 0
      some (if negative then -power else power)
    else none

/-- `str::parse::<f64>`. -/
def parse (text : String) : Option Binary64 :=
  let (negative, cs) := splitSign text.toList
  let name := String.ofList (cs.map Char.toLower)
  if name = "inf" ∨ name = "infinity" then some (.infinite negative)
  else if name = "nan" then some .nan
  else
    let (fraction, rest) := splitFraction (cs.dropWhile Char.isDigit)
    let digits := cs.takeWhile Char.isDigit ++ fraction
    if digits = [] then none
    else (powerOf rest).map fun power => ofDecimal negative digits (power - fraction.length)

/-! ## Conversions -/

/-- `as` an unsigned integer type whose greatest number is given. -/
def saturate (top : ℕ) : Binary64 → ℕ
  | .nan => 0
  | .infinite negative => if negative then 0 else top
  | .finite negative mantissa exponent =>
    if negative then 0 else min top (mantissa * 2 ^ exponent.toNat / 2 ^ (-exponent).toNat)

/-- `to_bits`, of a number that `ofRatio` returns. -/
def toBits : Binary64 → UInt64
  | .nan => 0x7FF8000000000000
  | .infinite negative => signBit negative + 0x7FF0000000000000
  | .finite negative mantissa exponent =>
    if mantissa < 2 ^ 52 then signBit negative + UInt64.ofNat mantissa
    else signBit negative + UInt64.ofNat ((exponent + 1075).toNat * 2 ^ 52 + (mantissa - 2 ^ 52))
where
  /-- The bit of the sign. -/
  signBit (negative : Bool) : UInt64 := if negative then 0x8000000000000000 else 0

example : (parse "-2.5e0").map toBits = some 0xC004000000000000 := by decide +kernel

example : (parse "0.1").map toBits = some 0x3FB999999999999A := by decide +kernel

example : (parse "18446744073709551615").map (saturate (2 ^ 64 - 1)) = some (2 ^ 64 - 1) := by decide +kernel

/-! ## Natural numbers -/

variable {n k top : ℕ}

/-- The number is a mantissa of 53 bits times a power of two. -/
def Exact (n : ℕ) : Prop := ∃ mantissa k, mantissa < 2 ^ 53 ∧ n = mantissa * 2 ^ k

/-- The bits of a number that are rounded off. -/
def tailBits (n : ℕ) : ℕ := n.log2 - 52

/-- The number next to a natural number. -/
def roundNat (n : ℕ) : ℕ := roundHalfEven n (2 ^ tailBits n) * 2 ^ tailBits n

theorem roundHalfEven_mul (q : ℕ) {den : ℕ} (hden : 0 < den) : roundHalfEven (q * den) den = q := by
  rw [roundHalfEven, Nat.mul_mod_left, Nat.mul_div_cancel q hden, if_neg (by omega)]

theorem roundHalfEven_le (num den : ℕ) : roundHalfEven num den ≤ num / den + 1 := by
  rw [roundHalfEven]
  split_ifs
  · exact le_rfl
  · exact Nat.le_succ _

theorem le_roundHalfEven (num den : ℕ) : num / den ≤ roundHalfEven num den := by
  rw [roundHalfEven]
  split_ifs
  · exact Nat.le_succ _
  · exact le_rfl

theorem log2_mul_pow (hn : n ≠ 0) (k : ℕ) : (n * 2 ^ k).log2 = n.log2 + k := by
  have hpos : 0 < 2 ^ k := Nat.two_pow_pos k
  refine (Nat.log2_eq_iff (Nat.mul_ne_zero hn hpos.ne')).mpr ⟨?_, ?_⟩
  · rw [pow_add]
    exact Nat.mul_le_mul_right _ (Nat.log2_self_le hn)
  · rw [Nat.add_right_comm, pow_add]
    exact Nat.mul_lt_mul_of_pos_right Nat.lt_log2_self hpos

theorem log2Ratio_one (hn : n ≠ 0) : log2Ratio n 1 = n.log2 := by
  rw [log2Ratio, Nat.div_one, log2_mul_pow hn]
  omega

theorem log2_le_of_lt (hn : n < 2 ^ 53) : n.log2 ≤ 52 := by
  by_cases h : n = 0
  · rw [h, Nat.log2_zero]
    omega
  · have := (Nat.log2_lt h).mpr hn
    omega

theorem tailBits_eq_zero (hn : n < 2 ^ 53) : tailBits n = 0 := by
  have := log2_le_of_lt hn
  rw [tailBits]
  omega

/-- A number below `2 ^ 53` is not rounded. -/
theorem roundNat_of_lt (hn : n < 2 ^ 53) : roundNat n = n := by
  have h := roundHalfEven_mul n one_pos
  rw [roundNat, tailBits_eq_zero hn, pow_zero, mul_one]
  rwa [mul_one] at h

theorem div_tailBits_lt (n : ℕ) : n / 2 ^ tailBits n < 2 ^ 53 := by
  rw [Nat.div_lt_iff_lt_mul (Nat.two_pow_pos _), ← pow_add]
  refine Nat.lt_log2_self.trans_le (Nat.pow_le_pow_right (by omega) ?_)
  rw [tailBits]
  omega

theorem le_div_tailBits (hn : 52 < n.log2) : 2 ^ 52 ≤ n / 2 ^ tailBits n := by
  have hne : n ≠ 0 := by
    rintro rfl
    rw [Nat.log2_zero] at hn
    omega
  rw [Nat.le_div_iff_mul_le (Nat.two_pow_pos _), ← pow_add]
  refine le_trans (Nat.pow_le_pow_right (by omega) ?_) (Nat.log2_self_le hne)
  rw [tailBits]
  omega

/-- A number of few bits keeps them all. -/
theorem saturate_ofRatio_of_le (hn : n ≠ 0) (hlog : n.log2 ≤ 52) :
    saturate top (ofRatio false n 1) = min top n := by
  have hexponent : max ((n.log2 : ℤ) - 52) (-1074) = n.log2 - 52 := by omega
  have hneg : (-((n.log2 : ℤ) - 52)).toNat = 52 - n.log2 := by omega
  have hpos : ((n.log2 : ℤ) - 52).toNat = 0 := by omega
  have hround := roundHalfEven_mul (n * 2 ^ (52 - n.log2)) one_pos
  have hlt : n * 2 ^ (52 - n.log2) < 2 ^ 53 := by
    have hbound : n * 2 ^ (52 - n.log2) < 2 ^ (n.log2 + 1) * 2 ^ (52 - n.log2) :=
      Nat.mul_lt_mul_of_pos_right Nat.lt_log2_self (Nat.two_pow_pos _)
    rwa [← pow_add, show n.log2 + 1 + (52 - n.log2) = 53 by omega] at hbound
  rw [mul_one] at hround
  rw [ofRatio, if_neg hn, log2Ratio_one hn, hexponent]
  dsimp only
  rw [hneg, hpos, pow_zero, mul_one, hround, if_neg hlt.ne, if_neg (by omega), saturate, hneg, hpos,
    pow_zero, mul_one, Nat.mul_div_cancel _ (Nat.two_pow_pos _)]
  rfl

/-- A number of more bits is rounded, or is out of the range. -/
theorem saturate_ofRatio_of_lt (hlog : 52 < n.log2) (htop : top ≤ 2 ^ 64) :
    saturate top (ofRatio false n 1) = min top (roundNat n) := by
  have hn : n ≠ 0 := by
    rintro rfl
    rw [Nat.log2_zero] at hlog
    omega
  have hexponent : max ((n.log2 : ℤ) - 52) (-1074) = tailBits n := by
    rw [tailBits]
    omega
  have hneg : (-(tailBits n : ℤ)).toNat = 0 := by omega
  have hpos : (tailBits n : ℤ).toNat = tailBits n := by omega
  have hmantissa := (le_div_tailBits hlog).trans (le_roundHalfEven n (2 ^ tailBits n))
  rw [ofRatio, if_neg hn, log2Ratio_one hn, hexponent]
  dsimp only
  rw [hneg, hpos, pow_zero, mul_one, one_mul, roundNat]
  generalize roundHalfEven n (2 ^ tailBits n) = mantissa at hmantissa ⊢
  have hfar : ∀ {e : ℕ}, 971 < e → top ≤ 2 ^ 52 * 2 ^ e := fun {e} he => by
    rw [← pow_add]
    exact htop.trans (Nat.pow_le_pow_right (by omega) (by omega))
  split_ifs with hcarry hover hover
  · have hle := hfar (show 971 < tailBits n + 1 by omega)
    rw [hcarry, saturate, if_neg (by decide)]
    rw [pow_succ] at hle
    omega
  · have he : ((tailBits n : ℤ) + 1).toNat = tailBits n + 1 := by omega
    have hneg' : (-((tailBits n : ℤ) + 1)).toNat = 0 := by omega
    rw [hcarry, saturate, if_neg (by decide), he, hneg', pow_zero, Nat.div_one, pow_succ]
    congr 1
    omega
  · have hle := hfar (show 971 < tailBits n by omega)
    have hmul := Nat.mul_le_mul_right (2 ^ tailBits n) hmantissa
    rw [saturate, if_neg (by decide)]
    omega
  · rw [saturate, if_neg (by decide), hpos, hneg, pow_zero, Nat.div_one]

/-- **A natural number is rounded and cut off at the end of the range.** -/
theorem saturate_ofRatio (n : ℕ) (htop : top ≤ 2 ^ 64) :
    saturate top (ofRatio false n 1) = min top (roundNat n) := by
  by_cases hn : n = 0
  · rw [hn, roundNat_of_lt (by omega), ofRatio, if_pos rfl, saturate, if_neg (by decide), Nat.zero_mul,
      Nat.zero_div]
  · by_cases hlog : n.log2 ≤ 52
    · have hlt : n < 2 ^ 53 := (Nat.log2_lt hn).mp (by omega)
      rw [saturate_ofRatio_of_le hn hlog, roundNat_of_lt hlt]
    · exact saturate_ofRatio_of_lt (by omega) htop

/-- A number is not rounded exactly when it fits. -/
theorem roundNat_eq_iff : roundNat n = n ↔ Exact n := by
  constructor
  · intro h
    have hle : roundHalfEven n (2 ^ tailBits n) ≤ 2 ^ 53 :=
      (roundHalfEven_le _ _).trans (div_tailBits_lt n)
    rcases hle.lt_or_eq with hlt | heq
    · exact ⟨_, _, hlt, h.symm⟩
    · refine ⟨2 ^ 52, tailBits n + 1, by omega, ?_⟩
      rw [roundNat, heq] at h
      have hshift : 2 ^ 52 * 2 ^ (tailBits n + 1) = 2 ^ 53 * 2 ^ tailBits n := by
        rw [pow_succ]
        omega
      exact h.symm.trans hshift.symm
  · rintro ⟨mantissa, k, hmantissa, hn⟩
    by_cases hlt : n < 2 ^ 53
    · exact roundNat_of_lt hlt
    · -- the bits rounded off are zero
      have hbits : tailBits n ≤ k := by
        have hbound : n < 2 ^ (53 + k) := by
          rw [hn, pow_add]
          exact Nat.mul_lt_mul_of_pos_right hmantissa (Nat.two_pow_pos k)
        have hlog := (Nat.log2_lt (show n ≠ 0 by omega)).mpr hbound
        rw [tailBits]
        omega
      have hsplit : n = mantissa * 2 ^ (k - tailBits n) * 2 ^ tailBits n := by
        rw [mul_assoc, ← pow_add, Nat.sub_add_cancel hbits, ← hn]
      have hround := roundHalfEven_mul (mantissa * 2 ^ (k - tailBits n)) (Nat.two_pow_pos (tailBits n))
      rw [← hsplit] at hround
      rw [roundNat, hround, ← hsplit]

/-- **A number comes back within the range exactly when it is a floating point number**, or the greatest
number of 64 bits, to which its neighbour is cut off. -/
theorem saturate_eq_iff :
    saturate (2 ^ 64 - 1) (ofRatio false n 1) = n ↔ n < 2 ^ 64 ∧ Exact n ∨ n = 2 ^ 64 - 1 := by
  rw [saturate_ofRatio n (by omega), ← roundNat_eq_iff]
  constructor
  · omega
  · rintro (⟨hlt, hexact⟩ | rfl)
    · omega
    · have hround : roundNat (2 ^ 64 - 1) = 2 ^ 64 := by decide +kernel
      rw [hround]
      omega

/-! ## Integers -/

/-- A decimal integer literal: its sign and its digits. -/
def integer (text : String) : Option (Bool × ℕ) :=
  let (negative, digits) := splitSign text.toList
  if digits ≠ [] ∧ digits.all Char.isDigit then some (negative, Nat.ofDigitChars 10 digits 0) else none

/-- The number that a sign and digits stand for. -/
def signed (literal : Bool × ℕ) : ℤ := if literal.1 then -literal.2 else literal.2

theorem toLower_of_isDigit {c : Char} (h : c.isDigit = true) : c.toLower = c := by
  simp only [Char.isDigit, Bool.and_eq_true, decide_eq_true_eq] at h
  refine dif_neg ?_
  rintro ⟨hupper, -⟩
  have hle : c.val.toNat ≤ 57 := h.2
  have hge : 65 ≤ c.val.toNat := hupper
  omega

/-- Digits are no name. -/
theorem map_toLower_ne {c : Char} {cs name : List Char} (hc : c.isDigit = true)
    (hname : name.head?.all (fun c => !c.isDigit) = true) : (c :: cs).map Char.toLower ≠ name := by
  rintro rfl
  rw [List.map_cons, toLower_of_isDigit hc, List.head?_cons, Option.all_some, hc] at hname
  cases hname

/-- An integer literal is read as the number next to it. -/
theorem parse_of_integer {text : String} {negative : Bool} (h : integer text = some (negative, n)) :
    parse text = some (ofRatio negative n 1) := by
  rw [integer] at h
  rw [parse]
  generalize splitSign text.toList = split at h ⊢
  obtain ⟨sign, digits⟩ := split
  dsimp only at h ⊢
  split_ifs at h with hdigits
  obtain ⟨hne, hall⟩ := hdigits
  rw [List.all_eq_true] at hall
  cases h
  have htake : digits.takeWhile Char.isDigit = digits := List.takeWhile_eq_self_iff.mpr hall
  have hdrop : digits.dropWhile Char.isDigit = [] := List.dropWhile_eq_nil_iff.mpr hall
  obtain ⟨c, cs, rfl⟩ := List.exists_cons_of_ne_nil hne
  have hname : ∀ name : String, name.toList.head?.all (fun c => !c.isDigit) = true →
      String.ofList ((c :: cs).map Char.toLower) ≠ name := by
    intro name hhead heq
    have hchars := congrArg String.toList heq
    rw [String.toList_ofList] at hchars
    exact map_toLower_ne (hall c List.mem_cons_self) hhead hchars
  have hfraction : splitFraction [] = ([], []) := rfl
  have hpower : powerOf [] = some 0 := rfl
  rw [if_neg (not_or.mpr ⟨hname "inf" (by decide), hname "infinity" (by decide)⟩),
    if_neg (hname "nan" (by decide)), hdrop, htake, hfraction]
  dsimp only
  rw [List.append_nil, if_neg hne, hpower, Option.map_some, ofDecimal]
  simp

theorem saturate_negative (top n : ℕ) : saturate top (ofRatio true n 1) = 0 := by
  rw [ofRatio]
  dsimp only
  split_ifs <;> rfl

end Binary64

end Lib
