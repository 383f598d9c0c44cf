import Mathlib.Data.List.Lex
import Mathlib.Order.Hom.Basic
import Mathlib.Tactic.Linarith
import Mathlib.Tactic.Ring

/-!
# Bytes, and fixed-width big-endian keys

Machine words carry their numeric order. A list of bytes is compared lexicographically, and on
lists of one length that order is the numeric order of the big-endian value, so the big-endian
encoding of a word is an order embedding.
-/

namespace Lib

/-- A byte string. -/
abbrev Bytes := List UInt8

instance linearOrderUInt8 : LinearOrder UInt8 where
  le_refl _ := UInt8.le_refl _
  le_trans _ _ _ := UInt8.le_trans
  le_antisymm _ _ := UInt8.le_antisymm
  le_total := UInt8.le_total
  lt_iff_le_not_ge a b := by
    rw [UInt8.lt_iff_toNat_lt, UInt8.le_iff_toNat_le, UInt8.le_iff_toNat_le]
    omega
  toDecidableLE := inferInstance
  toDecidableEq := inferInstance
  toDecidableLT := inferInstance

instance linearOrderUInt64 : LinearOrder UInt64 where
  le_refl _ := UInt64.le_refl _
  le_trans _ _ _ := UInt64.le_trans
  le_antisymm _ _ := UInt64.le_antisymm
  le_total := UInt64.le_total
  lt_iff_le_not_ge a b := by
    rw [UInt64.lt_iff_toNat_lt, UInt64.le_iff_toNat_le, UInt64.le_iff_toNat_le]
    omega
  toDecidableLE := inferInstance
  toDecidableEq := inferInstance
  toDecidableLT := inferInstance

/-- The number whose big-endian digits in base 256 are the given bytes. -/
def beValue : Bytes → ℕ
  | [] => 0
  | b :: bs => b.toNat * 256 ^ bs.length + beValue bs

theorem beValue_lt (bs : Bytes) : beValue bs < 256 ^ bs.length := by
  induction bs with
  | nil => simp [beValue]
  | cons b bs ih =>
    have hb : b.toNat + 1 ≤ 256 := b.toNat_lt
    calc beValue (b :: bs) < b.toNat * 256 ^ bs.length + 256 ^ bs.length := by
          rw [beValue]; omega
      _ = (b.toNat + 1) * 256 ^ bs.length := by ring
      _ ≤ 256 * 256 ^ bs.length := Nat.mul_le_mul_right _ hb
      _ = 256 ^ (b :: bs).length := by rw [List.length_cons, pow_succ, mul_comm]

/-- On byte strings of one length the lexicographic order is the order of the values. -/
theorem lt_iff_beValue_lt {as bs : Bytes} (h : as.length = bs.length) :
    as < bs ↔ beValue as < beValue bs := by
  induction as generalizing bs with
  | nil =>
    obtain rfl : bs = [] := List.length_eq_zero_iff.mp h.symm
    simp [beValue]
  | cons a as ih =>
    cases bs with
    | nil => simp at h
    | cons b bs =>
      rw [List.length_cons, List.length_cons, Nat.add_right_cancel_iff] at h
      have ha := beValue_lt as
      have hb := beValue_lt bs
      rw [List.cons_lt_cons_iff, ih h, beValue, beValue, h, UInt8.lt_iff_toNat_lt]
      rw [h] at ha
      constructor
      · rintro (hlt | ⟨rfl, hlt⟩)
        · -- a smaller leading digit outweighs whatever follows
          have : (a.toNat + 1) * 256 ^ bs.length ≤ b.toNat * 256 ^ bs.length :=
            Nat.mul_le_mul_right _ hlt
          linarith [Nat.add_mul a.toNat 1 (256 ^ bs.length)]
        · omega
      · intro hlt
        rcases Nat.lt_trichotomy a.toNat b.toNat with hab | hab | hab
        · exact Or.inl hab
        · rw [hab] at hlt
          exact Or.inr ⟨UInt8.toNat_inj.mp hab, by omega⟩
        · have : (b.toNat + 1) * 256 ^ bs.length ≤ a.toNat * 256 ^ bs.length :=
            Nat.mul_le_mul_right _ hab
          linarith [Nat.add_mul b.toNat 1 (256 ^ bs.length)]

/-- `u64::to_be_bytes`. -/
def toBeBytes (i : UInt64) : Bytes :=
  [(i >>> 56).toUInt8, (i >>> 48).toUInt8, (i >>> 40).toUInt8, (i >>> 32).toUInt8,
    (i >>> 24).toUInt8, (i >>> 16).toUInt8, (i >>> 8).toUInt8, i.toUInt8]

/-- `u64::from_be_bytes`. -/
def fromBeBytes (bs : Bytes) : UInt64 := UInt64.ofNat (beValue bs)

@[simp] theorem length_toBeBytes (i : UInt64) : (toBeBytes i).length = 8 := rfl

theorem beValue_toBeBytes (i : UInt64) : beValue (toBeBytes i) = i.toNat := by
  have hi := i.toNat_lt
  simp only [toBeBytes, beValue, UInt64.toNat_toUInt8, UInt64.toNat_shiftRight,
    Nat.shiftRight_eq_div_pow, List.length_cons, List.length_nil, UInt64.reduceToNat]
  norm_num
  omega

/-- Decoding an encoded word gives the word back. -/
@[simp] theorem fromBeBytes_toBeBytes (i : UInt64) : fromBeBytes (toBeBytes i) = i := by
  rw [fromBeBytes, beValue_toBeBytes, UInt64.ofNat_toNat]

/-- Byte order of the encodings is numeric order of the words. -/
theorem toBeBytes_lt_iff (i j : UInt64) : toBeBytes i < toBeBytes j ↔ i < j := by
  rw [lt_iff_beValue_lt (by simp), beValue_toBeBytes, beValue_toBeBytes, UInt64.lt_iff_toNat_lt]

/-- Big-endian encoding as an order embedding. -/
def beKey : UInt64 ↪o Bytes :=
  OrderEmbedding.ofStrictMono toBeBytes fun i j h => (toBeBytes_lt_iff i j).mpr h

@[simp] theorem beKey_apply (i : UInt64) : beKey i = toBeBytes i := rfl

end Lib
