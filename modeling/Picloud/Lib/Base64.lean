import Mathlib.Data.Nat.Notation
import Mathlib.Tactic.Common

/-!
# Base64

The standard alphabet with padding: three bytes are four digits, and the bytes that are left are filled
up. Decoding takes only what encoding gives.
-/

namespace Lib

namespace Base64

/-! ## Digits -/

/-- The digits. -/
def alphabet : List Char :=
  "ABCDEFGHIJKLMNOPQRSTUVWXYZabcdefghijklmnopqrstuvwxyz0123456789+/".toList

/-- The digit of a number below 64. -/
def digit (n : ℕ) : Char := alphabet.getD n '='

/-- The number of a digit. -/
def value (c : Char) : Option ℕ := alphabet.findIdx? (· = c)

/-- The character that fills up. -/
def pad : Char := '='

theorem value_digit {n : ℕ} (h : n < 64) : value (digit n) = some n := by
  revert n
  decide +kernel

theorem digit_ne_pad {n : ℕ} (h : n < 64) : digit n ≠ pad := by
  revert n
  decide +kernel

/-! ## Encoding -/

/-- The digits of some bytes. -/
def encodeBytes : List UInt8 → List Char
  | [] => []
  | [a] => [digit (a.toNat / 4), digit (a.toNat % 4 * 16), pad, pad]
  | [a, b] => [digit (a.toNat / 4), digit (a.toNat % 4 * 16 + b.toNat / 16),
      digit (b.toNat % 16 * 4), pad]
  | a :: b :: c :: rest => digit (a.toNat / 4) :: digit (a.toNat % 4 * 16 + b.toNat / 16) ::
      digit (b.toNat % 16 * 4 + c.toNat / 64) :: digit (c.toNat % 64) :: encodeBytes rest

/-- The text of some bytes. -/
def encode (data : List UInt8) : String := String.ofList (encodeBytes data)

/-! ## Decoding -/

/-- The byte that is left. -/
def lastByte (a b : Char) : Option (List UInt8) :=
  (value a).bind fun x => (value b).bind fun y =>
    if y % 16 = 0 then some [UInt8.ofNat (x * 4 + y / 16)] else none

/-- The two bytes that are left. -/
def lastBytes (a b c : Char) : Option (List UInt8) :=
  (value a).bind fun x => (value b).bind fun y => (value c).bind fun z =>
    if z % 4 = 0 then some [UInt8.ofNat (x * 4 + y / 16), UInt8.ofNat (y % 16 * 16 + z / 4)] else none

/-- Three bytes. -/
def threeBytes (a b c d : Char) : Option (List UInt8) :=
  (value a).bind fun x => (value b).bind fun y => (value c).bind fun z => (value d).map fun w =>
    [UInt8.ofNat (x * 4 + y / 16), UInt8.ofNat (y % 16 * 16 + z / 4), UInt8.ofNat (z % 4 * 64 + w)]

/-- The bytes of some digits. -/
def decodeBytes : List Char → Option (List UInt8)
  | [] => some []
  | a :: b :: c :: d :: rest =>
    if rest = [] ∧ d = pad then if c = pad then lastByte a b else lastBytes a b c
    else (threeBytes a b c d).bind fun bytes => (decodeBytes rest).map (bytes ++ ·)
  | _ => none

/-- The bytes of a text. -/
def decode (text : String) : Option (List UInt8) := decodeBytes text.toList

/-! ## The round trip -/

theorem ofNat_of_eq {n : ℕ} {a : UInt8} (h : n = a.toNat) : UInt8.ofNat n = a := by
  rw [h]
  exact UInt8.ofNat_toNat

theorem decodeBytes_encodeBytes (data : List UInt8) : decodeBytes (encodeBytes data) = some data := by
  induction data using encodeBytes.induct with
  | case1 => rfl
  | case2 a =>
    have ha := a.toNat_lt
    rw [encodeBytes, decodeBytes, if_pos ⟨rfl, rfl⟩, if_pos rfl, lastByte,
      value_digit (by omega), value_digit (by omega), Option.bind_some, Option.bind_some,
      if_pos (by omega), ofNat_of_eq (a := a) (by omega)]
  | case3 a b =>
    have ha := a.toNat_lt
    have hb := b.toNat_lt
    rw [encodeBytes, decodeBytes, if_pos ⟨rfl, rfl⟩, if_neg (digit_ne_pad (by omega)), lastBytes,
      value_digit (by omega), value_digit (by omega), value_digit (by omega), Option.bind_some,
      Option.bind_some, Option.bind_some, if_pos (by omega), ofNat_of_eq (a := a) (by omega),
      ofNat_of_eq (a := b) (by omega)]
  | case4 a b c rest ih =>
    have ha := a.toNat_lt
    have hb := b.toNat_lt
    have hc := c.toNat_lt
    rw [encodeBytes, decodeBytes, if_neg (fun h => digit_ne_pad (by omega) h.2), threeBytes,
      value_digit (by omega), value_digit (by omega), value_digit (by omega),
      value_digit (by omega), Option.bind_some, Option.bind_some, Option.bind_some,
      Option.map_some, Option.bind_some, ih, ofNat_of_eq (a := a) (by omega),
      ofNat_of_eq (a := b) (by omega), ofNat_of_eq (a := c) (by omega)]
    rfl

/-- **What is encoded is decoded.** -/
@[simp] theorem decode_encode (data : List UInt8) : decode (encode data) = some data := by
  rw [decode, encode, String.toList_ofList]
  exact decodeBytes_encodeBytes data

example : encode [77, 97] = "TWE=" := by decide +kernel

end Base64

end Lib
