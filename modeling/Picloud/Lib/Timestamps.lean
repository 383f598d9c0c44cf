import Mathlib.Tactic.Ring
import Picloud.Lib.Calendar

/-!
# Instants as texts

The microseconds since the start of the year 0, and their texts with fixed-width fields: a date, `T`, a
time with a separator of its own, a fraction of six digits, and `Z`. Up to the year 9999 a text is read
back (`readInstant_instantText`).
-/

namespace Lib

/-! ## Digits -/

/-- Six digits. -/
def pad6 (n : ℕ) : List Char := pad2 (n / 10000) ++ pad4 (n % 10000)

/-- The number that a list of digits stands for. -/
def readDigits (digits : List Char) : ℕ := digits.foldl (fun n c => 10 * n + (c.toNat - '0'.toNat)) 0

theorem readDigits_append (a b : List Char) :
    readDigits (a ++ b) = readDigits a * 10 ^ b.length + readDigits b := by
  have hfrom : ∀ (b : List Char) (n : ℕ), b.foldl (fun n c => 10 * n + (c.toNat - '0'.toNat)) n =
      n * 10 ^ b.length + b.foldl (fun n c => 10 * n + (c.toNat - '0'.toNat)) 0 := by
    intro b
    induction b with
    | nil => exact fun n => by simp
    | cons c b ih =>
      intro n
      rw [List.foldl_cons, ih, List.foldl_cons, ih (10 * 0 + _), List.length_cons, pow_succ]
      ring
  rw [readDigits, List.foldl_append, hfrom]
  rfl

theorem readDigits_pad2 {n : ℕ} (h : n < 100) : readDigits (pad2 n) = n := by
  have hdigit : ∀ d < 10, (Nat.digitChar d).toNat - '0'.toNat = d := by decide
  have htens := hdigit (n / 10) (by omega)
  have hones := hdigit (n % 10) (by omega)
  rw [pad2, readDigits, List.foldl_cons, List.foldl_cons, List.foldl_nil, htens, hones]
  omega

theorem readDigits_pad4 {n : ℕ} (h : n < 10000) : readDigits (pad4 n) = n := by
  rw [pad4, readDigits_append, readDigits_pad2 (by omega), readDigits_pad2 (by omega)]
  have hlength : (pad2 (n % 100)).length = 2 := rfl
  rw [hlength]
  omega

theorem readDigits_pad6 {n : ℕ} (h : n < 1000000) : readDigits (pad6 n) = n := by
  rw [pad6, readDigits_append, readDigits_pad2 (by omega), readDigits_pad4 (by omega)]
  have hlength : (pad4 (n % 10000)).length = 4 := rfl
  rw [hlength]
  omega

/-! ## Instants -/

/-- The text of an instant. -/
def instantText (sep : Char) (micros : ℕ) : List Char :=
  hourText 'T' (micros / 3600000000) ++ sep :: (pad2 (micros / 60000000 % 60) ++
    sep :: (pad2 (micros / 1000000 % 60) ++ '.' :: (pad6 (micros % 1000000) ++ ['Z'])))

/-- Read the fields of a text where they stand. -/
def readInstant (text : List Char) : ℕ :=
  let year := readDigits (text.take 4)
  let month := readDigits ((text.drop 5).take 2) - 1
  let day := readDigits ((text.drop 8).take 2) - 1
  let days := daysBeforeYear year + (daysBeforeMonth (isLeapYear year) month + day)
  (days * 24 + readDigits ((text.drop 11).take 2)) * 3600000000 +
    readDigits ((text.drop 14).take 2) * 60000000 + readDigits ((text.drop 17).take 2) * 1000000 +
    readDigits ((text.drop 20).take 6)

/-- An instant is read back from its text. -/
theorem readInstant_instantText (sep : Char) {micros : ℕ}
    (h : micros < 3600000000 * (24 * daysOfCalendar)) :
    readInstant (instantText sep micros) = micros := by
  have hday : micros / 3600000000 / 24 < daysOfCalendar := by
    rw [daysOfCalendar] at h ⊢
    omega
  have hyear : readDigits ((instantText sep micros).take 4) = yearOf (micros / 3600000000 / 24) :=
    readDigits_pad4 (yearOf_lt hday)
  have hmonth : readDigits (((instantText sep micros).drop 5).take 2) =
      monthOfDay (micros / 3600000000 / 24) + 1 :=
    readDigits_pad2 (by have := monthOfDay_lt (micros / 3600000000 / 24); omega)
  have hdom : readDigits (((instantText sep micros).drop 8).take 2) =
      dayOfMonth (micros / 3600000000 / 24) + 1 :=
    readDigits_pad2 (by have := dayOfMonth_lt (micros / 3600000000 / 24); omega)
  have hhour : readDigits (((instantText sep micros).drop 11).take 2) = micros / 3600000000 % 24 :=
    readDigits_pad2 (by omega)
  have hminute : readDigits (((instantText sep micros).drop 14).take 2) = micros / 60000000 % 60 :=
    readDigits_pad2 (by omega)
  have hsecond : readDigits (((instantText sep micros).drop 17).take 2) = micros / 1000000 % 60 :=
    readDigits_pad2 (by omega)
  have hfraction : readDigits (((instantText sep micros).drop 20).take 6) = micros % 1000000 :=
    readDigits_pad6 (by omega)
  rw [readInstant, hyear, hmonth, hdom, hhour, hminute, hsecond, hfraction, Nat.add_sub_cancel,
    Nat.add_sub_cancel, ← day_eq]
  omega

end Lib
