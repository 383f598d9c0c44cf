import Mathlib.Data.Nat.Find
import Mathlib.Data.List.Lex
import Mathlib.Tactic.Common

/-!
# Hours as texts

The hours of the proleptic Gregorian calendar, counted from the start of the year 0, and their texts
with fixed-width fields. Up to the year 9999 the texts are ordered as the hours are:
`hourText_lt_iff`. Each field is what is left of the fields before it, so the order of the
texts follows field by field.
-/

namespace Lib

/-! ## Dates -/

/-- The days before a year. -/
def daysBeforeYear (y : ℕ) : ℕ := 365 * y + (y + 3) / 4 - (y + 99) / 100 + (y + 399) / 400

/-- The year has a February 29. -/
def isLeapYear (y : ℕ) : Bool := y % 4 = 0 && (y % 100 ≠ 0 || y % 400 = 0)

/-- The days of a year before a month; the months are counted from 0. -/
def daysBeforeMonth (leap : Bool) (m : ℕ) : ℕ :=
  [0, 31, 59, 90, 120, 151, 181, 212, 243, 273, 304, 334].getD m 0 + if leap && 2 ≤ m then 1 else 0

/-- The year of a day. -/
def yearOf (day : ℕ) : ℕ := Nat.findGreatest (fun y => daysBeforeYear y ≤ day) (day / 365)

/-- The month of a day of the year. -/
def monthOf (leap : Bool) (day : ℕ) : ℕ :=
  Nat.findGreatest (fun m => daysBeforeMonth leap m ≤ day) 11

/-- The day in its year, from 0. -/
def dayOfYear (day : ℕ) : ℕ := day - daysBeforeYear (yearOf day)

/-- The month of a day, from 0. -/
def monthOfDay (day : ℕ) : ℕ := monthOf (isLeapYear (yearOf day)) (dayOfYear day)

/-- The day in its month, from 0. -/
def dayOfMonth (day : ℕ) : ℕ :=
  dayOfYear day - daysBeforeMonth (isLeapYear (yearOf day)) (monthOfDay day)

/-- The first day after the year 9999. -/
def daysOfCalendar : ℕ := 3652425

theorem daysBeforeYear_yearOf_le (day : ℕ) : daysBeforeYear (yearOf day) ≤ day :=
  Nat.findGreatest_spec (P := fun y => daysBeforeYear y ≤ day) (Nat.zero_le _) (by simp [daysBeforeYear])

theorem le_daysBeforeYear (y : ℕ) : 365 * y ≤ daysBeforeYear y := by
  unfold daysBeforeYear
  omega

variable {day a b m n : ℕ} {sep : Char}

/-- A year begins after the days of the years before it. -/
theorem le_yearOf {y : ℕ} (h : daysBeforeYear y ≤ day) : y ≤ yearOf day := by
  refine Nat.le_findGreatest ?_ h
  have := le_daysBeforeYear y
  omega

theorem yearOf_mono (h : a ≤ b) : yearOf a ≤ yearOf b :=
  le_yearOf ((daysBeforeYear_yearOf_le a).trans h)

theorem dayOfYear_lt (day : ℕ) : dayOfYear day < 366 := by
  have hle := daysBeforeYear_yearOf_le day
  have hlt : day < daysBeforeYear (yearOf day + 1) := by
    by_contra hnot
    have := le_yearOf (not_lt.mp hnot)
    omega
  unfold dayOfYear
  have hyear : daysBeforeYear (yearOf day + 1) ≤ daysBeforeYear (yearOf day) + 366 := by
    unfold daysBeforeYear
    omega
  omega

theorem yearOf_lt (h : day < daysOfCalendar) : yearOf day < 10000 := by
  by_contra hnot
  have hmono : ∀ y, 10000 ≤ y → daysOfCalendar ≤ daysBeforeYear y := by
    intro y hy
    unfold daysBeforeYear daysOfCalendar
    omega
  have := daysBeforeYear_yearOf_le day
  have := hmono (yearOf day) (by omega)
  omega

theorem daysBeforeMonth_monthOf_le (leap : Bool) (day : ℕ) :
    daysBeforeMonth leap (monthOf leap day) ≤ day :=
  Nat.findGreatest_spec (P := fun m => daysBeforeMonth leap m ≤ day) (Nat.zero_le _)
    (by simp [daysBeforeMonth])

theorem monthOf_le (leap : Bool) (day : ℕ) : monthOf leap day ≤ 11 := Nat.findGreatest_le 11

theorem monthOf_mono (leap : Bool) (h : a ≤ b) : monthOf leap a ≤ monthOf leap b :=
  Nat.le_findGreatest (monthOf_le leap a) ((daysBeforeMonth_monthOf_le leap a).trans h)

/-- A month has at most 32 days before the next one is due. -/
theorem lt_daysBeforeMonth_add (leap : Bool) (h : day < 366) :
    day < daysBeforeMonth leap (monthOf leap day) + 32 := by
  have hm := monthOf_le leap day
  by_cases hlast : monthOf leap day = 11
  · rw [hlast]
    unfold daysBeforeMonth
    simp only [List.getD_cons_succ, List.getD_cons_zero]
    omega
  · have hnext : day < daysBeforeMonth leap (monthOf leap day + 1) := by
      by_contra hnot
      have hle : monthOf leap day + 1 ≤ monthOf leap day :=
        Nat.le_findGreatest (by omega) (not_lt.mp hnot)
      omega
    have hlen : ∀ leap : Bool, ∀ m < 11,
        daysBeforeMonth leap (m + 1) ≤ daysBeforeMonth leap m + 32 := by decide
    have := hlen leap (monthOf leap day) (by omega)
    omega

theorem monthOfDay_lt (day : ℕ) : monthOfDay day < 12 := Nat.lt_succ_of_le (monthOf_le _ _)

theorem dayOfMonth_lt (day : ℕ) : dayOfMonth day < 32 := by
  have := lt_daysBeforeMonth_add (isLeapYear (yearOf day)) (dayOfYear_lt day)
  unfold dayOfMonth monthOfDay
  omega

/-- A day is found again from its year, month and day. -/
theorem day_eq (day : ℕ) : day = daysBeforeYear (yearOf day) +
    (daysBeforeMonth (isLeapYear (yearOf day)) (monthOfDay day) + dayOfMonth day) := by
  have hyear := daysBeforeYear_yearOf_le day
  have hmonth : daysBeforeMonth (isLeapYear (yearOf day)) (monthOfDay day) ≤ dayOfYear day :=
    daysBeforeMonth_monthOf_le _ _
  rw [dayOfMonth, Nat.add_sub_cancel' hmonth, dayOfYear, Nat.add_sub_cancel' hyear]

/-! ## Texts -/

/-- Two digits. -/
def pad2 (n : ℕ) : List Char := [Nat.digitChar (n / 10), Nat.digitChar (n % 10)]

/-- Four digits. -/
def pad4 (n : ℕ) : List Char := pad2 (n / 100) ++ pad2 (n % 100)

/-- The text of an hour: year, month and day joined by dashes, then a separator and the hour. -/
def hourText (sep : Char) (hours : ℕ) : List Char :=
  pad4 (yearOf (hours / 24)) ++ '-' :: (pad2 (monthOfDay (hours / 24) + 1) ++
    '-' :: (pad2 (dayOfMonth (hours / 24) + 1) ++ sep :: pad2 (hours % 24)))

theorem lex_append {a b x y : List Char} (hlen : a.length = b.length)
    (h : a < b ∨ a = b ∧ x < y) : a ++ x < b ++ y := by
  induction a generalizing b with
  | nil =>
    obtain rfl : b = [] := List.length_eq_zero_iff.mp hlen.symm
    exact h.elim (fun hlt => absurd hlt (by simp)) And.right
  | cons c a ih =>
    cases b with
    | nil => simp at hlen
    | cons d b =>
      rw [List.cons_append, List.cons_append, List.cons_lt_cons_iff]
      rcases h with h | ⟨heq, h⟩
      · rcases List.cons_lt_cons_iff.mp h with hcd | ⟨rfl, hab⟩
        · exact .inl hcd
        · exact .inr ⟨rfl, ih (Nat.succ.inj hlen) (.inl hab)⟩
      · obtain ⟨rfl, rfl⟩ := List.cons.inj heq
        exact .inr ⟨rfl, ih rfl (.inr ⟨rfl, h⟩)⟩

theorem digitChar_lt (h : m < n) (hn : n < 10) : Nat.digitChar m < Nat.digitChar n := by
  have hall : ∀ n < 10, ∀ m < n, Nat.digitChar m < Nat.digitChar n := by decide
  exact hall n hn m h

theorem pad2_lt (h : m < n) (hn : n < 100) : pad2 m < pad2 n := by
  unfold pad2
  by_cases htens : m / 10 = n / 10
  · rw [htens]
    refine List.cons_lt_cons_iff.mpr (.inr ⟨rfl, List.cons_lt_cons_iff.mpr (.inl ?_)⟩)
    exact digitChar_lt (by omega) (by omega)
  · exact List.cons_lt_cons_iff.mpr (.inl (digitChar_lt (by omega) (by omega)))

theorem length_pad2 (m n : ℕ) : (pad2 m).length = (pad2 n).length := rfl

theorem length_pad4 (m n : ℕ) : (pad4 m).length = (pad4 n).length := rfl

theorem pad4_lt (h : m < n) (hn : n < 10000) : pad4 m < pad4 n := by
  refine lex_append (length_pad2 _ _) ?_
  by_cases hhundreds : m / 100 = n / 100
  · exact .inr ⟨by rw [hhundreds], pad2_lt (by omega) (by omega)⟩
  · exact .inl (pad2_lt (by omega) (by omega))

/-- Later hours have greater texts. -/
theorem hourText_lt (h : a < b) (hb : b < 24 * daysOfCalendar) :
    hourText sep a < hourText sep b := by
  have hcons : ∀ {c : Char} {x y : List Char}, x < y → c :: x < c :: y :=
    fun hxy => List.cons_lt_cons_iff.mpr (.inr ⟨rfl, hxy⟩)
  have hday : a / 24 ≤ b / 24 := Nat.div_le_div_right h.le
  have hyear := yearOf_mono hday
  unfold hourText
  refine lex_append (length_pad4 _ _) ?_
  rcases hyear.lt_or_eq with hlt | hyear
  · exact .inl (pad4_lt hlt (yearOf_lt (Nat.div_lt_of_lt_mul hb)))
  refine .inr ⟨by rw [hyear], hcons (lex_append (length_pad2 _ _) ?_)⟩
  have hdoy : dayOfYear (a / 24) ≤ dayOfYear (b / 24) := by
    unfold dayOfYear
    rw [hyear]
    omega
  have hmonth : monthOfDay (a / 24) ≤ monthOfDay (b / 24) := by
    unfold monthOfDay
    rw [hyear]
    exact monthOf_mono _ hdoy
  have hmb := monthOfDay_lt (b / 24)
  rcases hmonth.lt_or_eq with hlt | hmonth
  · exact .inl (pad2_lt (by omega) (by omega))
  refine .inr ⟨by rw [hmonth], hcons (lex_append (length_pad2 _ _) ?_)⟩
  have hdb := dayOfMonth_lt (b / 24)
  have hdom : dayOfMonth (a / 24) ≤ dayOfMonth (b / 24) := by
    unfold dayOfMonth
    rw [hyear, hmonth]
    omega
  rcases hdom.lt_or_eq with hlt | hdom
  · exact .inl (pad2_lt (by omega) (by omega))
  refine .inr ⟨by rw [hdom], hcons (pad2_lt ?_ (by omega))⟩
  -- the same year, month and day: the same day
  have hsame := day_eq (a / 24)
  rw [hyear, hmonth, hdom, ← day_eq (b / 24)] at hsame
  omega

/-- The texts of hours up to the year 9999 are ordered as the hours. -/
theorem hourText_lt_iff (ha : a < 24 * daysOfCalendar) (hb : b < 24 * daysOfCalendar) :
    hourText sep a < hourText sep b ↔ a < b := by
  refine ⟨fun h => ?_, fun h => hourText_lt h hb⟩
  rcases Nat.lt_trichotomy a b with hlt | rfl | hgt
  · exact hlt
  · exact absurd h (List.lt_irrefl _)
  · exact absurd (hourText_lt hgt ha) (List.lt_asymm h)

theorem hourText_inj (ha : a < 24 * daysOfCalendar) (hb : b < 24 * daysOfCalendar)
    (h : hourText sep a = hourText sep b) : a = b := by
  have hab := (hourText_lt_iff ha hb : hourText sep a < hourText sep b ↔ a < b)
  have hba := (hourText_lt_iff hb ha : hourText sep b < hourText sep a ↔ b < a)
  rw [h] at hab hba
  have hirrefl : ¬ hourText sep b < hourText sep b := List.lt_irrefl _
  have hnab := hab.not.mp hirrefl
  have hnba := hba.not.mp hirrefl
  omega

end Lib
