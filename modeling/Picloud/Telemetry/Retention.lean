import Picloud.Telemetry.RoundTrip

/-!
# Retention in the Parquet store

Reference: `delete_expired_partitions` and `enforce_retention_now` of `picloud-http/src/parquet_store.rs`, and
`TelemetryRetentionPolicy` of `picloud-domain/src/events.rs`.

A pass compares the names of the partitions with the hour of the cutoff. The names are ordered as the hours in
the years 0 to 9999, and a year outside is written with a sign, which stands before the digits. The retention
period becomes a signed number, and neither the period nor the cutoff is checked.
-/

namespace Picloud

open Lib

/-! ## Dates -/

/-- `chrono`, as far as a pass uses it. -/
structure ChronoDates where
  /-- `format("%Y-%m-%dT%H")`. -/
  format : ℤ → String
  /-- `DateTime::<Utc>::MIN_UTC` and `MAX_UTC`. -/
  minUtc : ℤ
  maxUtc : ℤ
  format_inYears : ∀ t, InYears t → format t = partitionKey t
  /-- Years before 0 and after 9999 have a sign. -/
  format_outside : ∀ t, ¬ InYears t → (format t).toList.head? = some '-' ∨ (format t).toList.head? = some '+'
  /-- The last date is less than half a million years away. -/
  hourOf_maxUtc : hourOf maxUtc < 2 ^ 32

instance (t : ℤ) : Decidable (InYears t) := inferInstanceAs (Decidable (_ ∧ _))

/-- The largest number of whole seconds of a `TimeDelta`. -/
def maxDeltaSeconds : ℤ := 9223372036854775

/-- `as i64`. -/
def asI64 (n : UInt64) : ℤ := n.toBitVec.toInt

/-- `Duration::hours`, which panics on a number that is too large. -/
def durationHours (hours : ℤ) : Option ℤ :=
  if -maxDeltaSeconds ≤ hours * 3600 ∧ hours * 3600 ≤ maxDeltaSeconds then some (hours * hourNanos) else none

/-- `now - Duration::hours(ttl_hours as i64)`, which panics where there is no such date. -/
def cutoffOf (chrono : ChronoDates) (now : ℤ) (ttlHours : UInt64) : Option ℤ :=
  (durationHours (asI64 ttlHours)).bind fun delta =>
    if chrono.minUtc ≤ now - delta ∧ now - delta ≤ chrono.maxUtc then some (now - delta) else none

/-! ## The pass -/

/-- `TelemetrySignalType`. -/
inductive TelemetrySignalType where
  | traces
  | metrics
  | logs
deriving DecidableEq

/-- `TelemetryRetentionPolicy`. -/
structure TelemetryRetentionPolicy where
  tracesHours : UInt64
  metricsHours : UInt64
  logsHours : UInt64

/-- `ttl_hours`. -/
def TelemetryRetentionPolicy.ttlHours (policy : TelemetryRetentionPolicy) : TelemetrySignalType → UInt64
  | .traces => policy.tracesHours
  | .metrics => policy.metricsHours
  | .logs => policy.logsHours

/-- `RetentionEnforcementResult`. -/
structure RetentionEnforcementResult where
  signal : TelemetrySignalType
  partitionsDeleted : ℕ
  cutoff : ℤ

/-- The directory of a partition with the records in its files. -/
structure HourPartition {ρ : Type} (time : ρ → ℤ) where
  name : String
  records : List ρ
  /-- The records are those of the hour that the directory is named after. -/
  inHour : ∀ r ∈ records, InYears (time r) ∧ partitionKey (time r) = name

/-- The directories of the signals. -/
abbrev SignalDirs {ρ : Type} (time : ρ → ℤ) := TelemetrySignalType → List (HourPartition time)

section Pass

variable {ρ : Type} {time : ρ → ℤ} (chrono : ChronoDates) (now : ℤ) (policy : TelemetryRetentionPolicy)

/-- The partition is deleted. -/
abbrev Expired (cutoff : ℤ) (p : HourPartition time) : Prop := p.name.toList < (chrono.format cutoff).toList

/-- `delete_expired_partitions`. -/
def deleteExpiredPartitions (dir : List (HourPartition time)) (cutoff : ℤ) : List (HourPartition time) × ℕ :=
  (dir.filter fun p => ¬ Expired chrono cutoff p, (dir.filter fun p => Expired chrono cutoff p).length)

/-- The loop of `enforce_retention_now`; `none` is a panic. -/
def enforceLoop : List TelemetrySignalType → SignalDirs time →
    Option (SignalDirs time × List RetentionEnforcementResult)
  | [], dirs => some (dirs, [])
  | signal :: signals, dirs => do
    let cutoff ← cutoffOf chrono now (policy.ttlHours signal)
    let deleted := deleteExpiredPartitions chrono (dirs signal) cutoff
    let rest ← enforceLoop signals (Function.update dirs signal deleted.1)
    return (rest.1, ⟨signal, deleted.2, cutoff⟩ :: rest.2)

/-- `enforce_retention_now`. -/
def enforceRetentionNow (dirs : SignalDirs time) : Option (SignalDirs time × List RetentionEnforcementResult) :=
  enforceLoop chrono now policy [.traces, .metrics, .logs] dirs

/-! ## What is claimed, and when it holds -/

/-- The record is in one of the partitions. -/
def StoredIn (dir : List (HourPartition time)) (r : ρ) : Prop := ∃ p ∈ dir, r ∈ p.records

/-- No record of the retention period is gone, and no record that expired an hour ago is left. -/
structure RetainsExactly (ttlHours : UInt64) (before after : List (HourPartition time)) : Prop where
  kept : ∀ r, StoredIn before r → now - ttlHours.toNat * hourNanos ≤ time r → StoredIn after r
  removed : ∀ r, StoredIn after r → now - ttlHours.toNat * hourNanos - hourNanos ≤ time r

/-- A pass does not panic, and removes exactly the expired hours of every signal. -/
def RetentionRight (dirs : SignalDirs time) : Prop :=
  ∃ dirs' results, enforceRetentionNow chrono now policy dirs = some (dirs', results) ∧
    ∀ signal, RetainsExactly now (policy.ttlHours signal) (dirs signal) (dirs' signal)

/-- The retention period is a duration, and leads to a date. One that is negative as a signed number leads into
the future: there is no record before that hour, unless its year is written with a sign. And where the year of
the cutoff is past 9999 there is no record that expired an hour ago. -/
structure RetentionFits (ttlHours : UInt64) (dir : List (HourPartition time)) : Prop where
  duration : -maxDeltaSeconds ≤ asI64 ttlHours * 3600 ∧ asI64 ttlHours * 3600 ≤ maxDeltaSeconds
  date : chrono.minUtc ≤ now - asI64 ttlHours * hourNanos ∧ now - asI64 ttlHours * hourNanos ≤ chrono.maxUtc
  positive : 2 ^ 63 ≤ ttlHours.toNat → InYears (now - asI64 ttlHours * hourNanos) → ∀ r, StoredIn dir r →
    hourOf (now - asI64 ttlHours * hourNanos) ≤ hourOf (time r)
  years : ttlHours.toNat < 2 ^ 63 → 24 * daysOfCalendar ≤ hourOf (now - ttlHours.toNat * hourNanos) →
    ∀ r, StoredIn dir r → now - ttlHours.toNat * hourNanos - hourNanos ≤ time r

end Pass

/-! ## Signed numbers and hours -/

section Numbers

variable {n : UInt64} {s t : ℤ}

theorem asI64_of_lt (h : n.toNat < 2 ^ 63) : asI64 n = n.toNat := by
  rw [asI64, BitVec.toInt_eq_toNat_cond, if_pos]
  · rfl
  · show 2 * n.toNat < 2 ^ 64
    omega

theorem asI64_of_le (h : 2 ^ 63 ≤ n.toNat) : asI64 n = n.toNat - 2 ^ 64 := by
  rw [asI64, BitVec.toInt_eq_toNat_cond, if_neg]
  · rfl
  · show ¬ 2 * n.toNat < 2 ^ 64
    omega

theorem hourOf_sub (k : ℤ) : hourOf (t - k * hourNanos) = hourOf t - k := by
  unfold hourOf
  rw [sub_eq_add_neg, ← neg_mul, Int.add_mul_ediv_right _ _ (by decide)]
  omega

theorem lt_of_hourOf_lt (h : hourOf s < hourOf t) : s < t := by
  by_contra hle
  exact absurd (hourOf_mono (not_lt.mp hle)) (not_le.mpr h)

/-- A time of an hour is less than an hour later than any other. -/
theorem sub_hour_le (h : hourOf s ≤ hourOf t) : s - hourNanos ≤ t := by
  refine (lt_of_hourOf_lt ?_).le
  have hsub := hourOf_sub (t := s) 1
  rw [one_mul] at hsub
  omega

end Numbers

/-! ## One signal -/

section Signal

variable {ρ : Type} {time : ρ → ℤ} {chrono : ChronoDates} {now cutoff : ℤ} {ttl : UInt64}
  {dir : List (HourPartition time)} {r : ρ}

/-- The name of a partition begins with a digit. -/
theorem not_partitionKey_lt_of_sign {t : ℤ} (ht : InYears t) {text : List Char}
    (hsign : text.head? = some '-' ∨ text.head? = some '+') : ¬ (partitionKey t).toList < text := by
  have hdigits : ∀ n < 10, ¬ Nat.digitChar n < '-' ∧ Nat.digitChar n ≠ '-' ∧ ¬ Nat.digitChar n < '+' ∧
      Nat.digitChar n ≠ '+' := by decide
  have hyear : yearOf ((hourOf t).toNat / 24) / 100 / 10 < 10 := by
    have hlt : yearOf ((hourOf t).toNat / 24) < 10000 := yearOf_lt (by
      obtain ⟨h0, h1⟩ := ht
      omega)
    omega
  obtain ⟨hminus, hne, hplus, hne'⟩ := hdigits _ hyear
  rw [partitionKey, String.toList_ofList, hourText, pad4, pad2]
  rcases hsign with hsign | hsign
  · obtain ⟨rest, rfl⟩ := List.head?_eq_some_iff.mp hsign
    rw [List.cons_append, List.cons_append, List.cons_lt_cons_iff]
    simp [hminus, hne]
  · obtain ⟨rest, rfl⟩ := List.head?_eq_some_iff.mp hsign
    rw [List.cons_append, List.cons_append, List.cons_lt_cons_iff]
    simp [hplus, hne']

/-- The partition of a record is deleted exactly when its hour is before the one of the cutoff, and the year of
the cutoff has no sign. -/
theorem expired_iff {p : HourPartition time} (hr : r ∈ p.records) :
    Expired chrono cutoff p ↔ InYears cutoff ∧ hourOf (time r) < hourOf cutoff := by
  obtain ⟨hyears, hname⟩ := p.inHour r hr
  rw [Expired, ← hname]
  by_cases hcutoff : InYears cutoff
  · rw [chrono.format_inYears cutoff hcutoff, partitionKey_lt_iff hyears hcutoff]
    simp [hcutoff]
  · simp [hcutoff, not_partitionKey_lt_of_sign hyears (chrono.format_outside cutoff hcutoff)]

theorem storedIn_deleteExpired : StoredIn (deleteExpiredPartitions chrono dir cutoff).1 r ↔
    StoredIn dir r ∧ ¬ (InYears cutoff ∧ hourOf (time r) < hourOf cutoff) := by
  constructor
  · rintro ⟨p, hp, hr⟩
    obtain ⟨hmem, hkept⟩ := List.mem_filter.mp hp
    exact ⟨⟨p, hmem, hr⟩, (expired_iff hr).not.mp (of_decide_eq_true hkept)⟩
  · rintro ⟨⟨p, hp, hr⟩, hkept⟩
    exact ⟨p, List.mem_filter.mpr ⟨hp, decide_eq_true ((expired_iff hr).not.mpr hkept)⟩, hr⟩

theorem inYears_of_storedIn (h : StoredIn dir r) : InYears (time r) := by
  obtain ⟨p, -, hr⟩ := h
  exact (p.inHour r hr).1

/-- A retention period that is positive as a signed number. -/
theorem retains_iff_of_lt :
    RetainsExactly now ttl dir (deleteExpiredPartitions chrono dir (now - ttl.toNat * hourNanos)).1 ↔
      (24 * daysOfCalendar ≤ hourOf (now - ttl.toNat * hourNanos) → ∀ r, StoredIn dir r →
        now - ttl.toNat * hourNanos - hourNanos ≤ time r) := by
  set cutoff := now - ttl.toNat * hourNanos
  constructor
  · rintro ⟨-, hremoved⟩ hlate r hr
    refine hremoved r (storedIn_deleteExpired.mpr ⟨hr, fun h => ?_⟩)
    have := h.1.2
    omega
  · intro h
    refine ⟨fun r hr hlate => ?_, fun r hr => ?_⟩
    · have hhour : hourOf cutoff ≤ hourOf (time r) := hourOf_mono hlate
      exact storedIn_deleteExpired.mpr ⟨hr, fun hexpired => absurd hexpired.2 (not_lt.mpr hhour)⟩
    · obtain ⟨hstored, hkept⟩ := storedIn_deleteExpired.mp hr
      have hyears := inYears_of_storedIn hstored
      by_cases hcutoff : InYears cutoff
      · exact sub_hour_le (not_lt.mp fun hlt => hkept ⟨hcutoff, hlt⟩)
      · by_cases hlate : 24 * daysOfCalendar ≤ hourOf cutoff
        · exact h hlate r hstored
        · -- the cutoff is before the year 0
          have hnot : ¬ (0 ≤ hourOf cutoff ∧ hourOf cutoff < 24 * daysOfCalendar) := hcutoff
          have hrecord := hyears.1
          have hhour : hourOf cutoff ≤ hourOf (time r) := by omega
          exact sub_hour_le hhour

/-- A retention period that is negative as a signed number: nothing may be removed. -/
theorem retains_iff_of_le (httl : 2 ^ 63 ≤ ttl.toNat) (hdate : now - asI64 ttl * hourNanos ≤ chrono.maxUtc) :
    RetainsExactly now ttl dir (deleteExpiredPartitions chrono dir (now - asI64 ttl * hourNanos)).1 ↔
      (InYears (now - asI64 ttl * hourNanos) → ∀ r, StoredIn dir r →
        hourOf (now - asI64 ttl * hourNanos) ≤ hourOf (time r)) := by
  set cutoff := now - asI64 ttl * hourNanos with hcutoff
  -- the retention period reaches back before the year 0
  have hbefore : ∀ r, StoredIn dir r → now - ttl.toNat * hourNanos ≤ time r := by
    intro r hr
    have hnow : now - ttl.toNat * hourNanos = cutoff - 2 ^ 64 * hourNanos := by
      rw [hcutoff, asI64_of_le httl]
      ring
    refine (lt_of_hourOf_lt ?_).le
    rw [hnow, hourOf_sub]
    have hlast := hourOf_mono hdate
    have hmax := chrono.hourOf_maxUtc
    have hyears := (inYears_of_storedIn hr).1
    omega
  constructor
  · rintro ⟨hkept, -⟩ hyears r hr
    have hafter := (storedIn_deleteExpired.mp (hkept r hr (hbefore r hr))).2
    exact not_lt.mp fun hlt => hafter ⟨hyears, hlt⟩
  · intro h
    refine ⟨fun r hr _ => storedIn_deleteExpired.mpr ⟨hr, fun hexpired => ?_⟩, fun r hr => ?_⟩
    · have := h hexpired.1 r hr
      omega
    · have := hbefore r (storedIn_deleteExpired.mp hr).1
      have hpos : 0 ≤ hourNanos := by decide
      omega

theorem cutoffOf_eq_some_iff : cutoffOf chrono now ttl = some cutoff ↔
    (-maxDeltaSeconds ≤ asI64 ttl * 3600 ∧ asI64 ttl * 3600 ≤ maxDeltaSeconds) ∧
      (chrono.minUtc ≤ now - asI64 ttl * hourNanos ∧ now - asI64 ttl * hourNanos ≤ chrono.maxUtc) ∧
        now - asI64 ttl * hourNanos = cutoff := by
  rw [cutoffOf, durationHours]
  split_ifs with hduration
  · rw [Option.bind_some]
    split_ifs with hdate
    · simp [hduration, hdate]
    · exact iff_of_false (by simp) fun h => hdate h.2.1
  · exact iff_of_false (by simp) fun h => hduration h.1

/-- **The pass is right for a signal exactly when its retention period fits.** -/
theorem retains_iff : (∃ cutoff, cutoffOf chrono now ttl = some cutoff ∧
    RetainsExactly now ttl dir (deleteExpiredPartitions chrono dir cutoff).1) ↔
      RetentionFits chrono now ttl dir := by
  simp only [cutoffOf_eq_some_iff, and_assoc]
  rcases Nat.lt_or_ge ttl.toNat (2 ^ 63) with httl | httl
  · have hsigned := asI64_of_lt httl
    constructor
    · rintro ⟨cutoff, h₁, h₂, h₃, h₄, rfl, hretains⟩
      rw [hsigned] at hretains
      exact ⟨⟨h₁, h₂⟩, ⟨h₃, h₄⟩, fun hle => absurd hle (not_le.mpr httl), fun _ => retains_iff_of_lt.mp hretains⟩
    · rintro ⟨⟨h₁, h₂⟩, ⟨h₃, h₄⟩, -, hyears⟩
      refine ⟨_, h₁, h₂, h₃, h₄, rfl, ?_⟩
      rw [hsigned]
      exact retains_iff_of_lt.mpr (hyears httl)
  · constructor
    · rintro ⟨cutoff, h₁, h₂, h₃, h₄, rfl, hretains⟩
      exact ⟨⟨h₁, h₂⟩, ⟨h₃, h₄⟩, fun _ => (retains_iff_of_le httl h₄).mp hretains,
        fun hlt => absurd hlt (not_lt.mpr httl)⟩
    · rintro ⟨⟨h₁, h₂⟩, ⟨h₃, h₄⟩, hpositive, -⟩
      exact ⟨_, h₁, h₂, h₃, h₄, rfl, (retains_iff_of_le httl h₄).mpr (hpositive httl)⟩

end Signal

/-! ## All signals -/

section AllSignals

variable {ρ : Type} {time : ρ → ℤ} {chrono : ChronoDates} {now : ℤ} {policy : TelemetryRetentionPolicy}

/-- The loop ends where each signal has its date, and treats each for itself. -/
theorem enforceLoop_iff {signals : List TelemetrySignalType} (hnodup : signals.Nodup) (dirs dirs' : SignalDirs time) :
    (∃ results, enforceLoop chrono now policy signals dirs = some (dirs', results)) ↔
      (∀ signal ∈ signals, ∃ cutoff, cutoffOf chrono now (policy.ttlHours signal) = some cutoff ∧
        dirs' signal = (deleteExpiredPartitions chrono (dirs signal) cutoff).1) ∧
      ∀ signal ∉ signals, dirs' signal = dirs signal := by
  induction signals generalizing dirs with
  | nil =>
    simp only [enforceLoop, Option.some.injEq, Prod.mk.injEq, exists_and_left, exists_eq', and_true]
    simp [funext_iff, eq_comm]
  | cons first signals ih =>
    obtain ⟨hfirst, hrest⟩ := List.nodup_cons.mp hnodup
    rw [enforceLoop]
    cases hcutoff : cutoffOf chrono now (policy.ttlHours first) with
    | none => simp [hcutoff]
    | some cutoff =>
      have hloop : (∃ results, (do
          let rest ← enforceLoop chrono now policy signals
            (Function.update dirs first (deleteExpiredPartitions chrono (dirs first) cutoff).1)
          return (rest.1, (⟨first, (deleteExpiredPartitions chrono (dirs first) cutoff).2, cutoff⟩ ::
            rest.2 : List RetentionEnforcementResult))) = some (dirs', results)) ↔
          ∃ results, enforceLoop chrono now policy signals (Function.update dirs first
            (deleteExpiredPartitions chrono (dirs first) cutoff).1) = some (dirs', results) := by
        cases enforceLoop chrono now policy signals (Function.update dirs first
          (deleteExpiredPartitions chrono (dirs first) cutoff).1) with
        | none => simp
        | some rest =>
          obtain ⟨d, l⟩ := rest
          simp
      refine hloop.trans ((ih hrest _).trans ?_)
      constructor
      · rintro ⟨hin, hout⟩
        refine ⟨List.forall_mem_cons.mpr ⟨⟨cutoff, hcutoff, ?_⟩, fun signal hsignal => ?_⟩, fun signal hsignal => ?_⟩
        · rw [hout first hfirst, Function.update_self]
        · have hne : signal ≠ first := fun heq => hfirst (heq ▸ hsignal)
          obtain ⟨cutoff', hcutoff', hdir⟩ := hin signal hsignal
          rw [Function.update_of_ne hne] at hdir
          exact ⟨cutoff', hcutoff', hdir⟩
        · obtain ⟨hne, hout'⟩ := not_or.mp (List.mem_cons.not.mp hsignal)
          rw [hout signal hout', Function.update_of_ne hne]
      · rintro ⟨hin, hout⟩
        obtain ⟨⟨cutoff', hcutoff', hdir⟩, hin⟩ := List.forall_mem_cons.mp hin
        obtain rfl : cutoff = cutoff' := Option.some.inj (hcutoff.symm.trans hcutoff')
        refine ⟨fun signal hsignal => ?_, fun signal hsignal => ?_⟩
        · have hne : signal ≠ first := fun heq => hfirst (heq ▸ hsignal)
          rw [Function.update_of_ne hne]
          exact hin signal hsignal
        · by_cases hne : signal = first
          · rw [hne, Function.update_self, hdir]
          · rw [Function.update_of_ne hne]
            exact hout signal (List.mem_cons.not.mpr (not_or.mpr ⟨hne, hsignal⟩))

theorem mem_signals (signal : TelemetrySignalType) : signal ∈ [TelemetrySignalType.traces, .metrics, .logs] := by
  cases signal <;> simp

/-- Where a pass is right, the period of every signal fits. -/
theorem RetentionRight.fits {dirs : SignalDirs time} (h : RetentionRight chrono now policy dirs)
    (signal : TelemetrySignalType) : RetentionFits chrono now (policy.ttlHours signal) (dirs signal) := by
  obtain ⟨dirs', results, hrun, hretains⟩ := h
  obtain ⟨hin, -⟩ := (enforceLoop_iff (by decide) dirs dirs').mp ⟨results, hrun⟩
  obtain ⟨cutoff, hcutoff, hdir⟩ := hin signal (mem_signals signal)
  refine retains_iff.mp ⟨cutoff, hcutoff, ?_⟩
  rw [← hdir]
  exact hretains signal

/-- **A retention pass does not panic and removes exactly the expired hours exactly when the period of every signal
fits.** -/
theorem retentionRight_iff (dirs : SignalDirs time) : RetentionRight chrono now policy dirs ↔
    ∀ signal, RetentionFits chrono now (policy.ttlHours signal) (dirs signal) := by
  refine ⟨fun h => h.fits, fun h => ?_⟩
  choose cutoff hcutoff hretains using fun signal => retains_iff.mpr (h signal)
  obtain ⟨results, hrun⟩ := (enforceLoop_iff (by decide) dirs
    fun signal => (deleteExpiredPartitions chrono (dirs signal) (cutoff signal)).1).mpr
      ⟨fun signal _ => ⟨cutoff signal, hcutoff signal, rfl⟩,
        fun signal hsignal => absurd (mem_signals signal) hsignal⟩
  exact ⟨_, results, hrun, hretains⟩

end AllSignals

/-! ## The longest period -/

/-- An hour whose year has a sign. -/
def signedHourText (sign : Char) (year hours : ℕ) : String :=
  String.ofList (sign :: ((toString year).toList.leftpad 4 '0' ++ '-' :: (pad2 (monthOfDay (hours / 24) + 1) ++
    '-' :: (pad2 (dayOfMonth (hours / 24) + 1) ++ 'T' :: pad2 (hours % 24)))))

/-- The dates of `chrono`: the years -262143 to 262142. The calendar repeats itself after 400 years, so an hour
before the year 0 is written as one 400000 years later. -/
def sampleChrono : ChronoDates where
  format t :=
    if InYears t then partitionKey t
    else if hourOf t < 0 then
      let hours := (hourOf t + 146097 * 24 * 1000).toNat
      signedHourText '-' (400000 - yearOf (hours / 24)) hours
    else signedHourText '+' (yearOf ((hourOf t).toNat / 24)) (hourOf t).toNat
  minUtc := -96465292 * 24 * hourNanos
  maxUtc := 95026237 * 24 * hourNanos - 1
  format_inYears t ht := if_pos ht
  format_outside t ht := by
    rw [if_neg ht]
    split_ifs
    · exact Or.inl (by simp [signedHourText])
    · exact Or.inr (by simp [signedHourText])
  hourOf_maxUtc := by decide

/-- The partition of one record, which is its time. -/
def partitionAt (t : ℤ) (h : InYears t) : HourPartition (fun t : ℤ => t) where
  name := partitionKey t
  records := [t]
  inHour r hr := by
    obtain rfl := List.mem_singleton.mp hr
    exact ⟨h, rfl⟩

/-- Every signal has a record of the first hour of 1970. -/
def firstHourDirs : SignalDirs fun t : ℤ => t := fun _ => [partitionAt 0 (by decide)]

/-- A month later the periods of the default policy fit. -/
theorem retentionRight_default : RetentionRight sampleChrono (721 * hourNanos) ⟨168, 720, 168⟩ firstHourDirs := by
  refine (retentionRight_iff firstHourDirs).mpr fun signal => ?_
  cases signal with
  | traces => exact ⟨by decide, by decide, fun h => absurd h (by decide), fun _ h => absurd h (by decide)⟩
  | metrics => exact ⟨by decide, by decide, fun h => absurd h (by decide), fun _ h => absurd h (by decide)⟩
  | logs => exact ⟨by decide, by decide, fun h => absurd h (by decide), fun _ h => absurd h (by decide)⟩

/-- The longest period is one hour into the future, and the traces of this hour are gone. -/
theorem not_retentionRight_longest :
    (∃ dirs' results, enforceRetentionNow sampleChrono 0 ⟨18446744073709551615, 720, 168⟩ firstHourDirs =
      some (dirs', results) ∧ ¬ StoredIn (dirs' .traces) 0) ∧
    ¬ RetentionRight sampleChrono 0 ⟨18446744073709551615, 720, 168⟩ firstHourDirs := by
  have hstored : StoredIn (firstHourDirs .traces) 0 := ⟨_, List.mem_singleton_self _, List.mem_singleton_self _⟩
  have hcutoff : ∀ signal : TelemetrySignalType, ∃ cutoff, cutoffOf sampleChrono 0
      ((⟨18446744073709551615, 720, 168⟩ : TelemetryRetentionPolicy).ttlHours signal) = some cutoff := by
    intro signal
    cases signal <;> exact ⟨_, cutoffOf_eq_some_iff.mpr ⟨by decide, by decide, rfl⟩⟩
  choose cutoff hcutoff using hcutoff
  obtain ⟨results, hrun⟩ := (enforceLoop_iff (by decide) firstHourDirs
    fun signal => (deleteExpiredPartitions sampleChrono (firstHourDirs signal) (cutoff signal)).1).mpr
      ⟨fun signal _ => ⟨cutoff signal, hcutoff signal, rfl⟩,
        fun signal hsignal => absurd (mem_signals signal) hsignal⟩
  have hfuture : hourNanos = cutoff .traces := (cutoffOf_eq_some_iff.mp (hcutoff .traces)).2.2
  refine ⟨⟨_, results, hrun, fun hleft => ?_⟩, fun hright => ?_⟩
  · refine (storedIn_deleteExpired.mp hleft).2 ?_
    rw [← hfuture]
    decide
  · exact absurd ((hright.fits .traces).positive (by decide) (by decide) 0 hstored) (by decide)

end Picloud
