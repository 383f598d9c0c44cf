import Picloud.Raft.LogStoreEquiv
import Picloud.Lib.Steps

/-!
# Crashes inside purge and truncate

`purge` deletes keys in increasing order and records the purge point last; `truncate` deletes keys
in increasing order too. A crash between two of these writes leaves the log with its first entries
missing, or with a gap before its last ones, and `get_log_state` does not notice. `LogUse` are the
calls `openraft` makes, each with the number of tree writes it gets to; the persisted log has no
hole exactly as long as no crash falls on one of those points.
-/

namespace Picloud

open Lib

/-- The indices in the log tree. -/
def SledLogStore.indices (store : SledLogStore) : List ℕ :=
  store.logTree.keys.map fun k => (fromBeBytes k).toNat

/-- A log store, and the first index that was ever appended to it. -/
structure LogHistory where
  store : SledLogStore
  first : Option UInt64

/-- A call on the log. A `truncate` or `purge` crashes after `writes` tree writes; it completes when
it has no more than that to make. -/
inductive LogUse where
  | append (entries : List Entry)
  | truncate (logId : LogId) (writes : ℕ)
  | purge (logId : LogId) (writes : ℕ)
deriving DecidableEq

namespace LogHistory

/-- A new log. -/
def new : LogHistory := ⟨SledLogStore.new, none⟩

/-- The index that comes next: after the last one that `get_log_state` reports, or where the log
started. The very first append may start anywhere. -/
def nextIndex (h : LogHistory) (entries : List Entry) : ℕ :=
  match h.store.getLogState with
  | .ok ⟨_, some id⟩ => id.index.toNat + 1
  | _ =>
    match h.first with
    | some f => f.toNat
    | none => (entries.head?.map fun e => e.logId.index.toNat).getD 0

/-- What `openraft` does with a log: it appends consecutive indices, truncates above the purge
point, and purges up to an index that is in the log. -/
def step (h : LogHistory) : LogUse → Option LogHistory
  | .append entries =>
    if entries.map (fun e => e.logId.index.toNat) =
        List.range' (h.nextIndex entries) entries.length then
      some ⟨h.store.execAll (SledLogStore.appendOps entries),
        h.first.or (entries.head?.map fun e => e.logId.index)⟩
    else none
  | .truncate logId writes =>
    match h.store.getLogState with
    | .error _ => none
    | .ok st =>
      if ∀ p ∈ st.lastPurgedLogId, p.index < logId.index then
        some ⟨h.store.execAll ((h.store.truncateOps logId).take writes), h.first⟩
      else none
  | .purge logId writes =>
    if SledLogStore.indexKey logId.index ∈ h.store.logTree.keys then
      some ⟨h.store.execAll ((h.store.purgeOps logId).take writes), h.first⟩
    else none

/-- Where the log has to start. -/
def startIndex (first : Option UInt64) (purged : Option LogId) : ℕ :=
  match purged with
  | some p => p.index.toNat + 1
  | none => (first.map UInt64.toNat).getD 0

/-- The indices in the log form one interval that starts right after the purge point. -/
def NoHole (h : LogHistory) : Prop :=
  ∃ st, h.store.getLogState = .ok st ∧
    ∃ stop, ∀ i, i ∈ h.store.indices ↔ startIndex h.first st.lastPurgedLogId ≤ i ∧ i < stop

/-- The crash points that do no harm: before the first write or after the last one; and, in a
`purge` of the whole log, before the last one. -/
def CrashOk (h : LogHistory) : LogUse → Prop
  | .append _ => True
  | .truncate logId writes => writes = 0 ∨ (h.store.truncateOps logId).length ≤ writes
  | .purge logId writes => writes = 0 ∨ (h.store.purgeOps logId).length ≤ writes ∨
      ((h.store.purgeOps logId).length = writes + 1 ∧
        ∀ k ∈ h.store.logTree.keys, k ≤ SledLogStore.indexKey logId.index)

instance (h : LogHistory) (u : LogUse) : Decidable (CrashOk h u) :=
  match u with
  | .append _ => isTrue trivial
  | .truncate logId writes =>
    inferInstanceAs (Decidable (writes = 0 ∨ (h.store.truncateOps logId).length ≤ writes))
  | .purge logId writes =>
    inferInstanceAs (Decidable (writes = 0 ∨ (h.store.purgeOps logId).length ≤ writes ∨
      ((h.store.purgeOps logId).length = writes + 1 ∧
        ∀ k ∈ h.store.logTree.keys, k ≤ SledLogStore.indexKey logId.index)))

end LogHistory

/-! ## Indices -/

/-- The indices of an in-memory log. -/
def indicesOf (log : OrdMap UInt64 Entry) : List ℕ := log.keys.map UInt64.toNat

variable {ks : List UInt64} {k : UInt64} {log : OrdMap UInt64 Entry} {x start stop : ℕ}
  {mem : MemLogStore} {h : LogHistory}

theorem sortedLT_map_toNat (h : ks.SortedLT) :
    (ks.map UInt64.toNat).SortedLT := by
  refine List.Pairwise.sortedLT ?_
  rw [List.pairwise_map]
  exact h.pairwise.imp fun hlt => UInt64.lt_iff_toNat_lt.mp hlt

theorem mem_map_toNat : k.toNat ∈ ks.map UInt64.toNat ↔ k ∈ ks :=
  List.mem_map_of_injective fun _ _ h => UInt64.toNat_inj.mp h

theorem mem_indicesOf_insert {e : Entry} :
    x ∈ indicesOf (log.insert k e) ↔ x = k.toNat ∨ x ∈ indicesOf log := by
  simp only [indicesOf, List.mem_map, OrdMap.mem_keys_insert]
  constructor
  · rintro ⟨k', rfl | hk', rfl⟩
    · exact Or.inl rfl
    · exact Or.inr ⟨k', hk', rfl⟩
  · rintro (rfl | ⟨k', hk', rfl⟩)
    · exact ⟨k, Or.inl rfl, rfl⟩
    · exact ⟨k', Or.inr hk', rfl⟩

theorem mem_indicesOf_removeAll :
    x ∈ indicesOf (log.removeAll ks) ↔ x ∈ indicesOf log ∧ x ∉ ks.map UInt64.toNat := by
  constructor
  · intro h
    obtain ⟨k, hk, rfl⟩ := List.mem_map.mp h
    rw [OrdMap.mem_keys_removeAll] at hk
    exact ⟨List.mem_map_of_mem hk.1, mem_map_toNat.not.mpr hk.2⟩
  · rintro ⟨h, hx⟩
    obtain ⟨k, hk, rfl⟩ := List.mem_map.mp h
    exact List.mem_map_of_mem (OrdMap.mem_keys_removeAll.mpr ⟨hk, mem_map_toNat.not.mp hx⟩)

/-- The indices that pass a test, when the test cuts an interval out of the one they form. -/
theorem mem_filter_indices {lo hi : ℕ} (hstop : ∀ x, x ∈ indicesOf log ↔ start ≤ x ∧ x < stop)
    {q : UInt64 → Bool} (hq : ∀ k : UInt64, start ≤ k.toNat → k.toNat < stop →
      (q k = true ↔ lo ≤ k.toNat ∧ k.toNat < hi)) (hlo : start ≤ lo) (hhi : hi ≤ stop) (x : ℕ) :
    x ∈ (log.keys.filter q).map UInt64.toNat ↔ lo ≤ x ∧ x < hi := by
  constructor
  · intro hx
    obtain ⟨k, hk, rfl⟩ := List.mem_map.mp hx
    rw [List.mem_filter] at hk
    have hin := (hstop k.toNat).mp (List.mem_map_of_mem hk.1)
    exact (hq k hin.1 hin.2).mp hk.2
  · intro hx
    obtain ⟨k, hk, rfl⟩ := List.mem_map.mp ((hstop x).mpr (by omega))
    exact List.mem_map_of_mem (List.mem_filter.mpr ⟨hk, (hq k (by omega) (by omega)).mpr hx⟩)

/-- The first `j` of the sorted indices that pass a test, when these form an interval. -/
theorem mem_take_of_interval (hs : ks.SortedLT) {lo hi : ℕ}
    (hmem : ∀ x, x ∈ ks.map UInt64.toNat ↔ lo ≤ x ∧ x < hi) (j : ℕ) :
    (∀ x, x ∈ (ks.take j).map UInt64.toNat ↔ lo ≤ x ∧ x < lo + min j (hi - lo)) ∧
      ks.length = hi - lo := by
  have hrange : ks.map UInt64.toNat = List.range' lo (hi - lo) := by
    refine (sortedLT_map_toNat hs).eq_of_mem_iff (List.sortedLT_range' _ _ (by decide)) ?_
    intro x
    rw [hmem, List.mem_range'_1]
    omega
  refine ⟨?_, ?_⟩
  · intro x
    rw [List.map_take, hrange]
    rcases Nat.le_total j (hi - lo) with hj | hj
    · rw [List.take_range'_of_length_ge hj, List.mem_range'_1, Nat.min_eq_left hj]
    · rw [List.take_range'_of_length_le hj, List.mem_range'_1, Nat.min_eq_right hj]
  · have := congrArg List.length hrange
    simpa using this

/-! ## The invariant -/

/-- The store holds an in-memory log whose entries stand under their own index, and nothing before
the first append. -/
structure Sound (h : LogHistory) (mem : MemLogStore) : Prop where
  sim : Simulates mem h.store
  own : ∀ e ∈ mem.log.entries, e.2.logId.index = e.1
  unused : h.first = none → indicesOf mem.log = [] ∧ mem.lastPurgedLogId = none

/-- The in-memory log is an interval from the given start. -/
def IsInterval (start : ℕ) (log : OrdMap UInt64 Entry) : Prop :=
  ∃ stop, ∀ x, x ∈ indicesOf log ↔ start ≤ x ∧ x < stop

theorem Simulates.indices {sled : SledLogStore} (h : Simulates mem sled) :
    sled.indices = indicesOf mem.log := by
  rw [SledLogStore.indices, h.log, OrdMap.keys_mapEntries, List.map_map, indicesOf]
  apply List.map_congr_left
  intro k _
  rw [Function.comp_apply, beKey_apply, fromBeBytes_toBeBytes]

theorem noHole_iff (hsim : Simulates mem h.store) :
    h.NoHole ↔ IsInterval (LogHistory.startIndex h.first mem.lastPurgedLogId) mem.log := by
  rw [LogHistory.NoHole, hsim.getLogState, hsim.indices]
  constructor
  · rintro ⟨st, hst, hinterval⟩
    obtain rfl := Except.ok.inj hst
    exact hinterval
  · intro hinterval
    exact ⟨_, rfl, hinterval⟩

/-! ## Truncate -/

/-- What a truncate that gets to `j` writes leaves behind. -/
theorem isInterval_truncate_iff (h : IsInterval start log) (t : UInt64) (j : ℕ) :
    IsInterval start (log.removeAll ((log.keys.filter fun i => t ≤ i).take j)) ↔
      j = 0 ∨ (log.keys.filter fun i => t ≤ i).length ≤ j := by
  obtain ⟨stop, hstop⟩ := h
  have hfilter : ∀ x, x ∈ (log.keys.filter fun i => t ≤ i).map UInt64.toNat ↔
      max start t.toNat ≤ x ∧ x < stop := by
    refine mem_filter_indices hstop (fun k hlo hhi => ?_) (le_max_left _ _) le_rfl
    rw [decide_eq_true_eq, UInt64.le_iff_toNat_le]
    omega
  obtain ⟨htake, hlen⟩ := mem_take_of_interval (log.filter_keys_sortedLT _) hfilter j
  rw [hlen, IsInterval]
  simp only [mem_indicesOf_removeAll, hstop, htake]
  constructor
  · rintro ⟨stop', hstop'⟩
    -- the first removed index and the last one of the log tell a hole from an interval
    have h1 := hstop' (max start t.toNat)
    have h2 := hstop' (stop - 1)
    omega
  · rintro (rfl | hj)
    · exact ⟨stop, fun x => by omega⟩
    · exact ⟨min (max start t.toNat) stop, fun x => by omega⟩

/-! ## Purge -/

/-- What a purge of `t` leaves behind after `j` keys. -/
theorem mem_purge (hstop : ∀ x, x ∈ indicesOf log ↔ start ≤ x ∧ x < stop) {t : UInt64}
    (ht : t ∈ log.keys) (j : ℕ) :
    (∀ x, x ∈ indicesOf (log.removeAll ((log.keys.filter fun i => i ≤ t).take j)) ↔
      start + min j (t.toNat + 1 - start) ≤ x ∧ x < stop) ∧
    (log.keys.filter fun i => i ≤ t).length = t.toNat + 1 - start := by
  have htin := (hstop t.toNat).mp (List.mem_map_of_mem ht)
  have hfilter : ∀ x, x ∈ (log.keys.filter fun i => i ≤ t).map UInt64.toNat ↔
      start ≤ x ∧ x < t.toNat + 1 := by
    refine mem_filter_indices hstop (fun k hlo hhi => ?_) le_rfl (by omega)
    rw [decide_eq_true_eq, UInt64.le_iff_toNat_le]
    omega
  obtain ⟨htake, hlen⟩ := mem_take_of_interval (log.filter_keys_sortedLT _) hfilter j
  refine ⟨?_, hlen⟩
  intro x
  rw [mem_indicesOf_removeAll, hstop, htake]
  omega

/-- Every index of the log is at most `t`. -/
theorem forall_keys_le_iff (hstop : ∀ x, x ∈ indicesOf log ↔ start ≤ x ∧ x < stop) {t : UInt64}
    (ht : t ∈ log.keys) :
    (∀ k ∈ log.keys, k ≤ t) ↔ stop = t.toNat + 1 := by
  have htin := (hstop t.toNat).mp (List.mem_map_of_mem ht)
  constructor
  · intro hall
    obtain ⟨k, hk, hkx⟩ := List.mem_map.mp ((hstop (stop - 1)).mpr (by omega))
    have := UInt64.le_iff_toNat_le.mp (hall k hk)
    omega
  · intro hend k hk
    have := (hstop k.toNat).mp (List.mem_map_of_mem hk)
    exact UInt64.le_iff_toNat_le.mpr (by omega)

/-! ## Append -/

theorem mem_indicesOf_append {entries : List Entry} :
    x ∈ indicesOf (entries.foldl (fun log e => log.insert e.logId.index e) log) ↔
      x ∈ entries.map (fun e => e.logId.index.toNat) ∨ x ∈ indicesOf log := by
  induction entries generalizing log with
  | nil => simp
  | cons e es ih =>
    rw [List.foldl_cons, ih, mem_indicesOf_insert, List.map_cons, List.mem_cons]
    exact or_left_comm.trans or_assoc.symm

theorem own_append {entries : List Entry} (h : ∀ e ∈ log.entries, e.2.logId.index = e.1) :
    ∀ e ∈ (entries.foldl (fun log e => log.insert e.logId.index e) log).entries,
      e.2.logId.index = e.1 := by
  induction entries generalizing log with
  | nil => exact h
  | cons e es ih =>
    apply ih
    intro e' he'
    rcases OrdMap.mem_insertEntry_imp he' with rfl | he'
    · rfl
    · exact h e' he'

/-- The last entry of a log has the greatest index. -/
theorem le_of_last {e : Entry} (hlast : log.last = some (k, e)) :
    (k, e) ∈ log.entries ∧ ∀ x ∈ indicesOf log, x ≤ k.toNat := by
  rw [OrdMap.last, List.getLast?_eq_some_iff] at hlast
  obtain ⟨front, hfront⟩ := hlast
  refine ⟨by simp [hfront], ?_⟩
  intro x hx
  obtain ⟨k', hk', rfl⟩ := List.mem_map.mp hx
  rw [OrdMap.keys, hfront, List.map_append, List.mem_append] at hk'
  rcases hk' with hk' | hk'
  · obtain ⟨e', he', rfl⟩ := List.mem_map.mp hk'
    have hsorted := log.sorted
    rw [hfront, List.pairwise_append] at hsorted
    have hlt : e'.1 < k := hsorted.2.2 e' he' (k, e) (by simp)
    exact (UInt64.lt_iff_toNat_lt.mp hlt).le
  · obtain rfl : k' = k := by simpa using hk'
    exact le_refl _

/-- The next index is where the log stops. -/
theorem Sound.stop_eq_nextIndex (hs : Sound h mem)
    (hinterval : IsInterval (LogHistory.startIndex h.first mem.lastPurgedLogId) mem.log) (e : Entry)
    (es : List Entry) :
    LogHistory.startIndex (h.first.or (some e.logId.index)) mem.lastPurgedLogId ≤
      h.nextIndex (e :: es) ∧
    ∀ x, x ∈ indicesOf mem.log ↔
      LogHistory.startIndex (h.first.or (some e.logId.index)) mem.lastPurgedLogId ≤ x ∧
        x < h.nextIndex (e :: es) := by
  obtain ⟨stop, hstop⟩ := hinterval
  have hvalues : mem.log.values.getLast? = mem.log.last.map Prod.snd := by
    rw [OrdMap.values, OrdMap.last, List.getLast?_map]
  rw [LogHistory.nextIndex, hs.sim.getLogState, MemLogStore.getLogState, hvalues]
  -- `get_log_state` reports the last entry of the log or, in an empty log, the purge point
  cases hlast : mem.log.last with
  | some last =>
    obtain ⟨k, e₀⟩ := last
    obtain ⟨hmem, hmax⟩ := le_of_last hlast
    have hkey : e₀.logId.index = k := hs.own _ hmem
    have hk : k.toNat ∈ indicesOf mem.log :=
      List.mem_map_of_mem (List.mem_map.mpr ⟨_, hmem, rfl⟩)
    -- the log is not empty, so this is not the first append
    have hfirst : h.first.or (some e.logId.index) = h.first := by
      cases hf : h.first with
      | some f => rfl
      | none =>
        rw [(hs.unused hf).1] at hk
        cases hk
    rw [hfirst]
    simp only [Option.map_some, Option.some_or, hkey]
    have hkstop := (hstop k.toNat).mp hk
    have hend := hmax (stop - 1) ((hstop _).mpr (by omega))
    refine ⟨by omega, fun x => ?_⟩
    rw [hstop]
    omega
  | none =>
    have hempty : indicesOf mem.log = [] := by
      rw [OrdMap.last, List.getLast?_eq_none_iff] at hlast
      rw [indicesOf, OrdMap.keys, hlast]
      rfl
    rw [hempty]
    cases hpurged : mem.lastPurgedLogId with
    | some p =>
      simp only [Option.map_none, Option.none_or, LogHistory.startIndex]
      exact ⟨le_refl _, fun x => by simp⟩
    | none =>
      cases hf : h.first with
      | some f =>
        simp only [Option.map_none, Option.none_or, LogHistory.startIndex, Option.some_or,
          Option.map_some, Option.getD_some]
        exact ⟨le_refl _, fun x => by simp⟩
      | none =>
        simp only [Option.map_none, Option.none_or, LogHistory.startIndex, List.head?_cons,
          Option.map_some, Option.getD_some]
        exact ⟨le_refl _, fun x => by simp⟩

/-! ## Every use -/

section

variable {h h' : LogHistory} {mem : MemLogStore}

theorem Sound.removeAll (hs : Sound h mem) (ks : List UInt64) :
    Sound ⟨h.store.execAll ((ks.map beKey).map .removeLog), h.first⟩
      { mem with log := mem.log.removeAll ks } := by
  refine ⟨hs.sim.removeAll ks, ?_, ?_⟩
  · intro e he
    exact hs.own e (OrdMap.mem_entries_removeAll_imp he)
  · intro hfirst
    refine ⟨List.eq_nil_iff_forall_not_mem.mpr fun x hx => ?_, (hs.unused hfirst).2⟩
    have hx' := (mem_indicesOf_removeAll.mp hx).1
    rw [(hs.unused hfirst).1] at hx'
    cases hx'

theorem Sound.recordPurge (hs : Sound h mem) (hfirst : h.first ≠ none) (logId : LogId) :
    Sound ⟨h.store.exec (.insertMeta "last_purged_log_id" (.logId logId)), h.first⟩
      { mem with lastPurgedLogId := some logId } :=
  ⟨hs.sim.recordPurge logId, hs.own, fun hnone => absurd hnone hfirst⟩

theorem Sound.append_step (hs : Sound h mem) (hnh : h.NoHole) {entries : List Entry}
    (hstep : h.step (.append entries) = some h') : ∃ mem', Sound h' mem' ∧ h'.NoHole := by
  rw [LogHistory.step] at hstep
  split_ifs at hstep with hrange
  obtain rfl := Option.some.inj hstep
  have hinterval := (noHole_iff hs.sim).mp hnh
  have hsim := hs.sim.append entries
  cases entries with
  | nil =>
    have hsame : (⟨h.store.execAll (SledLogStore.appendOps []),
        h.first.or (([] : List Entry).head?.map fun e => e.logId.index)⟩ : LogHistory) = h := by
      show (⟨h.store, h.first.or none⟩ : LogHistory) = h
      rw [Option.or_none]
    rw [hsame]
    exact ⟨mem, hs, hnh⟩
  | cons e es =>
    obtain ⟨hle, hold⟩ := hs.stop_eq_nextIndex hinterval e es
    refine ⟨mem.append (e :: es), ⟨hsim, own_append hs.own, ?_⟩, ?_⟩
    · intro hnone
      simp at hnone
    · rw [noHole_iff hsim]
      refine ⟨h.nextIndex (e :: es) + (e :: es).length, fun x => ?_⟩
      show x ∈ indicesOf ((e :: es).foldl _ mem.log) ↔ _
      rw [mem_indicesOf_append, hrange, List.mem_range'_1, hold]
      show _ ↔ LogHistory.startIndex (h.first.or (some e.logId.index)) mem.lastPurgedLogId ≤ x ∧ _
      omega

theorem Sound.truncate_step (hs : Sound h mem) (hnh : h.NoHole) {logId : LogId} {writes : ℕ}
    (hstep : h.step (.truncate logId writes) = some h') :
    ∃ mem', Sound h' mem' ∧ (h'.NoHole ↔ h.CrashOk (.truncate logId writes)) := by
  rw [LogHistory.step, hs.sim.getLogState] at hstep
  simp only at hstep
  split_ifs at hstep
  obtain rfl := Option.some.inj hstep
  have hinterval := (noHole_iff hs.sim).mp hnh
  rw [LogHistory.CrashOk, hs.sim.truncateOps, ← List.map_take, ← List.map_take, List.length_map,
    List.length_map]
  refine ⟨_, hs.removeAll _, ?_⟩
  rw [noHole_iff (hs.sim.removeAll _)]
  exact isInterval_truncate_iff hinterval logId.index writes

theorem Sound.purge_step (hs : Sound h mem) (hnh : h.NoHole) {logId : LogId} {writes : ℕ}
    (hstep : h.step (.purge logId writes) = some h') :
    ∃ mem', Sound h' mem' ∧ (h'.NoHole ↔ h.CrashOk (.purge logId writes)) := by
  rw [LogHistory.step] at hstep
  split_ifs at hstep with hin
  obtain rfl := Option.some.inj hstep
  have hkeys : h.store.logTree.keys = mem.log.keys.map beKey := by
    rw [hs.sim.log, OrdMap.keys_mapEntries]
  have ht : logId.index ∈ mem.log.keys := by
    rw [hkeys] at hin
    exact (List.mem_map_of_injective beKey.injective).mp hin
  have hfirst : h.first ≠ none := by
    intro hnone
    have : logId.index.toNat ∈ indicesOf mem.log := List.mem_map_of_mem ht
    rw [(hs.unused hnone).1] at this
    cases this
  obtain ⟨stop, hstop⟩ := (noHole_iff hs.sim).mp hnh
  have htin := (hstop logId.index.toNat).mp (List.mem_map_of_mem ht)
  obtain ⟨hrest, hlen⟩ := mem_purge hstop ht writes
  have hall : (∀ k ∈ h.store.logTree.keys, k ≤ SledLogStore.indexKey logId.index) ↔
      stop = logId.index.toNat + 1 := by
    rw [hkeys, ← forall_keys_le_iff hstop ht, List.forall_mem_map]
    exact forall₂_congr fun k _ => beKey.le_iff_le
  rw [LogHistory.CrashOk, hall, hs.sim.purgeOps, List.length_append, List.length_map,
    List.length_map, hlen, List.length_singleton, List.take_append, List.length_map,
    List.length_map, hlen, ← List.map_take, ← List.map_take]
  by_cases hj : writes ≤ logId.index.toNat + 1 - LogHistory.startIndex h.first mem.lastPurgedLogId
  · -- the purge point is not written: the log has to start where it started
    rw [Nat.sub_eq_zero_of_le hj, List.take_zero, List.append_nil]
    refine ⟨_, hs.removeAll _, ?_⟩
    rw [noHole_iff (hs.sim.removeAll _), IsInterval]
    simp only [hrest]
    constructor
    · rintro ⟨stop', hstop'⟩
      -- the old start is missing once a key is removed, so nothing may be left behind it
      have h1 := hstop' (LogHistory.startIndex h.first mem.lastPurgedLogId)
      have h2 := hstop' (stop - 1)
      omega
    · intro hok
      exact ⟨if writes = 0 then stop else 0, fun x => by split_ifs <;> omega⟩
  · -- the purge point is written: the log starts right after it
    have htake : [TreeOp.insertMeta "last_purged_log_id" (.logId logId)].take
        (writes - (logId.index.toNat + 1 -
          LogHistory.startIndex h.first mem.lastPurgedLogId)) =
        [.insertMeta "last_purged_log_id" (.logId logId)] := by
      apply List.take_of_length_le
      rw [List.length_singleton]
      omega
    rw [htake, SledLogStore.execAll, List.foldl_append]
    have hs' := (hs.removeAll ((mem.log.keys.filter fun i =>
      i ≤ logId.index).take writes)).recordPurge hfirst logId
    refine ⟨_, hs', ?_⟩
    refine iff_of_true ((noHole_iff hs'.sim).mpr ⟨stop, fun x => ?_⟩) (Or.inr (Or.inl (by omega)))
    show x ∈ indicesOf (mem.log.removeAll _) ↔ logId.index.toNat + 1 ≤ x ∧ x < stop
    rw [hrest]
    omega

end

/-- The step lemma: the log has no hole after a use exactly when the use did not crash at a harmful
point. -/
theorem Sound.step {h' : LogHistory} {u : LogUse} (hs : Sound h mem) (hnh : h.NoHole)
    (hstep : h.step u = some h') :
    ∃ mem', Sound h' mem' ∧ (h'.NoHole ↔ h.CrashOk u) := by
  cases u with
  | append entries =>
    obtain ⟨mem', hs', hnh'⟩ := hs.append_step hnh hstep
    exact ⟨mem', hs', iff_of_true hnh' trivial⟩
  | truncate logId writes => exact hs.truncate_step hnh hstep
  | purge logId writes => exact hs.purge_step hnh hstep

theorem sound_new : Sound LogHistory.new MemLogStore.new :=
  ⟨simulates_new, by simp [MemLogStore.new, OrdMap.empty], fun _ => ⟨rfl, rfl⟩⟩

theorem noHole_new : LogHistory.new.NoHole :=
  (noHole_iff simulates_new).mpr ⟨0, fun x => by
    show x ∈ ([] : List ℕ) ↔ _
    simp⟩

/-- **Crash-consistent purge.** In every run whose crashes fall before the first or after the last
write of a `truncate` or `purge` (or leave a `purge` of the whole log with only the purge point
unwritten), the persisted log has no hole in any state; and the first crash anywhere else leaves
one. -/
theorem noHole_of_crashOk (uses : List LogUse) (h : LogHistory)
    (hmeet : StepsMeet LogHistory.step LogHistory.CrashOk LogHistory.new uses)
    (hrun : runSteps LogHistory.step LogHistory.new uses = some h) :
    h.NoHole ∧ ∀ u h', h.step u = some h' → (h'.NoHole ↔ h.CrashOk u) := by
  have hinv : (∃ mem, Sound h mem) ∧ h.NoHole := by
    refine runSteps_invariant LogHistory.step (I := fun h => (∃ mem, Sound h mem) ∧ h.NoHole)
      ?_ uses _ _ ⟨⟨_, sound_new⟩, noHole_new⟩ hmeet hrun
    rintro h u h' ⟨⟨mem, hs⟩, hnh⟩ hok hstep
    obtain ⟨mem', hs', hiff⟩ := hs.step hnh hstep
    exact ⟨⟨mem', hs'⟩, hiff.mpr hok⟩
  obtain ⟨⟨mem, hs⟩, hnh⟩ := hinv
  refine ⟨hnh, fun u h' hstep => ?_⟩
  obtain ⟨mem', -, hiff⟩ := hs.step hnh hstep
  exact hiff

/-- The uses of a log of three entries, whose first entry is purged by a call that gets to the given
number of writes. -/
def purgeFirstOfThree (writes : ℕ) : List LogUse :=
  [.append [blankEntry 1, blankEntry 2, blankEntry 3], .purge ⟨⟨1, 1⟩, 1⟩ writes]

/-- A purge that completes. -/
theorem noHole_purge_complete :
    ∃ h, runSteps LogHistory.step LogHistory.new (purgeFirstOfThree 2) = some h ∧ h.NoHole := by
  have hmeet : StepsMeet LogHistory.step LogHistory.CrashOk LogHistory.new
      (purgeFirstOfThree 2) := by decide +kernel
  exact ⟨_, rfl, (noHole_of_crashOk (purgeFirstOfThree 2) _ hmeet rfl).1⟩

/-- A purge that crashes after its first deletion: nothing is purged according to the log state, but
the log starts at 2 and not at 1, where it was first appended. -/
theorem hole_purge_crash :
    ∃ h, runSteps LogHistory.step LogHistory.new (purgeFirstOfThree 1) = some h ∧
      h.store.getLogState = .ok ⟨none, some ⟨⟨1, 1⟩, 3⟩⟩ ∧ h.first = some 1 ∧
      h.store.indices = [2, 3] ∧ ¬ h.NoHole := by
  have hhole : ∀ h : LogHistory, h.store.getLogState = .ok ⟨none, some ⟨⟨1, 1⟩, 3⟩⟩ →
      h.first = some 1 → h.store.indices = [2, 3] → ¬ h.NoHole := by
    rintro h hstate hfirst hindices ⟨st, hst, stop, hstop⟩
    rw [hstate] at hst
    obtain rfl := Except.ok.inj hst
    rw [hindices, hfirst] at hstop
    have h1 : ¬ 1 < stop := fun hlt => by simpa using (hstop 1).mpr ⟨le_refl 1, hlt⟩
    have h2 := ((hstop 2).mp (by simp)).2
    omega
  have hstate : ∀ h, runSteps LogHistory.step LogHistory.new (purgeFirstOfThree 1) = some h →
      h.store.getLogState = .ok ⟨none, some ⟨⟨1, 1⟩, 3⟩⟩ ∧ h.first = some 1 ∧
        h.store.indices = [2, 3] := by
    rintro h ⟨⟩
    decide +kernel
  obtain ⟨hst, hfirst, hidx⟩ := hstate _ rfl
  exact ⟨_, rfl, hst, hfirst, hidx, hhole _ hst hfirst hidx⟩

end Picloud
