import Picloud.Workload.Drain

/-!
# Conservation of workloads

A drain copies workloads to their targets one by one and clears its node at the end (`placeAll`).
When it is stopped in between, the workloads that it has copied are on two nodes; when the node is a
target of its own drain, the workloads that it has copied to itself are lost. Otherwise the multiset
of workloads over all nodes is what has been registered.
-/

namespace Picloud

open Lib

namespace DrainCoordinator

/-! ## What is conserved -/

/-- The workloads of all nodes. -/
def total (s : DrainCoordinator) : Multiset NodeWorkloadInfo :=
  (s.nodeWorkloads.map fun e => (e.2 : Multiset NodeWorkloadInfo)).sum

/-- The workload that a call registers. -/
def registers : DrainAction → Option NodeWorkloadInfo
  | .registerWorkload _ workload => some workload
  | _ => none

/-- The workloads registered in a run. -/
def registered (as : List DrainAction) : Multiset NodeWorkloadInfo := (as.filterMap registers : List _)

/-- A drain that is stopped, if at all, before its first migration, and that does not reach its own
node in the round over the available nodes. -/
def Settles (s : DrainCoordinator) : DrainAction → Prop
  | .drain nodeId timeoutAt _ => timeoutAt = some 0 ∨
      ((∀ i ∈ timeoutAt, (s.workloadsOn nodeId).length ≤ i ∨ s.availableNodes = []) ∧
        nodeId ∉ s.availableNodes.take (s.workloadsOn nodeId).length)
  | _ => True

/-- After a drain that succeeds, its node holds nothing. -/
def Empties (s : DrainCoordinator) : DrainAction → Prop
  | .drain nodeId timeoutAt durationMs => (s.drain nodeId timeoutAt durationMs).1.success = true →
      (s.drain nodeId timeoutAt durationMs).2.workloadsOn nodeId = []
  | _ => True

/-- The entries that a call adds to the migration log are the workloads that leave a node. -/
def LogsDepartures (s : DrainCoordinator) (a : DrainAction) : Prop :=
  ∀ s', s.step a = some s' → ∃ entries, s'.migrations = s.migrations ++ entries ∧
    ∀ nodeId, (((entries.filter (·.fromNodeId = nodeId)).map MigrationRecord.workload : List _) :
      Multiset NodeWorkloadInfo) = s.workloadsOn nodeId - s'.workloadsOn nodeId

/-! ## The workloads of all nodes -/

variable {s : DrainCoordinator}

/-- Every node has one list. -/
def Keyed (s : DrainCoordinator) : Prop := (Assoc.keys s.nodeWorkloads).Nodup

theorem coe_workloadsOn (s : DrainCoordinator) (nodeId : Uuid) :
    (s.workloadsOn nodeId : Multiset NodeWorkloadInfo) =
      ((Assoc.get s.nodeWorkloads nodeId).map Multiset.ofList).getD 0 := by
  rw [workloadsOn]
  cases Assoc.get s.nodeWorkloads nodeId <;> rfl

theorem total_registerWorkload (h : s.Keyed) (nodeId : Uuid) (workload : NodeWorkloadInfo) :
    (s.registerWorkload nodeId workload).total = s.total + {workload} := by
  have hsum := Assoc.sum_set_add h nodeId (s.workloadsOn nodeId ++ [workload]) Multiset.ofList
  rw [← coe_workloadsOn, ← Multiset.coe_add, ← add_assoc, add_right_comm] at hsum
  exact add_right_cancel hsum

theorem total_removeWorkloads (h : s.Keyed) (nodeId : Uuid) :
    (s.removeWorkloads nodeId).total + s.workloadsOn nodeId = s.total := by
  have hsum := Assoc.sum_erase_add h nodeId Multiset.ofList
  rwa [← coe_workloadsOn] at hsum

theorem keyed_registerWorkload (h : s.Keyed) (nodeId : Uuid) (workload : NodeWorkloadInfo) :
    (s.registerWorkload nodeId workload).Keyed := Assoc.nodup_keys_set h nodeId _

theorem keyed_removeWorkloads (h : s.Keyed) (nodeId : Uuid) : (s.removeWorkloads nodeId).Keyed :=
  Assoc.nodup_keys_erase h nodeId

/-- A workload that is there once is on one node. -/
theorem eq_of_mem_workloadsOn (h : s.Keyed) (hnodup : s.total.Nodup) {a b : Uuid}
    {w : NodeWorkloadInfo} (ha : w ∈ s.workloadsOn a) (hb : w ∈ s.workloadsOn b) : a = b := by
  by_contra hne
  have hsplit := total_removeWorkloads h a
  have hsplit' := total_removeWorkloads (keyed_removeWorkloads h a) b
  rw [workloadsOn_removeWorkloads_of_ne s (Ne.symm hne)] at hsplit'
  rw [← hsplit, Multiset.nodup_add] at hnodup
  refine Multiset.disjoint_left.mp hnodup.2.2 ?_ (Multiset.mem_coe.mpr ha)
  rw [← hsplit']
  exact Multiset.mem_add.mpr (Or.inr (Multiset.mem_coe.mpr hb))

/-! ## The loop -/

/-- A round of the loop. -/
def place (s : DrainCoordinator) (workload : NodeWorkloadInfo) (nodeId target : Uuid) :
    DrainCoordinator :=
  (s.recordMigration workload nodeId target).registerWorkload target workload

theorem keyed_place (h : s.Keyed) (workload : NodeWorkloadInfo) (nodeId target : Uuid) :
    (s.place workload nodeId target).Keyed :=
  keyed_registerWorkload (s := s.recordMigration workload nodeId target) h target workload

theorem total_place (h : s.Keyed) (workload : NodeWorkloadInfo) (nodeId target : Uuid) :
    (s.place workload nodeId target).total = s.total + {workload} :=
  total_registerWorkload (s := s.recordMigration workload nodeId target) h target workload

theorem workloadsOn_place_self (s : DrainCoordinator) (workload : NodeWorkloadInfo)
    (nodeId target : Uuid) :
    (s.place workload nodeId target).workloadsOn target = s.workloadsOn target ++ [workload] :=
  workloadsOn_registerWorkload_self (s.recordMigration workload nodeId target) target workload

theorem workloadsOn_place_of_ne (s : DrainCoordinator) (workload : NodeWorkloadInfo) (nodeId : Uuid)
    {target other : Uuid} (h : other ≠ target) :
    (s.place workload nodeId target).workloadsOn other = s.workloadsOn other :=
  workloadsOn_registerWorkload_of_ne (s.recordMigration workload nodeId target) workload h

/-- The rounds of the loop that are not stopped. -/
def placeAll (nodeId : Uuid) (targetNodes : List Uuid) :
    ℕ → List NodeWorkloadInfo → DrainCoordinator → DrainCoordinator
  | _, [], s => s
  | i, workload :: rest, s =>
    placeAll nodeId targetNodes (i + 1) rest (s.place workload nodeId (targetAt targetNodes i))

variable {nodeId : Uuid} {targetNodes : List Uuid} {timeoutAt : Option ℕ}

variable {i : ℕ} {s' : DrainCoordinator} {a : DrainAction}

/-- The loop runs to its end, or it is stopped in front of a workload. -/
theorem migrateAll_cases {k : ℕ} {workloads : List NodeWorkloadInfo} {stopped : Bool}
    (h : migrateAll nodeId targetNodes timeoutAt i workloads s = (s', k, stopped)) :
    (stopped = false ∧ s' = placeAll nodeId targetNodes i workloads s ∧
      ∀ j ∈ timeoutAt, j < i ∨ i + workloads.length ≤ j) ∨
    (stopped = true ∧ ∃ moved kept, kept ≠ [] ∧ workloads = moved ++ kept ∧
      s' = placeAll nodeId targetNodes i moved s ∧ timeoutAt = some (i + moved.length)) := by
  induction workloads generalizing i s with
  | nil =>
    cases h
    exact Or.inl ⟨rfl, rfl, fun j _ => Nat.lt_or_ge j _⟩
  | cons workload rest ih =>
    rw [migrateAll] at h
    by_cases htimeout : timeoutAt = some i
    · rw [if_pos htimeout] at h
      cases h
      exact Or.inr ⟨rfl, [], workload :: rest, List.cons_ne_nil _ _, rfl, rfl, htimeout⟩
    · rw [if_neg htimeout] at h
      rcases ih h with ⟨hstopped, hs', hlate⟩ | ⟨hstopped, moved, kept, hkept, rfl, hs', hat⟩
      · refine Or.inl ⟨hstopped, hs', fun j hj => ?_⟩
        have hne : j ≠ i := by
          rintro rfl
          exact htimeout hj
        have hround := hlate j hj
        rw [List.length_cons]
        omega
      · refine Or.inr ⟨hstopped, workload :: moved, kept, hkept, rfl, hs', ?_⟩
        rw [hat, List.length_cons, Nat.add_right_comm, Nat.add_assoc]

theorem keyed_placeAll (h : s.Keyed) (i : ℕ) (moved : List NodeWorkloadInfo) :
    (placeAll nodeId targetNodes i moved s).Keyed := by
  induction moved generalizing i s with
  | nil => exact h
  | cons workload rest ih => exact ih (keyed_place h workload nodeId _) (i + 1)

theorem total_placeAll (h : s.Keyed) (i : ℕ) (moved : List NodeWorkloadInfo) :
    (placeAll nodeId targetNodes i moved s).total = s.total + moved := by
  induction moved generalizing i s with
  | nil => exact (add_zero _).symm
  | cons workload rest ih =>
    rw [placeAll, ih (keyed_place h workload nodeId _), total_place h, add_assoc,
      Multiset.singleton_add, Multiset.cons_coe]

/-- Every round adds one entry to the log. -/
theorem migrations_placeAll (i : ℕ) (moved : List NodeWorkloadInfo) :
    ∃ entries, (placeAll nodeId targetNodes i moved s).migrations = s.migrations ++ entries ∧
      entries.map MigrationRecord.workload = moved ∧ ∀ r ∈ entries, r.fromNodeId = nodeId := by
  induction moved generalizing i s with
  | nil => exact ⟨[], (List.append_nil _).symm, rfl, List.forall_mem_nil _⟩
  | cons workload rest ih =>
    obtain ⟨entries, hmigrations, hmoved, hfrom⟩ :=
      ih (s := s.place workload nodeId (targetAt targetNodes i)) (i + 1)
    refine ⟨⟨workload, nodeId, targetAt targetNodes i⟩ :: entries, ?_, ?_, ?_⟩
    · rw [placeAll, hmigrations]
      exact List.append_assoc _ [_] entries
    · rw [List.map_cons, hmoved]
    · exact List.forall_mem_cons.mpr ⟨rfl, hfrom⟩

/-- A node keeps what it has. -/
theorem workloadsOn_prefix_placeAll (i : ℕ) (moved : List NodeWorkloadInfo) (other : Uuid) :
    s.workloadsOn other <+: (placeAll nodeId targetNodes i moved s).workloadsOn other := by
  induction moved generalizing i s with
  | nil => exact List.prefix_rfl
  | cons workload rest ih =>
    refine List.IsPrefix.trans ?_ (ih (i + 1))
    by_cases h : other = targetAt targetNodes i
    · subst h
      rw [workloadsOn_place_self]
      exact List.prefix_append _ _
    · simp only [workloadsOn_place_of_ne s workload nodeId h, List.prefix_rfl]

/-- A node that is no target gets nothing. -/
theorem workloadsOn_placeAll {moved : List NodeWorkloadInfo} {other : Uuid}
    (h : ∀ j < moved.length, targetAt targetNodes (i + j) ≠ other) :
    (placeAll nodeId targetNodes i moved s).workloadsOn other = s.workloadsOn other := by
  induction moved generalizing i s with
  | nil => rfl
  | cons workload rest ih =>
    have hfirst : other ≠ targetAt targetNodes i := Ne.symm (h 0 (Nat.succ_pos _))
    have hrest : ∀ j < rest.length, targetAt targetNodes (i + 1 + j) ≠ other := by
      intro j hj
      have hround := h (j + 1) (Nat.succ_lt_succ hj)
      rwa [show i + (j + 1) = i + 1 + j by omega] at hround
    rw [placeAll, ih hrest, workloadsOn_place_of_ne s workload nodeId hfirst]

theorem targetAt_mem_take (h : targetNodes ≠ []) {n : ℕ} (hi : i < n) :
    targetAt targetNodes i ∈ targetNodes.take n := by
  have hpos : 0 < targetNodes.length := List.length_pos_iff.mpr h
  have hlt : i % targetNodes.length < targetNodes.length := Nat.mod_lt i hpos
  have hle : i % targetNodes.length ≤ i := Nat.mod_le i _
  rw [targetAt, List.getD_eq_getElem?_getD, List.getElem?_eq_getElem hlt, Option.getD_some]
  exact List.mem_take_iff_getElem.mpr ⟨_, by omega, rfl⟩

/-! ## A drain -/

/-- The state when all workloads of a node have been copied. -/
def copyAll (s : DrainCoordinator) (nodeId : Uuid) : DrainCoordinator :=
  placeAll nodeId s.availableNodes 0 (s.workloadsOn nodeId) (s.setState nodeId .draining)

theorem keyed_copyAll (h : s.Keyed) (nodeId : Uuid) : (s.copyAll nodeId).Keyed :=
  keyed_placeAll (s := s.setState nodeId .draining) h 0 _

theorem total_copyAll (h : s.Keyed) (nodeId : Uuid) :
    (s.copyAll nodeId).total = s.total + s.workloadsOn nodeId :=
  total_placeAll (s := s.setState nodeId .draining) h 0 _

theorem migrations_copyAll (s : DrainCoordinator) (nodeId : Uuid) :
    ∃ entries, (s.copyAll nodeId).migrations = s.migrations ++ entries ∧
      entries.map MigrationRecord.workload = s.workloadsOn nodeId ∧
      ∀ r ∈ entries, r.fromNodeId = nodeId :=
  migrations_placeAll (s := s.setState nodeId .draining) 0 _

theorem workloadsOn_prefix_copyAll (s : DrainCoordinator) (nodeId other : Uuid) :
    s.workloadsOn other <+: (s.copyAll nodeId).workloadsOn other :=
  workloadsOn_prefix_placeAll (s := s.setState nodeId .draining) 0 _ other

/-- A node that is no target of its drain holds what it held. -/
theorem workloadsOn_copyAll
    (h : ∀ i < (s.workloadsOn nodeId).length, targetAt s.availableNodes i ≠ nodeId) :
    (s.copyAll nodeId).workloadsOn nodeId = s.workloadsOn nodeId := by
  refine workloadsOn_placeAll (i := 0) fun i hi => ?_
  rw [Nat.zero_add]
  exact h i hi

/-- A drain that settles leaves every workload where it is, or moves those of its node to other
nodes. -/
theorem drain_cases {durationMs : ℕ} {r : DrainResult}
    (hsettles : s.Settles (.drain nodeId timeoutAt durationMs))
    (h : s.drain nodeId timeoutAt durationMs = (r, s')) :
    (r.success = false ∧ s'.nodeWorkloads = s.nodeWorkloads ∧ s'.migrations = s.migrations) ∨
    (r.success = true ∧ (∀ i < (s.workloadsOn nodeId).length, targetAt s.availableNodes i ≠ nodeId) ∧
      s' = ((s.copyAll nodeId).removeWorkloads nodeId).setState nodeId .drained) := by
  rw [drain] at h
  split at h
  · cases h
    exact Or.inl ⟨rfl, rfl, rfl⟩
  next htargets =>
  have havailable : 0 < (s.workloadsOn nodeId).length → s.availableNodes ≠ [] :=
    fun hpos hempty => htargets ⟨hempty, hpos⟩
  split at h
  · next s₁ migrated hloop =>
    obtain ⟨hfalse, -⟩ | ⟨-, moved, kept, hkept, hsplit, rfl, hat⟩ := migrateAll_cases hloop
    · cases hfalse
    cases h
    -- it is stopped before its first migration
    obtain rfl : moved = [] := by
      have hlength := congrArg List.length (show s.workloadsOn nodeId = moved ++ kept from hsplit)
      have hpos := List.length_pos_iff.mpr hkept
      rw [List.length_append] at hlength
      refine List.length_eq_zero_iff.mp ?_
      rcases hsettles with hzero | ⟨hlate, -⟩
      · have hfirst := Option.some.inj (hat.symm.trans hzero)
        omega
      · rcases hlate _ hat with hend | hempty
        · omega
        · exact absurd hempty (havailable (by omega))
    exact Or.inl ⟨rfl, rfl, rfl⟩
  · next s₁ migrated hloop =>
    obtain ⟨-, rfl, hlate⟩ | ⟨htrue, -⟩ := migrateAll_cases hloop
    · cases h
      refine Or.inr ⟨rfl, fun i hi htarget => ?_, rfl⟩
      rcases hsettles with hzero | ⟨-, hother⟩
      · have hend : 0 < 0 ∨ 0 + (s.workloadsOn nodeId).length ≤ 0 := hlate 0 hzero
        omega
      · have hmem := targetAt_mem_take (havailable (Nat.zero_lt_of_lt hi)) hi
        rw [htarget] at hmem
        exact hother hmem
    · cases htrue

/-- Every drain that succeeds ends with the removal of the workloads of its node. -/
theorem empties (s : DrainCoordinator) (a : DrainAction) : s.Empties a := by
  cases a with
  | drain nodeId timeoutAt durationMs =>
    rw [Empties, drain]
    split
    · exact fun hsuccess => nomatch hsuccess
    split
    · exact fun hsuccess => nomatch hsuccess
    · exact fun _ => workloadsOn_removeWorkloads_self _ nodeId
  | _ => trivial

/-! ## A call -/

theorem step_nodeWorkloads_cordon (s : DrainCoordinator) (nodeId : Uuid) :
    (s.cordon nodeId).2.nodeWorkloads = s.nodeWorkloads ∧
      (s.cordon nodeId).2.migrations = s.migrations := by
  rw [cordon]
  split <;> exact ⟨rfl, rfl⟩

theorem step_nodeWorkloads_uncordon (s : DrainCoordinator) (nodeId : Uuid) :
    (s.uncordon nodeId).2.nodeWorkloads = s.nodeWorkloads ∧
      (s.uncordon nodeId).2.migrations = s.migrations := by
  rw [uncordon]
  split <;> exact ⟨rfl, rfl⟩

/-- Everything a call can do to the workloads. -/
theorem step_cases (hsettles : s.Settles a) (h : s.step a = some s') :
    (registers a = none ∧ s'.nodeWorkloads = s.nodeWorkloads ∧ s'.migrations = s.migrations) ∨
    (∃ nodeId workload, a = .registerWorkload nodeId workload ∧
      s' = s.registerWorkload nodeId workload) ∨
    (∃ nodeId timeoutAt durationMs, a = .drain nodeId timeoutAt durationMs ∧
      (∀ i < (s.workloadsOn nodeId).length, targetAt s.availableNodes i ≠ nodeId) ∧
      s' = ((s.copyAll nodeId).removeWorkloads nodeId).setState nodeId .drained) := by
  cases a with
  | registerWorkload nodeId workload =>
    obtain rfl := Option.some.inj h
    exact Or.inr (Or.inl ⟨nodeId, workload, rfl, rfl⟩)
  | setAvailableNodes nodes =>
    obtain rfl := Option.some.inj h
    exact Or.inl ⟨rfl, rfl, rfl⟩
  | cordon nodeId =>
    obtain rfl := Option.some.inj h
    exact Or.inl ⟨rfl, step_nodeWorkloads_cordon s nodeId⟩
  | uncordon nodeId =>
    obtain rfl := Option.some.inj h
    exact Or.inl ⟨rfl, step_nodeWorkloads_uncordon s nodeId⟩
  | drain nodeId timeoutAt durationMs =>
    obtain rfl := Option.some.inj h
    obtain ⟨-, hsame⟩ | ⟨-, hother, hs'⟩ := drain_cases hsettles rfl
    · exact Or.inl ⟨rfl, hsame⟩
    · exact Or.inr (Or.inr ⟨nodeId, timeoutAt, durationMs, rfl, hother, hs'⟩)

theorem keyed_step (hs : s.Keyed) (hsettles : s.Settles a) (h : s.step a = some s') : s'.Keyed := by
  rcases step_cases hsettles h with ⟨-, hsame, -⟩ | ⟨nodeId, workload, -, rfl⟩ |
    ⟨nodeId, timeoutAt, durationMs, -, -, rfl⟩
  · rw [Keyed, hsame]
    exact hs
  · exact keyed_registerWorkload hs nodeId workload
  · exact keyed_removeWorkloads (keyed_copyAll hs nodeId) nodeId

/-- What is there changes by what is registered. -/
theorem total_step (hs : s.Keyed) (hsettles : s.Settles a) (h : s.step a = some s') :
    s'.total = s.total + ((registers a).toList : List _) := by
  rcases step_cases hsettles h with ⟨hregisters, hsame, -⟩ | ⟨nodeId, workload, rfl, rfl⟩ |
    ⟨nodeId, timeoutAt, durationMs, rfl, hother, rfl⟩
  · rw [total, hsame, hregisters]
    exact (add_zero _).symm
  · exact total_registerWorkload hs nodeId workload
  · -- the workloads of the node have been added elsewhere, and are what is removed from it
    have hremoved := total_removeWorkloads (keyed_copyAll hs nodeId) nodeId
    rw [workloadsOn_copyAll hother, total_copyAll hs] at hremoved
    exact (add_right_cancel hremoved).trans (add_zero _).symm

theorem coe_sub_eq_zero_of_isPrefix {l l' : List NodeWorkloadInfo} (h : l <+: l') :
    (l : Multiset NodeWorkloadInfo) - l' = 0 := by
  refine Multiset.le_zero.mp (Multiset.sub_le_iff_le_add.mpr ?_)
  rw [zero_add]
  exact Multiset.coe_le.mpr h.sublist.subperm

/-- What a call adds to the log has left its node. -/
theorem logsDepartures_of_settles (hsettles : s.Settles a) :
    s.LogsDepartures a := by
  intro s' h
  rcases step_cases hsettles h with ⟨-, hsame, hmigrations⟩ | ⟨node, workload, -, rfl⟩ |
    ⟨node, timeoutAt, durationMs, -, -, rfl⟩
  · refine ⟨[], hmigrations.trans (List.append_nil _).symm, fun other => ?_⟩
    rw [workloadsOn, workloadsOn, hsame]
    exact (coe_sub_eq_zero_of_isPrefix List.prefix_rfl).symm
  · refine ⟨[], (List.append_nil _).symm, fun other => (coe_sub_eq_zero_of_isPrefix ?_).symm⟩
    by_cases hnode : other = node
    · subst hnode
      rw [workloadsOn_registerWorkload_self]
      exact List.prefix_append _ _
    · simp only [workloadsOn_registerWorkload_of_ne s workload hnode, List.prefix_rfl]
  · obtain ⟨entries, hmigrations, hmoved, hfrom⟩ := migrations_copyAll s node
    refine ⟨entries, hmigrations, fun other => ?_⟩
    by_cases hnode : other = node
    · subst hnode
      have hall : entries.filter (·.fromNodeId = other) = entries :=
        List.filter_eq_self.mpr fun r hr => decide_eq_true (hfrom r hr)
      have hempty : (((s.copyAll other).removeWorkloads other).setState other .drained).workloadsOn
          other = [] := workloadsOn_removeWorkloads_self _ other
      rw [hall, hmoved, hempty]
      exact (tsub_zero _).symm
    · have hnone : entries.filter (·.fromNodeId = other) = [] :=
        List.filter_eq_nil_iff.mpr fun r hr heq =>
          hnode ((of_decide_eq_true heq).symm.trans (hfrom r hr))
      rw [hnone]
      refine (coe_sub_eq_zero_of_isPrefix ?_).symm
      have hkept : (((s.copyAll node).removeWorkloads node).setState node .drained).workloadsOn
          other = (s.copyAll node).workloadsOn other := workloadsOn_removeWorkloads_of_ne _ hnode
      rw [hkept]
      exact workloadsOn_prefix_copyAll s node other

/-! ## Runs -/

theorem registered_cons (a : DrainAction) (as : List DrainAction) :
    registered (a :: as) = ((registers a).toList : List _) + registered as := by
  rw [registered, registered, List.filterMap_cons]
  cases registers a <;> rfl

theorem total_run {as : List DrainAction} (hs : s.Keyed) (hsettles : StepsMeet step Settles s as)
    (hrun : runSteps step s as = some s') :
    s'.Keyed ∧ s'.total = s.total + registered as := by
  induction as generalizing s with
  | nil =>
    obtain rfl := Option.some.inj hrun
    exact ⟨hs, (add_zero _).symm⟩
  | cons a as ih =>
    rw [runSteps_cons, Option.bind_eq_some_iff] at hrun
    obtain ⟨t, ht, hrun⟩ := hrun
    rw [StepsMeet, ht] at hsettles
    obtain ⟨hkeyed, htotal⟩ := ih (keyed_step hs hsettles.1 ht) hsettles.2 hrun
    refine ⟨hkeyed, ?_⟩
    rw [htotal, total_step hs hsettles.1 ht, registered_cons, add_assoc]

/-- **Conservation of workloads.** In every run whose drains settle, the workloads of all nodes are
those that have been registered, none is on two nodes, a drain that succeeds empties its node, and
the migration log has an entry for every workload that left a node. -/
theorem drains_conserve {as : List DrainAction} (hsettles : StepsMeet step Settles new as) :
    (∀ s, runSteps step new as = some s → s.total = registered as ∧
      ((registered as).Nodup → ∀ a b w, w ∈ s.workloadsOn a → w ∈ s.workloadsOn b → a = b)) ∧
    StepsMeet step Empties new as ∧ StepsMeet step LogsDepartures new as := by
  refine ⟨fun s hrun => ?_, ?_, ?_⟩
  · have hstart : new.Keyed := List.nodup_nil
    obtain ⟨hkeyed, htotal⟩ := total_run hstart hsettles hrun
    rw [show new.total = 0 from rfl, zero_add] at htotal
    exact ⟨htotal, fun hnodup a b w ha hb => eq_of_mem_workloadsOn hkeyed (htotal ▸ hnodup) ha hb⟩
  · exact stepsMeet_of_forall step (fun a _ s => empties s a) new
  · exact hsettles.mono step fun s a ha => logsDepartures_of_settles ha

/-! ## Two nodes -/

/-- A container. -/
def sampleWorkload (name : String) : NodeWorkloadInfo :=
  ⟨⟨"https://picloud.local/products/photo-app/containers/" ++ name⟩, "container"⟩

/-- Two workloads on the first node, which is then drained. -/
def drainFirst (nodes : List Uuid) (timeoutAt : Option ℕ) : List DrainAction :=
  [.registerWorkload 1 (sampleWorkload "api"), .registerWorkload 1 (sampleWorkload "web"),
    .setAvailableNodes nodes, .drain 1 timeoutAt 5]

instance Settles.decidable (s : DrainCoordinator) : (a : DrainAction) → Decidable (s.Settles a)
  | .drain _ _ _ => inferInstanceAs (Decidable (_ ∨ _))
  | .registerWorkload .. | .setAvailableNodes _ | .cordon _ | .uncordon _ => isTrue trivial

theorem drains_conserve_two_nodes :
    ∃ s, runSteps step new (drainFirst [2] none) = some s ∧
      s.total = {sampleWorkload "api", sampleWorkload "web"} := by
  have hsettles : StepsMeet step Settles new (drainFirst [2] none) := by decide +kernel
  have hsome : (runSteps step new (drainFirst [2] none)).isSome = true := by decide +kernel
  obtain ⟨s, hrun⟩ := Option.isSome_iff_exists.mp hsome
  exact ⟨s, hrun, ((drains_conserve hsettles).1 s hrun).1⟩

/-- A drain that is stopped after its first migration has its workload on both nodes, with an entry
in the log though it has not left the first; a drain whose node is among the available ones loses the
workload that it gives to itself. -/
theorem stopped_drain_duplicates :
    (∃ s, runSteps step new (drainFirst [2] (some 1)) = some s ∧
      s.total ≠ registered (drainFirst [2] (some 1)) ∧ (registered (drainFirst [2] (some 1))).Nodup ∧
      sampleWorkload "api" ∈ s.workloadsOn 1 ∧ sampleWorkload "api" ∈ s.workloadsOn 2) ∧
    ¬ StepsMeet step LogsDepartures new (drainFirst [2] (some 1)) ∧
    ∃ s, runSteps step new (drainFirst [1, 2] none) = some s ∧
      sampleWorkload "api" ∈ registered (drainFirst [1, 2] none) ∧
      sampleWorkload "api" ∉ s.total := by
  refine ⟨?_, fun hmeet => ?_, ?_⟩
  · have hstate : (runSteps step new (drainFirst [2] (some 1))).map (fun s =>
        decide (s.total ≠ registered (drainFirst [2] (some 1)) ∧
          (registered (drainFirst [2] (some 1))).Nodup ∧
          sampleWorkload "api" ∈ s.workloadsOn 1 ∧ sampleWorkload "api" ∈ s.workloadsOn 2)) =
        some true := by decide +kernel
    obtain ⟨s, hs, hfacts⟩ := Option.map_eq_some_iff.mp hstate
    exact ⟨s, hs, of_decide_eq_true hfacts⟩
  · have hsplit : drainFirst [2] (some 1) = (drainFirst [2] (some 1)).take 3 ++
        [.drain 1 (some 1) 5] := rfl
    rw [hsplit, stepsMeet_append] at hmeet
    have hstate : (runSteps step new ((drainFirst [2] (some 1)).take 3)).map (fun s =>
        decide ((s.drain 1 (some 1) 5).2.migrations.map MigrationRecord.fromNodeId = [1] ∧
          s.migrations = [] ∧ (s.workloadsOn 1 : Multiset NodeWorkloadInfo) -
            (s.drain 1 (some 1) 5).2.workloadsOn 1 = 0)) = some true := by decide +kernel
    obtain ⟨s, hs, hfacts⟩ := Option.map_eq_some_iff.mp hstate
    obtain ⟨hafter, hbefore, hstayed⟩ := of_decide_eq_true hfacts
    obtain ⟨entries, hentries, hleft⟩ := (stepsMeet_singleton step).mp (hmeet.2 s hs) _ rfl
    -- the one entry is about a workload that is still there
    rw [hbefore, List.nil_append] at hentries
    rw [hentries] at hafter
    have hone := hleft 1
    rw [hstayed, Multiset.coe_eq_zero, List.map_eq_nil_iff, List.filter_eq_nil_iff] at hone
    obtain ⟨entry, rfl, hfrom⟩ := List.map_eq_singleton_iff.mp hafter
    exact hone entry List.mem_cons_self (decide_eq_true hfrom)
  · have hstate : (runSteps step new (drainFirst [1, 2] none)).map (fun s =>
        decide (sampleWorkload "api" ∈ registered (drainFirst [1, 2] none) ∧
          sampleWorkload "api" ∉ s.total)) = some true := by decide +kernel
    obtain ⟨s, hs, hfacts⟩ := Option.map_eq_some_iff.mp hstate
    exact ⟨s, hs, of_decide_eq_true hfacts⟩

end DrainCoordinator

end Picloud
