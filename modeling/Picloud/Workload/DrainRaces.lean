import Picloud.Lib.Pool
import Picloud.Workload.Drain

/-!
# Concurrent drains

States, workloads, target nodes and the migration log are behind locks of their own, and a drain
takes them one after the other. Each call is a task, and any number of them can be interleaved; a
call that is executed alone is the sequential function (`finish_drainStep`).
-/

namespace Picloud

open Lib

/-! ## Calls and tasks -/

/-- The calls of the operators. -/
inductive DrainCall where
  | cordon (nodeId : Uuid)
  | uncordon (nodeId : Uuid)
  | drain (nodeId : Uuid) (timeoutAt : Option ℕ) (durationMs : ℕ)
deriving DecidableEq

/-- What a call returns. -/
inductive DrainAnswer where
  | marked (result : Except String Unit)
  | drained (result : DrainResult)

/-- What stays the same in a drain: its node and what it finds of the clock. -/
structure DrainJob where
  nodeId : Uuid
  timeoutAt : Option ℕ
  durationMs : ℕ
deriving DecidableEq

/-- The sections of a call that are still to come. -/
inductive DrainTask where
  | cordon (nodeId : Uuid)
  | uncordon (nodeId : Uuid)
  | markDraining (job : DrainJob)
  | readWorkloads (job : DrainJob)
  | readTargets (job : DrainJob) (workloads : List NodeWorkloadInfo)
  | giveUp (job : DrainJob)
  /-- A round of the loop: the deadline, and the entry in the migration log. -/
  | migrate (job : DrainJob) (targetNodes : List Uuid) (workloadCount i : ℕ)
      (rest : List NodeWorkloadInfo)
  | register (job : DrainJob) (targetNodes : List Uuid) (workloadCount i : ℕ)
      (workload : NodeWorkloadInfo) (rest : List NodeWorkloadInfo)
  | markDrained (job : DrainJob) (migrated : ℕ)
  | done (answer : DrainAnswer)

/-- The task of a call. -/
def DrainCall.enter : DrainCall → DrainTask
  | .cordon nodeId => .cordon nodeId
  | .uncordon nodeId => .uncordon nodeId
  | .drain nodeId timeoutAt durationMs => .markDraining ⟨nodeId, timeoutAt, durationMs⟩

namespace DrainCoordinator

variable (s : DrainCoordinator)

/-- One section of a task. -/
def drainStep : DrainTask → Option (DrainCoordinator × DrainTask)
  | .cordon nodeId => some ((s.cordon nodeId).2, .done (.marked (s.cordon nodeId).1))
  | .uncordon nodeId => some ((s.uncordon nodeId).2, .done (.marked (s.uncordon nodeId).1))
  | .markDraining job => some (s.setState job.nodeId .draining, .readWorkloads job)
  | .readWorkloads job => some (s, .readTargets job (s.workloadsOn job.nodeId))
  | .readTargets job workloads =>
    if s.availableNodes = [] ∧ workloads.length > 0 then some (s, .giveUp job)
    else some (s, .migrate job s.availableNodes workloads.length 0 workloads)
  | .giveUp job => some (s.setState job.nodeId .cordoned, .done (.drained
      ⟨job.nodeId, 0, job.durationMs, false,
        some "No available target nodes for workload migration"⟩))
  | .migrate job targetNodes workloadCount i (workload :: rest) =>
    if job.timeoutAt = some i then
      some (s.setState job.nodeId .cordoned, .done (.drained ⟨job.nodeId, i, job.durationMs, false,
        some ("Drain timeout: migrated " ++ toString i ++ "/" ++ toString workloadCount ++
          " workloads")⟩))
    else
      some (s.recordMigration workload job.nodeId (targetAt targetNodes i),
        .register job targetNodes workloadCount i workload rest)
  | .register job targetNodes workloadCount i workload rest =>
    some (s.registerWorkload (targetAt targetNodes i) workload,
      .migrate job targetNodes workloadCount (i + 1) rest)
  | .migrate job _ _ i [] => some (s.removeWorkloads job.nodeId, .markDrained job i)
  | .markDrained job migrated => some (s.setState job.nodeId .drained,
      .done (.drained ⟨job.nodeId, migrated, job.durationMs, true, none⟩))
  | .done _ => none

/-- Concurrent calls. -/
def drainNext : Pool DrainCoordinator DrainTask → Pool.Act DrainCall →
    Option (Pool DrainCoordinator DrainTask) :=
  Pool.next DrainCall.enter drainStep

/-! ## A call alone -/

/-- The state after a call of the sequential functions. -/
def callAlone : DrainCall → DrainCoordinator
  | .cordon nodeId => (s.cordon nodeId).2
  | .uncordon nodeId => (s.uncordon nodeId).2
  | .drain nodeId timeoutAt durationMs => (s.drain nodeId timeoutAt durationMs).2

/-- The state after the loop of a drain, undisturbed. -/
def finishLoop (job : DrainJob) (targetNodes : List Uuid) (i : ℕ) (rest : List NodeWorkloadInfo) :
    DrainCoordinator :=
  match migrateAll job.nodeId targetNodes job.timeoutAt i rest s with
  | (s, _, true) => s.setState job.nodeId .cordoned
  | (s, _, false) => (s.removeWorkloads job.nodeId).setState job.nodeId .drained

/-- The state after a drain that has marked its node, undisturbed. -/
def finishDrain (job : DrainJob) (workloads : List NodeWorkloadInfo) : DrainCoordinator :=
  if s.availableNodes = [] ∧ workloads.length > 0 then s.setState job.nodeId .cordoned
  else s.finishLoop job s.availableNodes 0 workloads

/-- The state after the rest of a call, undisturbed. -/
def finish : DrainTask → DrainCoordinator
  | .cordon nodeId => (s.cordon nodeId).2
  | .uncordon nodeId => (s.uncordon nodeId).2
  | .markDraining job => (s.drain job.nodeId job.timeoutAt job.durationMs).2
  | .readWorkloads job => s.finishDrain job (s.workloadsOn job.nodeId)
  | .readTargets job workloads => s.finishDrain job workloads
  | .giveUp job => s.setState job.nodeId .cordoned
  | .migrate job targetNodes _ i rest => s.finishLoop job targetNodes i rest
  | .register job targetNodes _ i workload rest =>
    (s.registerWorkload (targetAt targetNodes i) workload).finishLoop job targetNodes (i + 1) rest
  | .markDrained job _ => s.setState job.nodeId .drained
  | .done _ => s

variable {s}

theorem drain_eq_finishDrain (job : DrainJob) :
    (s.drain job.nodeId job.timeoutAt job.durationMs).2 =
      (s.setState job.nodeId .draining).finishDrain job
        ((s.setState job.nodeId .draining).workloadsOn job.nodeId) := by
  rw [drain, finishDrain]
  split
  · rfl
  · rw [finishLoop]
    rcases migrateAll job.nodeId (s.setState job.nodeId .draining).availableNodes job.timeoutAt 0
      ((s.setState job.nodeId .draining).workloadsOn job.nodeId) (s.setState job.nodeId .draining) with
      ⟨s', migrated, _ | _⟩ <;> rfl

/-- A section leads its task to where finishing it alone would have led. -/
theorem finish_drainStep {s' : DrainCoordinator} {t t' : DrainTask}
    (h : s.drainStep t = some (s', t')) : s'.finish t' = s.finish t := by
  cases t with
  | markDraining job =>
    cases h
    exact (drain_eq_finishDrain job).symm
  | readTargets job workloads =>
    rw [drainStep] at h
    rw [finish, finishDrain]
    split at h
    · next hempty => cases h; rw [if_pos hempty]; rfl
    · next hsome => cases h; rw [if_neg hsome]; rfl
  | migrate job targetNodes workloadCount i rest =>
    cases rest with
    | nil => cases h; rfl
    | cons workload rest =>
      rw [drainStep] at h
      rw [finish, finishLoop, migrateAll]
      split at h
      · next hstop => cases h; rw [if_pos hstop]; rfl
      · next hgo => cases h; rw [if_neg hgo]; rfl
  | cordon nodeId | uncordon nodeId | readWorkloads job | giveUp job | markDrained job migrated =>
    cases h
    rfl
  | register job targetNodes workloadCount i workload rest =>
    cases h
    rfl
  | done answer => cases h

/-- A call that is executed alone to its end leaves the state that the sequential call leaves. -/
theorem shared_of_drainAlone {c : DrainCall} {k : ℕ} {p : Pool DrainCoordinator DrainTask}
    (hrun : runSteps drainNext ⟨s, [c.enter]⟩ (List.replicate k (.step 0)) = some p)
    (hdone : ∀ t ∈ p.tasks, ∃ answer, t = .done answer) : p.shared = s.callAlone c := by
  obtain ⟨t, htasks, hfinish⟩ :=
    Pool.finish_of_alone (fun _ _ _ _ hstep => finish_drainStep hstep) hrun
  obtain ⟨answer, rfl⟩ := hdone t (by rw [htasks]; exact List.mem_singleton_self t)
  calc p.shared = p.shared.finish (.done answer) := rfl
    _ = s.finish c.enter := hfinish
    _ = s.callAlone c := by cases c <;> rfl

end DrainCoordinator

/-! ## Drains in progress -/

namespace DrainTask

/-- The node of a drain that has begun and not ended. -/
def drains : DrainTask → Option Uuid
  | .readWorkloads job | .readTargets job _ | .giveUp job | .migrate job .. | .register job ..
  | .markDrained job _ => some job.nodeId
  | _ => none

/-- The targets of the rounds that are still to come. -/
def comingTargets : DrainTask → List Uuid
  | .migrate _ targetNodes _ i rest =>
    (List.range rest.length).map fun k => DrainCoordinator.targetAt targetNodes (i + k)
  | .register _ targetNodes _ i _ rest =>
    (List.range (rest.length + 1)).map fun k => DrainCoordinator.targetAt targetNodes (i + k)
  | _ => []

end DrainTask

namespace DrainCoordinator

/-- A section that respects the drains in progress: nobody takes a node out of service that is still
a target, nobody drains a node that is being drained, and the targets of a drain are active when it
reads them. -/
def SectionRespects (p : Pool DrainCoordinator DrainTask) : DrainTask → Prop
  | .cordon nodeId => p.shared.drainState nodeId = .active → ∀ u ∈ p.tasks, nodeId ∉ u.comingTargets
  | .markDraining job => ∀ u ∈ p.tasks, job.nodeId ∉ u.comingTargets ∧ u.drains ≠ some job.nodeId
  | .readTargets _ workloads => p.shared.availableNodes ≠ [] → ∀ k < workloads.length,
      p.shared.drainState (targetAt p.shared.availableNodes k) = .active
  | _ => True

/-- The condition on an action. -/
def Respects (p : Pool DrainCoordinator DrainTask) (a : Pool.Act DrainCall) : Prop :=
  ∀ i t, a = .step i → p.tasks[i]? = some t → SectionRespects p t

instance SectionRespects.decidable (p : Pool DrainCoordinator DrainTask) :
    (t : DrainTask) → Decidable (SectionRespects p t)
  | .cordon _ => inferInstanceAs (Decidable (_ → _))
  | .markDraining _ => inferInstanceAs (Decidable (∀ u ∈ _, _))
  | .readTargets _ _ => inferInstanceAs (Decidable (_ → _))
  | .uncordon _ | .readWorkloads _ | .giveUp _ | .migrate .. | .register .. | .markDrained ..
  | .done _ => isTrue trivial

instance Respects.decidable (p : Pool DrainCoordinator DrainTask) :
    (a : Pool.Act DrainCall) → Decidable (Respects p a)
  | .call _ => isTrue fun _ _ ha _ => nomatch ha
  | .step i => decidable_of_iff (∀ t ∈ p.tasks[i]?, SectionRespects p t)
      ⟨fun h _ t ha ht => h t (Pool.Act.step.inj ha ▸ ht), fun h t ht => h i t rfl ht⟩

/-- A workload is registered with an active node. -/
def MigratesToActive (p : Pool DrainCoordinator DrainTask) (a : Pool.Act DrainCall) : Prop :=
  ∀ i job targetNodes workloadCount k workload rest, a = .step i →
    p.tasks[i]? = some (.register job targetNodes workloadCount k workload rest) →
      p.shared.drainState (targetAt targetNodes k) = .active

/-! ## Sections -/

variable {s s' : DrainCoordinator}

theorem drainState_setState_self (s : DrainCoordinator) (nodeId : Uuid) (state : NodeDrainState) :
    (s.setState nodeId state).drainState nodeId = state := by
  rw [drainState, setState, Assoc.get_set_self]
  rfl

theorem drainState_setState_of_ne (s : DrainCoordinator) {nodeId other : Uuid}
    (state : NodeDrainState) (h : other ≠ nodeId) :
    (s.setState nodeId state).drainState other = s.drainState other := by
  rw [drainState, setState, Assoc.get_set_of_ne _ _ h]
  rfl

/-- Only an active node is cordoned. -/
theorem cordon_cases (s : DrainCoordinator) (nodeId : Uuid) :
    (s.cordon nodeId).2 = s ∨
      s.drainState nodeId = .active ∧ (s.cordon nodeId).2 = s.setState nodeId .cordoned := by
  rw [cordon, drainState]
  split
  · next h => exact Or.inr ⟨by rw [h]; rfl, rfl⟩
  · next h => exact Or.inr ⟨by rw [h]; rfl, rfl⟩
  · exact Or.inl rfl

/-- A node that is being drained is not uncordoned. -/
theorem uncordon_cases (s : DrainCoordinator) (nodeId : Uuid) :
    (s.uncordon nodeId).2 = s ∨
      s.drainState nodeId ≠ .draining ∧ (s.uncordon nodeId).2 = s.setState nodeId .active := by
  rw [uncordon, drainState]
  split
  · next h => exact Or.inr ⟨by rw [h]; decide, rfl⟩
  · next h => exact Or.inr ⟨by rw [h]; decide, rfl⟩
  · next h => exact Or.inr ⟨by rw [h]; decide, rfl⟩
  · exact Or.inl rfl
  · exact Or.inl rfl

/-! ## The invariant -/

/-- What holds while drains respect each other. -/
structure Orderly (p : Pool DrainCoordinator DrainTask) : Prop where
  draining : ∀ (i : ℕ) (u : DrainTask) (n : Uuid), p.tasks[i]? = some u → u.drains = some n →
    p.shared.drainState n = .draining
  alone : ∀ (i j : ℕ) (u v : DrainTask) (n : Uuid), p.tasks[i]? = some u → p.tasks[j]? = some v →
    u.drains = some n → v.drains = some n → i = j
  targets : ∀ (i : ℕ) (u : DrainTask), p.tasks[i]? = some u → ∀ n ∈ u.comingTargets,
    p.shared.drainState n = .active
  emptied : ∀ (i : ℕ) (job : DrainJob) (migrated : ℕ),
    p.tasks[i]? = some (.markDrained job migrated) → p.shared.workloadsOn job.nodeId = []
  drained : ∀ n, p.shared.drainState n = .drained → p.shared.workloadsOn n = []

variable {p : Pool DrainCoordinator DrainTask} {i : ℕ} {t t' : DrainTask}

/-- A section that sets the state of a node, and with which a drain begins or ends. -/
theorem Orderly.setState (h : Orderly p) {n : Uuid} {state : NodeDrainState}
    (hdrains : t'.drains = none ∨ t'.drains = some n ∧ state = .draining)
    (hothers : ∀ j u, j ≠ i → p.tasks[j]? = some u → u.drains ≠ some n ∧
      (n ∈ u.comingTargets → state = .active))
    (htargets : t'.comingTargets = []) (hmark : ∀ job migrated, t' ≠ .markDrained job migrated)
    (hdrained : state = .drained → p.shared.workloadsOn n = []) :
    Orderly ⟨p.shared.setState n state, p.tasks.set i t'⟩ := by
  refine ⟨fun j u m hu hm => ?_, fun j k u v m hu hv hmu hmv => ?_, fun j u hu m hm => ?_,
    fun j job migrated hu => ?_, fun m hm => ?_⟩
  · rcases Pool.getElem?_set_cases hu with ⟨rfl, rfl⟩ | ⟨hj, hold⟩
    · rcases hdrains with hnone | ⟨hn, rfl⟩
      · rw [hnone] at hm
        cases hm
      · obtain rfl : n = m := Option.some.inj (hn.symm.trans hm)
        exact drainState_setState_self _ n _
    · have hne : m ≠ n := by
        rintro rfl
        exact (hothers j u hj hold).1 hm
      exact (drainState_setState_of_ne _ state hne).trans (h.draining j u m hold hm)
  · -- the task that has moved is the only one that drains its node
    have hnew : ∀ l w, l ≠ i → p.tasks[l]? = some w → t'.drains = some m → w.drains ≠ some m := by
      intro l w hl hw hm hmw
      rcases hdrains with hnone | ⟨hn, -⟩
      · rw [hnone] at hm
        cases hm
      · obtain rfl : n = m := Option.some.inj (hn.symm.trans hm)
        exact (hothers l w hl hw).1 hmw
    rcases Pool.getElem?_set_cases hu with ⟨rfl, rfl⟩ | ⟨hj, hold⟩ <;>
      rcases Pool.getElem?_set_cases hv with ⟨rfl, rfl⟩ | ⟨hk, hold'⟩
    · rfl
    · exact absurd hmv (hnew k v hk hold' hmu)
    · exact absurd hmu (hnew j u hj hold hmv)
    · exact h.alone j k u v m hold hold' hmu hmv
  · rcases Pool.getElem?_set_cases hu with ⟨rfl, rfl⟩ | ⟨hj, hold⟩
    · rw [htargets] at hm
      cases hm
    · by_cases hmn : m = n
      · subst hmn
        obtain rfl := (hothers j u hj hold).2 hm
        exact drainState_setState_self _ m _
      · exact (drainState_setState_of_ne _ state hmn).trans (h.targets j u hold m hm)
  · rcases Pool.getElem?_set_cases hu with ⟨rfl, heq⟩ | ⟨hj, hold⟩
    · exact absurd heq.symm (hmark job migrated)
    · exact h.emptied j job migrated hold
  · by_cases hmn : m = n
    · subst hmn
      rw [drainState_setState_self] at hm
      exact hdrained hm
    · rw [drainState_setState_of_ne _ state hmn] at hm
      exact h.drained m hm

/-- A section that sets no state, and after which its drain goes on. -/
theorem Orderly.goOn (h : Orderly p) (ht : p.tasks[i]? = some t)
    (hstates : s'.drainStates = p.shared.drainStates) (hdrains : t'.drains = t.drains)
    (htargets : ∀ n ∈ t'.comingTargets, p.shared.drainState n = .active)
    (hworkloads : ∀ n, p.shared.drainState n ≠ .active → p.shared.workloadsOn n = [] →
      s'.workloadsOn n = [])
    (hmark : ∀ job migrated, t' = .markDrained job migrated → s'.workloadsOn job.nodeId = []) :
    Orderly ⟨s', p.tasks.set i t'⟩ := by
  have hstate : ∀ n, s'.drainState n = p.shared.drainState n := by
    intro n
    rw [drainState, hstates, drainState]
  -- every task drains what the task in its place has drained
  have hold : ∀ (j : ℕ) (u : DrainTask), (p.tasks.set i t')[j]? = some u →
      ∃ u₀, p.tasks[j]? = some u₀ ∧ u.drains = u₀.drains := by
    intro j u hu
    rcases Pool.getElem?_set_cases hu with ⟨rfl, rfl⟩ | ⟨-, hu⟩
    · exact ⟨t, ht, hdrains⟩
    · exact ⟨u, hu, rfl⟩
  refine ⟨fun j u m hu hm => ?_, fun j k u v m hu hv hmu hmv => ?_, fun j u hu m hm => ?_,
    fun j job migrated hu => ?_, fun m hm => ?_⟩
  · obtain ⟨u₀, hu₀, heq⟩ := hold j u hu
    exact (hstate m).trans (h.draining j u₀ m hu₀ (heq ▸ hm))
  · obtain ⟨u₀, hu₀, hequ⟩ := hold j u hu
    obtain ⟨v₀, hv₀, heqv⟩ := hold k v hv
    exact h.alone j k u₀ v₀ m hu₀ hv₀ (hequ ▸ hmu) (heqv ▸ hmv)
  · rcases Pool.getElem?_set_cases hu with ⟨rfl, rfl⟩ | ⟨hj, hu⟩
    · exact (hstate m).trans (htargets m hm)
    · exact (hstate m).trans (h.targets j u hu m hm)
  · rcases Pool.getElem?_set_cases hu with ⟨rfl, heq⟩ | ⟨hj, hu⟩
    · exact hmark job migrated heq.symm
    · refine hworkloads job.nodeId ?_ (h.emptied j job migrated hu)
      rw [h.draining j _ job.nodeId hu rfl]
      exact nofun
  · rw [hstate m] at hm
    refine hworkloads m ?_ (h.drained m hm)
    rw [hm]
    exact nofun

/-- A drain in progress is the only one of its node, and nobody's target. -/
theorem Orderly.others (h : Orderly p) (ht : p.tasks[i]? = some t) {n : Uuid}
    (hn : t.drains = some n) {state : NodeDrainState} :
    ∀ j u, j ≠ i → p.tasks[j]? = some u → u.drains ≠ some n ∧
      (n ∈ u.comingTargets → state = .active) := by
  intro j u hj hu
  refine ⟨fun hm => hj (h.alone j i u t n hu ht hm hn), fun hm => ?_⟩
  have hactive := h.targets j u hu n hm
  rw [h.draining i t n ht hn] at hactive
  cases hactive

/-- A call that arrives. -/
theorem Orderly.call (h : Orderly p) (c : DrainCall) : Orderly ⟨p.shared, p.tasks ++ [c.enter]⟩ := by
  have hcases : ∀ (j : ℕ) (u : DrainTask), (p.tasks ++ [c.enter])[j]? = some u →
      p.tasks[j]? = some u ∨ u = c.enter := by
    intro j u hu
    rcases Nat.lt_or_ge j p.tasks.length with hlt | hge
    · rw [List.getElem?_append_left hlt] at hu
      exact Or.inl hu
    · rw [List.getElem?_append_right hge] at hu
      exact Or.inr (List.mem_singleton.mp (List.mem_of_getElem? hu))
  have hdrains : c.enter.drains = none := by cases c <;> rfl
  have htargets : c.enter.comingTargets = [] := by cases c <;> rfl
  refine ⟨fun j u m hu hm => ?_, fun j k u v m hu hv hmu hmv => ?_, fun j u hu m hm => ?_,
    fun j job migrated hu => ?_, h.drained⟩
  · rcases hcases j u hu with hold | rfl
    · exact h.draining j u m hold hm
    · cases hdrains.symm.trans hm
  · rcases hcases j u hu with holdu | rfl
    · rcases hcases k v hv with holdv | rfl
      · exact h.alone j k u v m holdu holdv hmu hmv
      · cases hdrains.symm.trans hmv
    · cases hdrains.symm.trans hmu
  · rcases hcases j u hu with hold | rfl
    · exact h.targets j u hold m hm
    · rw [htargets] at hm
      cases hm
  · rcases hcases j _ hu with hold | heq
    · exact h.emptied j job migrated hold
    · rw [← heq] at hdrains
      cases hdrains

theorem orderly_section (h : Orderly p) (ht : p.tasks[i]? = some t) (hrespects : SectionRespects p t)
    (hstep : p.shared.drainStep t = some (s', t')) : Orderly ⟨s', p.tasks.set i t'⟩ := by
  cases t with
  | cordon n =>
    cases hstep
    rcases cordon_cases p.shared n with hsame | ⟨hactive, hset⟩
    · rw [hsame]
      exact h.goOn ht rfl rfl (List.forall_mem_nil _) (fun _ _ hempty => hempty) nofun
    · rw [hset]
      refine h.setState (Or.inl rfl) (fun j u _ hu => ⟨fun hn => ?_, fun hn => ?_⟩) rfl nofun nofun
      · rw [h.draining j u n hu hn] at hactive
        cases hactive
      · exact absurd hn (hrespects hactive u (List.mem_of_getElem? hu))
  | uncordon n =>
    cases hstep
    rcases uncordon_cases p.shared n with hsame | ⟨hnot, hset⟩
    · rw [hsame]
      exact h.goOn ht rfl rfl (List.forall_mem_nil _) (fun _ _ hempty => hempty) nofun
    · rw [hset]
      exact h.setState (Or.inl rfl)
        (fun j u _ hu => ⟨fun hn => hnot (h.draining j u n hu hn), fun _ => rfl⟩) rfl nofun nofun
  | markDraining job =>
    cases hstep
    refine h.setState (Or.inr ⟨rfl, rfl⟩) (fun j u _ hu => ?_) rfl nofun nofun
    obtain ⟨htarget, hdrains⟩ := hrespects u (List.mem_of_getElem? hu)
    exact ⟨hdrains, fun hn => absurd hn htarget⟩
  | readWorkloads job =>
    cases hstep
    exact h.goOn ht rfl rfl (List.forall_mem_nil _) (fun _ _ hempty => hempty) nofun
  | readTargets job workloads =>
    rw [drainStep] at hstep
    split at hstep
    · cases hstep
      exact h.goOn ht rfl rfl (List.forall_mem_nil _) (fun _ _ hempty => hempty) nofun
    · next hsome =>
      cases hstep
      refine h.goOn ht rfl rfl (fun n hn => ?_) (fun _ _ hempty => hempty) nofun
      obtain ⟨k, hk, rfl⟩ := List.mem_map.mp hn
      have hlt := List.mem_range.mp hk
      rw [Nat.zero_add]
      exact hrespects (fun hempty => hsome ⟨hempty, Nat.zero_lt_of_lt hlt⟩) k hlt
  | giveUp job =>
    cases hstep
    exact h.setState (Or.inl rfl) (h.others ht rfl) rfl nofun nofun
  | migrate job targetNodes workloadCount k rest =>
    cases rest with
    | nil =>
      cases hstep
      refine h.goOn ht rfl rfl (List.forall_mem_nil _) (fun n _ hempty => ?_) ?_
      · by_cases hn : n = job.nodeId
        · subst hn
          exact workloadsOn_removeWorkloads_self _ _
        · exact (workloadsOn_removeWorkloads_of_ne _ hn).trans hempty
      · rintro job' migrated heq
        cases heq
        exact workloadsOn_removeWorkloads_self _ _
    | cons workload rest =>
      rw [drainStep] at hstep
      split at hstep
      · cases hstep
        exact h.setState (Or.inl rfl) (h.others ht rfl) rfl nofun nofun
      · cases hstep
        exact h.goOn ht rfl rfl (fun n hn => h.targets i _ ht n hn) (fun _ _ hempty => hempty) nofun
  | register job targetNodes workloadCount k workload rest =>
    cases hstep
    have htargets := h.targets i _ ht
    have hround : ∀ l < rest.length + 1,
        p.shared.drainState (targetAt targetNodes (k + l)) = .active :=
      fun l hl => htargets _ (List.mem_map.mpr ⟨l, List.mem_range.mpr hl, rfl⟩)
    refine h.goOn ht rfl rfl (fun n hn => ?_) (fun n hactive hempty => ?_) nofun
    · obtain ⟨l, hl, rfl⟩ := List.mem_map.mp hn
      rw [Nat.add_assoc, Nat.add_comm 1 l]
      exact hround (l + 1) (Nat.succ_lt_succ (List.mem_range.mp hl))
    · have hne : n ≠ targetAt targetNodes k := by
        rintro rfl
        exact hactive (hround 0 (Nat.succ_pos _))
      exact (workloadsOn_registerWorkload_of_ne _ workload hne).trans hempty
  | markDrained job migrated =>
    cases hstep
    exact h.setState (Or.inl rfl) (h.others ht rfl) rfl nofun
      fun _ => h.emptied i job migrated ht
  | done answer => cases hstep

theorem orderly_drainNext {p' : Pool DrainCoordinator DrainTask} {a : Pool.Act DrainCall}
    (h : Orderly p) (hrespects : Respects p a) (hnext : drainNext p a = some p') : Orderly p' := by
  obtain ⟨c, rfl, rfl⟩ | ⟨i, t, s', t', rfl, ht, hstep, rfl⟩ := Pool.next_cases hnext
  · exact h.call c
  · exact orderly_section h ht (hrespects i t rfl ht) hstep

/-- **Drains that respect each other.** In every schedule whose sections meet the condition,
workloads go to active nodes, a node is draining as long as its drain is in progress, and a node that
is drained holds nothing. -/
theorem drains_respected (s : DrainCoordinator)
    (hstart : ∀ n, s.drainState n = .drained → s.workloadsOn n = [])
    (as : List (Pool.Act DrainCall)) (hrespects : StepsMeet drainNext Respects ⟨s, []⟩ as) :
    StepsMeet drainNext MigratesToActive ⟨s, []⟩ as ∧
    ∀ p, runSteps drainNext ⟨s, []⟩ as = some p →
      (∀ t ∈ p.tasks, ∀ n, t.drains = some n → p.shared.drainState n = .draining) ∧
      ∀ n, p.shared.drainState n = .drained → p.shared.workloadsOn n = [] := by
  have hfirst : Orderly ⟨s, []⟩ := ⟨nofun, nofun, nofun, nofun, hstart⟩
  have hnext : ∀ p a p', Orderly p → Respects p a → drainNext p a = some p' → Orderly p' :=
    fun _ _ _ => orderly_drainNext
  refine ⟨StepsMeet.of_invariant drainNext hnext (fun p a hp _ => ?_) hfirst hrespects,
    fun p hrun => ?_⟩
  · intro i job targetNodes workloadCount k workload rest _ ht
    exact hp.targets i _ ht _ (List.mem_map.mpr ⟨0, List.mem_range.mpr (Nat.succ_pos _), rfl⟩)
  · have hp := runSteps_invariant drainNext hnext as _ p hfirst hrespects hrun
    refine ⟨fun t ht n hn => ?_, hp.drained⟩
    obtain ⟨i, hi⟩ := List.mem_iff_getElem?.mp ht
    exact hp.draining i t n hi hn

/-! ## Two nodes -/

/-- A container on the first node; the second node is available. -/
def twoNodes : DrainCoordinator :=
  ⟨[], [(1, [⟨⟨"https://picloud.local/products/photo-app/containers/api"⟩, "container"⟩])], [2], []⟩

/-- The first node is drained. -/
def drainsFirst : List (Pool.Act DrainCall) := .call (.drain 1 none 5) :: List.replicate 7 (.step 0)

theorem drains_respected_two_nodes :
    StepsMeet drainNext Respects ⟨twoNodes, []⟩ drainsFirst ∧
    StepsMeet drainNext MigratesToActive ⟨twoNodes, []⟩ drainsFirst := by
  have hstart : ∀ n, twoNodes.drainState n = .drained → twoNodes.workloadsOn n = [] := nofun
  have hrespects : StepsMeet drainNext Respects ⟨twoNodes, []⟩ drainsFirst := by decide +kernel
  exact ⟨hrespects, (drains_respected twoNodes hstart drainsFirst hrespects).1⟩

/-- The second node is cordoned before the first one is drained. -/
def cordonedTarget : List (Pool.Act DrainCall) :=
  [.call (.cordon 2), .step 0, .call (.drain 1 none 5), .step 1, .step 1, .step 1, .step 1]

/-- Two operators drain the first node, and one of the drains runs to its end. -/
def drainedTwice : List (Pool.Act DrainCall) :=
  [.call (.drain 1 none 5), .call (.drain 1 none 5), .step 0, .step 1] ++ List.replicate 6 (.step 0)

/-- The second node is drained before the first one. -/
def drainedTarget : List (Pool.Act DrainCall) :=
  .call (.drain 2 none 5) :: List.replicate 5 (.step 0) ++
    (.call (.drain 1 none 5) :: List.replicate 5 (.step 1))

/-- A workload goes to a node that is cordoned, a node is drained while a drain of it is in progress,
and a drained node gets a workload. -/
theorem drains_not_respected :
    ¬ StepsMeet drainNext MigratesToActive ⟨twoNodes, []⟩ (cordonedTarget ++ [.step 1]) ∧
    (∃ p, runSteps drainNext ⟨twoNodes, []⟩ drainedTwice = some p ∧
      ∃ t ∈ p.tasks, t.drains = some 1 ∧ p.shared.drainState 1 ≠ .draining) ∧
    ∃ p, runSteps drainNext ⟨twoNodes, []⟩ drainedTarget = some p ∧
      p.shared.drainState 2 = .drained ∧ p.shared.workloadsOn 2 ≠ [] := by
  refine ⟨fun hmeet => ?_, ?_, ?_⟩
  · rw [stepsMeet_append] at hmeet
    have hstate : (runSteps drainNext ⟨twoNodes, []⟩ cordonedTarget).map (fun p =>
        decide (p.shared.drainState 2 = .cordoned)) = some true := by decide +kernel
    have htask : ∃ p workload, runSteps drainNext ⟨twoNodes, []⟩ cordonedTarget = some p ∧
        p.tasks[1]? = some (.register ⟨1, none, 5⟩ [2] 1 0 workload []) := ⟨_, _, rfl, rfl⟩
    obtain ⟨p, workload, hp, ht⟩ := htask
    rw [hp, Option.map_some, Option.some.injEq] at hstate
    have hcordoned := of_decide_eq_true hstate
    have hactive := (stepsMeet_singleton drainNext).mp (hmeet.2 p hp) 1 _ _ _ _ _ _ rfl ht
    cases hactive.symm.trans hcordoned
  · have hstate : (runSteps drainNext ⟨twoNodes, []⟩ drainedTwice).map (fun p =>
        decide (∃ t ∈ p.tasks, t.drains = some 1 ∧ p.shared.drainState 1 ≠ .draining)) =
        some true := by decide +kernel
    obtain ⟨p, hp, hfacts⟩ := Option.map_eq_some_iff.mp hstate
    exact ⟨p, hp, of_decide_eq_true hfacts⟩
  · have hstate : (runSteps drainNext ⟨twoNodes, []⟩ drainedTarget).map (fun p =>
        decide (p.shared.drainState 2 = .drained ∧ p.shared.workloadsOn 2 ≠ [])) = some true := by
      decide +kernel
    obtain ⟨p, hp, hfacts⟩ := Option.map_eq_some_iff.mp hstate
    exact ⟨p, hp, of_decide_eq_true hfacts⟩

end DrainCoordinator

end Picloud
