import Picloud.Lib.Pool
import Picloud.Storage.Isolation
import Mathlib.Algebra.Order.BigOperators.Group.List

/-!
# Concurrent allocations

`allocate_volume` looks at the capacity under one lock and inserts its record under another, with the
work on the files in between; `delete_volume` removes its record before it works on the files. Each
is a task of its own, so that any number of them can be interleaved, and a call that is executed
alone is the sequential function (`finish_storageStep`).
-/

namespace Picloud

open Lib

/-! ## Calls and tasks -/

deriving instance DecidableEq for IoFailure

/-- The calls, with the answer of the cluster membership and the error that the work on the files may
end in. -/
inductive StorageCall where
  | allocateVolume (volumeIri : ResourceIri) (sizeGb : ℕ) (durability : DurabilityTier)
      (volumeType : VolumeType) (membership : Option (Option (List Uuid))) (io : Option IoFailure)
  | deleteVolume (volumeIri : ResourceIri) (io : Option IoFailure)
deriving DecidableEq

/-- How a call ends. -/
inductive StorageOutcome where
  | allocated (handle : VolumeHandle)
  | deleted
  | failed (error : StorageError)
deriving DecidableEq

/-- The sections of a call that are still to come. -/
inductive StorageTask where
  | checkCapacity (volumeIri : ResourceIri) (sizeGb : ℕ) (durability : DurabilityTier)
      (volumeType : VolumeType) (membership : Option (Option (List Uuid))) (io : Option IoFailure)
  | makeDevice (volumeIri : ResourceIri) (sizeGb : ℕ) (durability : DurabilityTier)
      (volumeType : VolumeType) (membership : Option (Option (List Uuid))) (io : Option IoFailure)
  | insertRecord (volumeIri : ResourceIri) (sizeGb : ℕ) (durability : DurabilityTier)
      (volumeType : VolumeType) (membership : Option (Option (List Uuid)))
  | removeRecord (volumeIri : ResourceIri) (io : Option IoFailure)
  | removeDevice (record : VolumeRecord) (io : Option IoFailure)
  | done (outcome : StorageOutcome)
deriving DecidableEq

/-- The task of a call. -/
def StorageCall.enter : StorageCall → StorageTask
  | .allocateVolume iri sizeGb durability volumeType membership io =>
    .checkCapacity iri sizeGb durability volumeType membership io
  | .deleteVolume iri io => .removeRecord iri io

namespace StorageState

variable (env : StorageEnv) (s : StorageState)

/-- One section of a task. -/
def storageStep : StorageTask → Option (StorageState × StorageTask)
  | .checkCapacity iri sizeGb durability volumeType membership io =>
    let available := s.availableCapacityGb env
    if sizeGb > available then
      some (s, .done (.failed (.insufficientCapacity sizeGb available)))
    else some (s, .makeDevice iri sizeGb durability volumeType membership io)
  | .makeDevice iri sizeGb durability volumeType membership io =>
    match io with
    | some failure => some ({ s with
        files := s.files.interrupted failure.leftover (env.devicePath iri volumeType) },
        .done (.failed (.internal failure.message)))
    | none => (makeDevice env s.files iri sizeGb volumeType).map fun files =>
        ({ s with files := files }, .insertRecord iri sizeGb durability volumeType membership)
  | .insertRecord iri sizeGb durability volumeType membership =>
    let path := env.devicePath iri volumeType
    some ({ s with volumes := Assoc.set s.volumes iri.value ⟨sizeGb, path⟩ },
      .done (.allocated ⟨iri, path, replicatedTo env membership durability⟩))
  | .removeRecord iri io =>
    match Assoc.get s.volumes iri.value with
    | none => some (s, .done (.failed (.resourceNotFound iri.value)))
    | some record =>
      some ({ s with volumes := Assoc.erase s.volumes iri.value }, .removeDevice record io)
  | .removeDevice record io =>
    if s.files.isPresent record.devicePath then
      match io with
      | some failure => some ({ s with
          files := s.files.interrupted failure.leftover record.devicePath },
          .done (.failed (.internal failure.message)))
      | none => some ({ s with files := s.files.removeTree record.devicePath }, .done .deleted)
    else some (s, .done .deleted)
  | .done _ => none

/-- Concurrent calls. -/
def storageNext : Pool StorageState StorageTask → Pool.Act StorageCall →
    Option (Pool StorageState StorageTask) :=
  Pool.next StorageCall.enter (storageStep env)

/-! ## A call alone -/

/-- The state after a call of the sequential functions. -/
def callAlone : StorageCall → Option StorageState
  | .allocateVolume iri sizeGb durability volumeType membership io =>
    (s.allocateVolume env iri sizeGb durability volumeType membership io).map Prod.snd
  | .deleteVolume iri io => some (s.deleteVolume iri io).2

/-- The state after the rest of a call, undisturbed. -/
def finish : StorageTask → Option StorageState
  | .checkCapacity iri sizeGb durability volumeType membership io =>
    (s.allocateVolume env iri sizeGb durability volumeType membership io).map Prod.snd
  | .makeDevice iri sizeGb _ volumeType _ io =>
    match io with
    | some failure => some { s with
        files := s.files.interrupted failure.leftover (env.devicePath iri volumeType) }
    | none => (makeDevice env s.files iri sizeGb volumeType).map fun files =>
        ⟨files, Assoc.set s.volumes iri.value ⟨sizeGb, env.devicePath iri volumeType⟩⟩
  | .insertRecord iri sizeGb _ volumeType _ => some { s with
      volumes := Assoc.set s.volumes iri.value ⟨sizeGb, env.devicePath iri volumeType⟩ }
  | .removeRecord iri io => some (s.deleteVolume iri io).2
  | .removeDevice record io =>
    if s.files.isPresent record.devicePath then
      match io with
      | some failure => some { s with
          files := s.files.interrupted failure.leftover record.devicePath }
      | none => some { s with files := s.files.removeTree record.devicePath }
    else some s
  | .done _ => some s

variable {env s}

variable {s' : StorageState} {t t' : StorageTask} {p : Pool StorageState StorageTask}

/-- A section leads its task to where finishing it alone would have led. -/
theorem finish_storageStep (h : s.storageStep env t = some (s', t')) :
    s'.finish env t' = s.finish env t := by
  cases t with
  | checkCapacity iri sizeGb durability volumeType membership io =>
    rw [storageStep] at h
    rw [finish, allocateVolume]
    dsimp only at h ⊢
    split at h
    · next hlarge =>
      cases h
      rw [if_pos hlarge]
      rfl
    · next hfits =>
      cases h
      rw [if_neg hfits]
      cases io with
      | some failure => rfl
      | none => rw [finish, Option.map_map]; rfl
  | makeDevice iri sizeGb durability volumeType membership io =>
    cases io with
    | some failure => cases h; rfl
    | none =>
      rw [storageStep] at h
      obtain ⟨files, hmake, heq⟩ := Option.map_eq_some_iff.mp h
      cases heq
      rw [finish, finish, hmake]
      rfl
  | insertRecord iri sizeGb durability volumeType membership => cases h; rfl
  | removeRecord iri io =>
    rw [storageStep] at h
    split at h
    · next hnone => cases h; rw [finish, deleteVolume, hnone]; rfl
    · next record hsome =>
      cases h
      rw [finish, deleteVolume, hsome]
      by_cases hpresent : s.files.isPresent record.devicePath
      · cases io <;> simp [finish, hpresent]
      · simp [finish, hpresent]
  | removeDevice record io =>
    by_cases hpresent : s.files.isPresent record.devicePath
    · cases io with
      | some failure =>
        simp only [storageStep, hpresent, if_true] at h
        cases h
        simp [finish, hpresent]
      | none =>
        simp only [storageStep, hpresent, if_true] at h
        cases h
        simp [finish, hpresent]
    · simp only [storageStep, hpresent] at h
      cases h
      simp [finish, hpresent]
  | done outcome => cases h

/-- A call that is executed alone to its end leaves the state that the sequential call leaves. -/
theorem shared_of_storageAlone {c : StorageCall} {k : ℕ}
    (hrun : runSteps (storageNext env) ⟨s, [c.enter]⟩ (List.replicate k (.step 0)) = some p)
    (hdone : ∀ t ∈ p.tasks, ∃ outcome, t = .done outcome) :
    some p.shared = s.callAlone env c := by
  obtain ⟨t, htasks, hfinish⟩ :=
    Pool.finish_of_alone (fun _ _ _ _ hstep => finish_storageStep hstep) hrun
  obtain ⟨outcome, rfl⟩ := hdone t (by rw [htasks]; exact List.mem_singleton_self t)
  calc some p.shared = p.shared.finish env (.done outcome) := rfl
    _ = s.finish env c.enter := hfinish
    _ = s.callAlone env c := by cases c <;> rfl

/-! ## What is recorded -/

/-- The sizes of the recorded volumes together. -/
def recordedGb (s : StorageState) : ℕ := (s.volumes.map fun v => v.2.sizeGb).sum

/-- The sizes of the volumes other than one. -/
def othersGb (s : StorageState) (volumeIri : ResourceIri) : ℕ :=
  ((Assoc.erase s.volumes volumeIri.value).map fun v => v.2.sizeGb).sum

/-- The size that a volume is recorded with, zero when it is not. -/
def ownGb (s : StorageState) (volumeIri : ResourceIri) : ℕ :=
  ((Assoc.get s.volumes volumeIri.value).map VolumeRecord.sizeGb).getD 0

/-- A section that meets neither slip: the check does not count the volume's own record against it,
the room that was checked is still there when the record is inserted, and the files of a volume
whose record is gone can be removed. -/
def SectionAccounts (env : StorageEnv) (s : StorageState) : StorageTask → Prop
  | .checkCapacity iri sizeGb _ _ _ _ => sizeGb ≤ s.availableCapacityGb env ∨
      s.availableCapacityGb env + s.ownGb iri < sizeGb
  | .insertRecord iri sizeGb _ _ _ => sizeGb ≤ s.availableCapacityGb env + s.ownGb iri
  | .removeDevice record io => s.files.isPresent record.devicePath = true → io.isNone = true
  | _ => True

/-- The condition on an action. -/
def Accounts (env : StorageEnv) (p : Pool StorageState StorageTask)
    (a : Pool.Act StorageCall) : Prop :=
  ∀ i t, a = .step i → p.tasks[i]? = some t → p.shared.SectionAccounts env t

instance SectionAccounts.decidable (env : StorageEnv) (s : StorageState) :
    (t : StorageTask) → Decidable (s.SectionAccounts env t)
  | .checkCapacity _ _ _ _ _ _ => inferInstanceAs (Decidable (_ ∨ _))
  | .insertRecord _ _ _ _ _ => inferInstanceAs (Decidable (_ ≤ _))
  | .removeDevice _ _ => inferInstanceAs (Decidable (_ → _))
  | .makeDevice .. | .removeRecord .. | .done _ => isTrue trivial

instance Accounts.decidable (env : StorageEnv) (p : Pool StorageState StorageTask) :
    (a : Pool.Act StorageCall) → Decidable (Accounts env p a)
  | .call _ => isTrue fun _ _ ha _ => nomatch ha
  | .step i => decidable_of_iff (∀ t ∈ p.tasks[i]?, p.shared.SectionAccounts env t)
      ⟨fun h _ t ha ht => h t (Pool.Act.step.inj ha ▸ ht), fun h t ht => h i t rfl ht⟩

/-- A refusal for want of capacity comes from a request that does not fit beside the other
volumes. -/
def RefusesRightly (env : StorageEnv) (p : Pool StorageState StorageTask)
    (a : Pool.Act StorageCall) : Prop :=
  ∀ i p' requestedGb availableGb, a = .step i → storageNext env p a = some p' →
    p'.tasks[i]? = some (.done (.failed (.insufficientCapacity requestedGb availableGb))) →
      ∃ iri sizeGb durability volumeType membership io,
        p.tasks[i]? = some (.checkCapacity iri sizeGb durability volumeType membership io) ∧
          env.totalCapacityGb < p.shared.othersGb iri + sizeGb

/-! ## The records along a section -/

/-- Everything a section can do to the records. -/
theorem volumes_storageStep (h : s.storageStep env t = some (s', t')) : s'.volumes = s.volumes ∨
    (∃ iri sizeGb durability volumeType membership,
      t = .insertRecord iri sizeGb durability volumeType membership ∧
      s'.volumes = Assoc.set s.volumes iri.value ⟨sizeGb, env.devicePath iri volumeType⟩ ∧
      ∃ handle, t' = .done (.allocated handle)) ∨
    (∃ iri io record, t = .removeRecord iri io ∧
      s'.volumes = Assoc.erase s.volumes iri.value ∧ t' = .removeDevice record io) := by
  cases t with
  | checkCapacity iri sizeGb durability volumeType membership io =>
    rw [storageStep] at h
    split at h <;> (cases h; exact Or.inl rfl)
  | makeDevice iri sizeGb durability volumeType membership io =>
    cases io with
    | some failure => cases h; exact Or.inl rfl
    | none =>
      rw [storageStep] at h
      obtain ⟨files, -, heq⟩ := Option.map_eq_some_iff.mp h
      cases heq
      exact Or.inl rfl
  | insertRecord iri sizeGb durability volumeType membership =>
    cases h
    exact Or.inr (Or.inl ⟨iri, sizeGb, durability, volumeType, membership, rfl, rfl, _, rfl⟩)
  | removeRecord iri io =>
    rw [storageStep] at h
    split at h
    · cases h
      exact Or.inl rfl
    · next record _ =>
      cases h
      exact Or.inr (Or.inr ⟨iri, io, record, rfl, rfl, rfl⟩)
  | removeDevice record io =>
    by_cases hpresent : s.files.isPresent record.devicePath
    · cases io <;> (simp only [storageStep, hpresent, if_true] at h; cases h; exact Or.inl rfl)
    · simp only [storageStep, hpresent] at h
      cases h
      exact Or.inl rfl
  | done outcome => cases h

/-- Every volume is recorded once, and together they fit. -/
structure Within (env : StorageEnv) (s : StorageState) : Prop where
  nodup : (Assoc.keys s.volumes).Nodup
  bound : s.recordedGb ≤ env.totalCapacityGb

theorem othersGb_add_ownGb (h : s.Within env) (iri : ResourceIri) :
    s.othersGb iri + s.ownGb iri = s.recordedGb :=
  Assoc.sum_erase_add h.nodup iri.value VolumeRecord.sizeGb

/-- As long as the volumes fit, the sum in a `u64` is the sum. -/
theorem availableCapacityGb_add (hC : env.totalCapacityGb < 2 ^ 64) (h : s.Within env) :
    s.availableCapacityGb env + s.recordedGb = env.totalCapacityGb := by
  have hbound := h.bound
  have hallocated : s.allocatedGb = s.recordedGb := Nat.mod_eq_of_lt (hbound.trans_lt hC)
  rw [availableCapacityGb, hallocated]
  omega

theorem within_storageStep (hC : env.totalCapacityGb < 2 ^ 64) (hs : s.Within env)
    (haccounts : s.SectionAccounts env t) (h : s.storageStep env t = some (s', t')) : s'.Within env := by
  rcases volumes_storageStep h with hsame | ⟨iri, sizeGb, durability, volumeType, membership, rfl,
    hset, -⟩ | ⟨iri, io, record, rfl, herase, -⟩
  · have hrecorded : s'.recordedGb = s.recordedGb := by rw [recordedGb, hsame, recordedGb]
    exact ⟨hsame ▸ hs.nodup, hrecorded ▸ hs.bound⟩
  · have hroom : sizeGb ≤ s.availableCapacityGb env + s.ownGb iri := haccounts
    have hsplit := othersGb_add_ownGb hs iri
    have htotal := availableCapacityGb_add hC hs
    have hrecorded : s'.recordedGb = sizeGb + s.othersGb iri := by
      rw [recordedGb, hset, Assoc.set, List.map_cons, List.sum_cons, othersGb]
    refine ⟨hset ▸ Assoc.nodup_keys_set hs.nodup _ _, ?_⟩
    omega
  · have hrecorded : s'.recordedGb = s.othersGb iri := by rw [recordedGb, herase, othersGb]
    have hsplit := othersGb_add_ownGb hs iri
    have hbound := hs.bound
    refine ⟨herase ▸ Assoc.nodup_keys_erase hs.nodup _, ?_⟩
    omega

theorem within_storageNext (hC : env.totalCapacityGb < 2 ^ 64) {p' : Pool StorageState StorageTask}
    {a : Pool.Act StorageCall} (hp : p.shared.Within env) (haccounts : Accounts env p a)
    (h : storageNext env p a = some p') : p'.shared.Within env := by
  obtain ⟨c, rfl, rfl⟩ | ⟨i, t, s', t', rfl, ht, hstep, rfl⟩ := Pool.next_cases h
  · exact hp
  · exact within_storageStep hC hp (haccounts i t rfl ht) hstep

/-! ## Refusals -/

/-- Only the check refuses for want of capacity, and then the request is larger than what it
finds. -/
theorem storageStep_refused {requestedGb availableGb : ℕ} (h : s.storageStep env t =
      some (s', .done (.failed (.insufficientCapacity requestedGb availableGb)))) :
    ∃ iri sizeGb durability volumeType membership io,
      t = .checkCapacity iri sizeGb durability volumeType membership io ∧
        s.availableCapacityGb env < sizeGb := by
  cases t with
  | checkCapacity iri sizeGb durability volumeType membership io =>
    refine ⟨iri, sizeGb, durability, volumeType, membership, io, rfl, ?_⟩
    by_contra hfits
    rw [storageStep] at h
    rw [if_neg hfits] at h
    cases h
  | makeDevice iri sizeGb durability volumeType membership io =>
    cases io with
    | some failure => cases h
    | none =>
      rw [storageStep] at h
      obtain ⟨files, -, heq⟩ := Option.map_eq_some_iff.mp h
      cases heq
  | insertRecord iri sizeGb durability volumeType membership => cases h
  | removeRecord iri io =>
    rw [storageStep] at h
    split at h <;> cases h
  | removeDevice record io =>
    by_cases hpresent : s.files.isPresent record.devicePath
    · cases io <;> (simp only [storageStep, hpresent, if_true] at h; cases h)
    · simp only [storageStep, hpresent] at h
      cases h
  | done outcome => cases h

theorem refusesRightly_of_accounts (hC : env.totalCapacityGb < 2 ^ 64) {a : Pool.Act StorageCall}
    (hp : p.shared.Within env) (haccounts : Accounts env p a) : RefusesRightly env p a := by
  rintro i p' requestedGb availableGb rfl h hrefused
  obtain ⟨c, hc, -⟩ | ⟨j, t, s', t', hj, ht, hstep, rfl⟩ := Pool.next_cases h
  · cases hc
  obtain rfl : i = j := Pool.Act.step.inj hj
  obtain rfl : t' = _ := Option.some.inj
    ((List.getElem?_set_self (List.getElem?_eq_some_iff.mp ht).1).symm.trans hrefused)
  obtain ⟨iri, sizeGb, durability, volumeType, membership, io, rfl, hlarge⟩ :=
    storageStep_refused hstep
  refine ⟨iri, sizeGb, durability, volumeType, membership, io, ht, ?_⟩
  have hsection : sizeGb ≤ p.shared.availableCapacityGb env ∨
      p.shared.availableCapacityGb env + p.shared.ownGb iri < sizeGb := haccounts i _ rfl ht
  have hsplit := othersGb_add_ownGb hp iri
  have htotal := availableCapacityGb_add hC hp
  omega

/-! ## Errors -/

/-- The calls that have changed the records. -/
def Committed : StorageTask → Prop
  | .removeDevice .. | .done (.allocated _) | .done .deleted => True
  | _ => False

theorem committed_of_changes (h : s.storageStep env t = some (s', t'))
    (hchanged : s'.volumes ≠ s.volumes) :
    Committed t' := by
  rcases volumes_storageStep h with hsame | ⟨_, _, _, _, _, -, -, handle, rfl⟩ |
    ⟨_, _, record, -, -, rfl⟩
  · exact absurd hsame hchanged
  · trivial
  · trivial

theorem committed_storageStep (haccounts : s.SectionAccounts env t) (ht : Committed t)
    (h : s.storageStep env t = some (s', t')) : Committed t' := by
  cases t with
  | removeDevice record io =>
    by_cases hpresent : s.files.isPresent record.devicePath
    · obtain rfl : io = none := Option.isNone_iff_eq_none.mp (haccounts hpresent)
      simp only [storageStep, hpresent, if_true] at h
      cases h
      trivial
    · simp only [storageStep, hpresent] at h
      cases h
      trivial
  | done outcome => cases h
  | checkCapacity iri sizeGb durability volumeType membership io => cases ht
  | makeDevice iri sizeGb durability volumeType membership io => cases ht
  | insertRecord iri sizeGb durability volumeType membership => cases ht
  | removeRecord iri io => cases ht

theorem not_committed_failed (error : StorageError) : ¬ Committed (.done (.failed error)) :=
  fun h => h

/-- The backend of a node that has just started. -/
def started (files : Files) : Pool StorageState StorageTask := ⟨⟨files, []⟩, []⟩

/-- **Capacity under concurrent calls.** In every schedule whose sections meet the condition, the
recorded volumes fit, refusals for want of capacity are right, and a call that ends in an error has
changed no record. -/
theorem never_overcommitted (hC : env.totalCapacityGb < 2 ^ 64) (files : Files)
    (as : List (Pool.Act StorageCall))
    (haccounts : StepsMeet (storageNext env) (Accounts env) (started files) as) :
    (∀ q, runSteps (storageNext env) (started files) as = some q →
      q.shared.recordedGb ≤ env.totalCapacityGb) ∧
    StepsMeet (storageNext env) (RefusesRightly env) (started files) as ∧
    ∀ as₁ i as₂ p p' q error, as = as₁ ++ .step i :: as₂ →
      runSteps (storageNext env) (started files) as₁ = some p →
      storageNext env p (.step i) = some p' → runSteps (storageNext env) p' as₂ = some q →
      q.tasks[i]? = some (.done (.failed error)) → p'.shared.volumes = p.shared.volumes := by
  have hstart : (started files).shared.Within env := ⟨List.nodup_nil, Nat.zero_le _⟩
  have hnext : ∀ p a p', p.shared.Within env → Accounts env p a →
      storageNext env p a = some p' → p'.shared.Within env :=
    fun _ _ _ hp ha h => within_storageNext hC hp ha h
  refine ⟨fun q hrun => ?_, ?_, ?_⟩
  · exact (runSteps_invariant (storageNext env) hnext as _ q hstart haccounts hrun).bound
  · exact StepsMeet.of_invariant (storageNext env) hnext
      (fun p a => refusesRightly_of_accounts hC) hstart haccounts
  · intro as₁ i as₂ p p' q error hsplit hbefore hstep hafter herror
    by_contra hchanged
    rw [hsplit] at haccounts
    have hrest := ((stepsMeet_append (storageNext env)).mp haccounts).2 p hbefore
    rw [StepsMeet, hstep] at hrest
    obtain ⟨c, hc, -⟩ | ⟨j, t, s', t', hj, ht, hts, rfl⟩ := Pool.next_cases hstep
    · cases hc
    obtain rfl : i = j := Pool.Act.step.inj hj
    -- the task has committed, and from then on it does not fail
    obtain ⟨u, hu, hcommitted⟩ := Pool.task_invariant (K := Committed)
      (fun p t s' t' hcond ht hK hstep => committed_storageStep (hcond i t rfl ht) hK hstep)
      as₂ _ q ⟨t', List.getElem?_set_self (List.getElem?_eq_some_iff.mp ht).1,
        committed_of_changes hts hchanged⟩ hrest.2 hafter
    rw [Option.some.inj (hu.symm.trans herror)] at hcommitted
    exact not_committed_failed error hcommitted

/-! ## Two volumes on a hundred gigabytes -/

/-- A mounted volume is requested. -/
def requestMounted (product name : String) (sizeGb : ℕ) : StorageCall :=
  .allocateVolume (sampleVolume product name) sizeGb .localOnly .mounted none none

/-- Two requests, one after the other, and a third that does not fit. -/
def oneByOne : List (Pool.Act StorageCall) :=
  [.call (requestMounted "photo-app" "photos" 60), .step 0, .step 0, .step 0,
    .call (requestMounted "user-service" "users" 40), .step 1, .step 1, .step 1,
    .call (requestMounted "mail" "inbox" 1), .step 2]

theorem never_overcommitted_one_by_one :
    StepsMeet (storageNext sampleStorage) (Accounts sampleStorage)
      (started [(["data"], .dir)]) oneByOne ∧
    StepsMeet (storageNext sampleStorage) (RefusesRightly sampleStorage)
      (started [(["data"], .dir)]) oneByOne := by
  have haccounts : StepsMeet (storageNext sampleStorage) (Accounts sampleStorage)
      (started [(["data"], .dir)]) oneByOne := by decide +kernel
  exact ⟨haccounts, (never_overcommitted (by decide) _ _ haccounts).2.1⟩

/-- Both requests are checked before a record is inserted. -/
def overlapping : List (Pool.Act StorageCall) :=
  [.call (requestMounted "photo-app" "photos" 60), .call (requestMounted "user-service" "users" 60),
    .step 0, .step 1, .step 0, .step 1, .step 0, .step 1]

/-- A volume is requested, and after it has been allocated something is done to it. -/
def allocatedThen (c : StorageCall) : List (Pool.Act StorageCall) :=
  [.call (requestMounted "photo-app" "photos" 60), .step 0, .step 0, .step 0, .call c]

/-- The deletion of a directory that the operating system does not permit. -/
def deniedRemoval : StorageCall :=
  .deleteVolume (sampleVolume "photo-app" "photos") (some
    ⟨"Failed to remove volume directory /data/photos: Permission denied (os error 13)",
      [(["data", "photos"], .dir)]⟩)

/-- Two overlapping requests are over-committed, a volume that is requested again is refused although
it fits, and a deletion that fails has removed its record. -/
theorem capacity_overcommitted :
    (∃ q, runSteps (storageNext sampleStorage) (started [(["data"], .dir)]) overlapping = some q ∧
      sampleStorage.totalCapacityGb < q.shared.recordedGb) ∧
    ¬ StepsMeet (storageNext sampleStorage) (RefusesRightly sampleStorage)
      (started [(["data"], .dir)])
      (allocatedThen (requestMounted "photo-app" "photos" 60) ++ [.step 1]) ∧
    ∃ p p' q error,
      runSteps (storageNext sampleStorage) (started [(["data"], .dir)])
        (allocatedThen deniedRemoval) = some p ∧
      storageNext sampleStorage p (.step 1) = some p' ∧
      runSteps (storageNext sampleStorage) p' [.step 1] = some q ∧
      q.tasks[1]? = some (.done (.failed error)) ∧ p'.shared.volumes ≠ p.shared.volumes := by
  refine ⟨?_, fun hmeet => ?_, ?_⟩
  · have hrecorded : (runSteps (storageNext sampleStorage) (started [(["data"], .dir)])
        overlapping).map (fun q => q.shared.recordedGb) = some 120 := by decide +kernel
    obtain ⟨q, hq, hsum⟩ := Option.map_eq_some_iff.mp hrecorded
    exact ⟨q, hq, hsum ▸ by decide⟩
  · have hrefused : (runSteps (storageNext sampleStorage) (started [(["data"], .dir)])
        (allocatedThen (requestMounted "photo-app" "photos" 60))).map (fun p =>
          ((storageNext sampleStorage p (.step 1)).bind (·.tasks[1]?), p.tasks[1]?,
            p.shared.othersGb (sampleVolume "photo-app" "photos"))) =
        some (some (.done (.failed (.insufficientCapacity 60 40))),
          some (requestMounted "photo-app" "photos" 60).enter, 0) := by decide +kernel
    obtain ⟨p, hp, hfacts⟩ := Option.map_eq_some_iff.mp hrefused
    simp only [Prod.mk.injEq] at hfacts
    obtain ⟨hnext, htask, hothers⟩ := hfacts
    obtain ⟨p', hp', hdone⟩ := Option.bind_eq_some_iff.mp hnext
    have hlast := (stepsMeet_singleton _).mp (((stepsMeet_append _).mp hmeet).2 p hp)
    obtain ⟨iri, sizeGb, durability, volumeType, membership, io, hcheck, hlarge⟩ :=
      hlast 1 p' 60 40 rfl hp' hdone
    cases hcheck.symm.trans htask
    rw [hothers] at hlarge
    exact absurd hlarge (by decide)
  · have hdenied : (runSteps (storageNext sampleStorage) (started [(["data"], .dir)])
        (allocatedThen deniedRemoval)).bind (fun p =>
          (storageNext sampleStorage p (.step 1)).bind fun p' =>
            (runSteps (storageNext sampleStorage) p' [.step 1]).map fun q =>
              (q.tasks[1]?, decide (p'.shared.volumes ≠ p.shared.volumes))) =
        some (some (.done (.failed (.internal
          "Failed to remove volume directory /data/photos: Permission denied (os error 13)"))),
          true) := by decide +kernel
    obtain ⟨p, hp, hdenied⟩ := Option.bind_eq_some_iff.mp hdenied
    obtain ⟨p', hp', hdenied⟩ := Option.bind_eq_some_iff.mp hdenied
    obtain ⟨q, hq, hfacts⟩ := Option.map_eq_some_iff.mp hdenied
    obtain ⟨hdone, hchanged⟩ := Prod.mk.inj hfacts
    exact ⟨p, p', q, _, hp, hp', hq, hdone, of_decide_eq_true hchanged⟩

end StorageState

end Picloud
