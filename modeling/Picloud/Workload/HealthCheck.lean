import Picloud.Provision.Provisioner
import Picloud.Lib.Steps

/-!
# The health check of scheduled workloads

Reference: `schedule`, `stop`, `status`, `start_health_check_loop` and `should_restart` of
`picloud-workload/src/implementation.rs`, and `ResourceLimits::validate` of
`picloud-domain/src/workload.rs`. Spawning a process is a result that comes with the call, and the
commands that `stop` sends to a container runtime or a process change no entry.

The health check skips a workload that is not `Running`, and `status` itself writes down that a process
has exited. So a workload that should be restarted stays down if somebody asks for its status before the
next check (`not_fateKept_polled`). Where the calls of `status` find nothing that the loop would decide
otherwise, they can be left out of the run (`fateKept_of_undisturbed`).
-/

namespace Picloud

open Lib

/-! ## Entries -/

/-- `WorkloadStatus`. -/
inductive WorkloadStatus where
  | running
  | stopped
  | failed (reason : String)
  | unknown
deriving DecidableEq

/-- `ExitStatus`: whether it is a success, and its text. -/
structure ExitStatus where
  success : Bool
  text : String
deriving DecidableEq

/-- What `try_wait` finds: a process at work, a process that has exited, or an error. -/
inductive ChildState where
  | running
  | exited (status : ExitStatus)
  | lost (error : String)
deriving DecidableEq

/-- `WorkloadEntry`. -/
structure WorkloadEntry where
  spec : WorkloadSpec
  status : WorkloadStatus
  nodeId : Uuid
  pid : Option ℕ
  child : Option ChildState
  /-- A `u32`; it is not bounded here. -/
  restartCount : ℕ
  explicitlyStopped : Bool
  isContainer : Bool
deriving DecidableEq

/-- The limits of a specification. -/
def WorkloadSpec.resources : WorkloadSpec → ResourceLimits
  | .binary spec => spec.resources
  | .container spec => spec.resources

/-- The restart policy of a specification. -/
def WorkloadSpec.restartPolicy : WorkloadSpec → RestartPolicy
  | .binary spec => spec.restartPolicy
  | .container spec => spec.restartPolicy

/-- A limit is checked against its bounds. -/
def boundErrors (field : String) (least most : UInt32) (value : Option UInt32) : List String :=
  match value with
  | none => []
  | some v =>
    (if v < least then
      [field ++ " (" ++ toString v.toNat ++ ") below minimum (" ++ toString least.toNat ++ ")"]
    else []) ++
    if v > most then
      [field ++ " (" ++ toString v.toNat ++ ") exceeds maximum (" ++ toString most.toNat ++ ")"]
    else []

/-- `ResourceLimits::validate`. -/
def ResourceLimits.validate (limits : ResourceLimits) : Except String Unit :=
  let errors := boundErrors "cpu_millicores" 1 128000 limits.cpuMillicores ++
    boundErrors "memory_mb" 4 1048576 limits.memoryMb
  if errors = [] then .ok () else .error (String.intercalate "; " errors)

/-- `should_restart`. -/
def shouldRestart (policy : RestartPolicy) (success : Bool) (restartCount : ℕ) : Bool :=
  match policy with
  | .always => true
  | .onFailure maxRetries => !success && decide (restartCount < maxRetries.toNat)
  | .never => false

/-- What the loop makes of `try_wait`: whether the process was successful, if it has exited. -/
def ChildState.exit : ChildState → Option Bool
  | .running => none
  | .exited status => some status.success
  | .lost _ => some false

namespace WorkloadEntry

variable (e f : WorkloadEntry)

/-- An iteration of the health check at an entry, where `respawn` is what `cmd.spawn()` returns: the
number of the process. -/
def check (respawn : Except String ℕ) : WorkloadEntry :=
  if e.status ≠ .running then e
  else if e.explicitlyStopped then e
  else
    match e.child.bind ChildState.exit with
    | none => e
    | some success =>
      if shouldRestart e.spec.restartPolicy success e.restartCount then
        match e.spec with
        -- The process of a container is not started again.
        | .container _ => { e with status := .running, restartCount := e.restartCount + 1 }
        | .binary _ =>
          match respawn with
          | .ok pid =>
            { e with
              child := some .running
              pid := some pid
              status := .running
              restartCount := e.restartCount + 1 }
          | .error error => { e with status := .failed ("Restart failed: " ++ error) }
      else if success then { e with status := .stopped }
      else { e with status := .failed "Process exited and restart policy exhausted" }

/-- What a call of `status` writes to an entry. -/
def poll : WorkloadEntry :=
  if e.status = .running then
    match e.child with
    | some (.exited exitStatus) =>
      if exitStatus.success then { e with status := .stopped }
      else { e with status := .failed ("Process exited with status: " ++ exitStatus.text) }
    | some (.lost error) => { e with status := .failed ("Failed to check process status: " ++ error) }
    | _ => e
  else e

/-- What a call of `stop` writes to an entry. -/
def stop : WorkloadEntry := { e with status := .stopped, explicitlyStopped := true }

end WorkloadEntry

/-! ## What a check does to an entry -/

namespace WorkloadEntry

variable (e f : WorkloadEntry) (respawn : Except String ℕ)

/-- Only a workload that is `Running` is checked. -/
theorem check_of_ne_running (h : e.status ≠ .running) : e.check respawn = e := if_pos h

variable {success : Bool}

/-- A process that has exited is started again, or what has come of it is written down. -/
theorem check_of_exit (hrunning : e.status = .running) (hstopped : e.explicitlyStopped = false)
    (hexit : e.child.bind ChildState.exit = some success) :
    e.check respawn =
      if shouldRestart e.spec.restartPolicy success e.restartCount then
        match e.spec with
        | .container _ => { e with status := .running, restartCount := e.restartCount + 1 }
        | .binary _ =>
          match respawn with
          | .ok pid =>
            { e with
              child := some .running
              pid := some pid
              status := .running
              restartCount := e.restartCount + 1 }
          | .error error => { e with status := .failed ("Restart failed: " ++ error) }
      else if success then { e with status := .stopped }
      else { e with status := .failed "Process exited and restart policy exhausted" } := by
  unfold check
  rw [if_neg (not_not.mpr hrunning), if_neg (by rw [hstopped]; decide), hexit]

/-- A process at work, or none, is left alone. -/
theorem check_of_alive (hexit : e.child.bind ChildState.exit = none) : e.check respawn = e := by
  unfold check
  rw [hexit, ite_self, ite_self]

/-- A check changes an entry only where a process of a `Running` workload has exited. -/
theorem check_cases :
    e.check respawn = e ∨ (e.status = .running ∧ e.explicitlyStopped = false ∧
      ∃ success, e.child.bind ChildState.exit = some success) := by
  by_cases hrunning : e.status = .running
  · cases hstopped : e.explicitlyStopped with
    | true =>
      refine Or.inl ?_
      unfold check
      rw [if_neg (not_not.mpr hrunning), if_pos hstopped]
    | false =>
      cases hexit : e.child.bind ChildState.exit with
      | none => exact Or.inl (e.check_of_alive respawn hexit)
      | some success => exact Or.inr ⟨hrunning, rfl, success, rfl⟩
  · exact Or.inl (e.check_of_ne_running respawn hrunning)

@[simp] theorem spec_check : (e.check respawn).spec = e.spec := by
  obtain h | ⟨hrunning, hstopped, success, hexit⟩ := e.check_cases respawn
  · rw [h]
  · rw [e.check_of_exit respawn hrunning hstopped hexit]
    split_ifs
    · split
      · rfl
      · split <;> rfl
    · rfl
    · rfl

@[simp] theorem explicitlyStopped_check :
    (e.check respawn).explicitlyStopped = e.explicitlyStopped := by
  obtain h | ⟨hrunning, hstopped, success, hexit⟩ := e.check_cases respawn
  · rw [h]
  · rw [e.check_of_exit respawn hrunning hstopped hexit]
    split_ifs
    · split
      · rfl
      · split <;> rfl
    · rfl
    · rfl

/-- A check restarts at most once, and only as the policy allows. -/
theorem restartCount_check :
    (e.check respawn).restartCount = e.restartCount ∨
      (e.check respawn).restartCount = e.restartCount + 1 ∧
        ∃ success, shouldRestart e.spec.restartPolicy success e.restartCount := by
  obtain h | ⟨hrunning, hstopped, success, hexit⟩ := e.check_cases respawn
  · exact Or.inl (by rw [h])
  · rw [e.check_of_exit respawn hrunning hstopped hexit]
    split_ifs with hrestart
    · split
      · exact Or.inr ⟨rfl, success, hrestart⟩
      · split
        · exact Or.inr ⟨rfl, success, hrestart⟩
        · exact Or.inl rfl
    · exact Or.inl rfl
    · exact Or.inl rfl

/-- Under `Always` a process that has exited is started again, if it can be spawned. -/
theorem status_check_of_always (hrunning : e.status = .running)
    (hstopped : e.explicitlyStopped = false) (hexit : e.child.bind ChildState.exit = some success)
    (halways : e.spec.restartPolicy = .always)
    (hrespawn : ∀ spec, e.spec = .binary spec → ∃ pid, respawn = .ok pid) :
    (e.check respawn).status = .running := by
  rw [e.check_of_exit respawn hrunning hstopped hexit, halways, shouldRestart, if_pos rfl]
  split
  · rfl
  · next spec hspec =>
    obtain ⟨pid, rfl⟩ := hrespawn spec hspec
    rfl

/-! ## What asking for the status does to an entry -/

theorem poll_of_ne_running (h : e.status ≠ .running) : e.poll = e := if_neg h

/-- Asking changes only the status. -/
theorem poll_eq : ∃ status, e.poll = { e with status := status } := by
  rw [poll]
  split_ifs
  · split
    · split_ifs
      · exact ⟨_, rfl⟩
      · exact ⟨_, rfl⟩
    · exact ⟨_, rfl⟩
    · exact ⟨e.status, rfl⟩
  · exact ⟨e.status, rfl⟩

/-- Asking finds nothing that the loop would decide otherwise: a process that has exited was successful,
and is not to be restarted. -/
def PollsQuietly : Prop :=
  e.status = .running → ∀ child, e.child = some child →
    match child with
    | .running => True
    | .exited exitStatus => exitStatus.success = true ∧ e.spec.restartPolicy ≠ .always
    | .lost _ => False

/-- `e` is `f`, where at most a success that the next check writes down has been written already. -/
def Ahead : Prop :=
  e = f ∨ (f.status = .running ∧ f.explicitlyStopped = false ∧ f.spec.restartPolicy ≠ .always ∧
    f.child.bind ChildState.exit = some true ∧ e = { f with status := .stopped })

theorem shouldRestart_success {policy : RestartPolicy} (h : policy ≠ .always) (restartCount : ℕ) :
    shouldRestart policy true restartCount = false := by
  cases policy with
  | always => exact absurd rfl h
  | onFailure maxRetries => rfl
  | never => rfl

variable {e f}

/-- The next check makes the two entries the same. -/
theorem Ahead.check (h : Ahead e f) : e.check respawn = f.check respawn := by
  obtain rfl | ⟨hrunning, hstopped, hpolicy, hexit, rfl⟩ := h
  · rfl
  · rw [f.check_of_exit respawn hrunning hstopped hexit, shouldRestart_success hpolicy,
      check_of_ne_running _ respawn WorkloadStatus.noConfusion, if_neg Bool.false_ne_true, if_pos rfl]

/-- A call of `stop` makes the two entries the same. -/
theorem Ahead.stop (h : Ahead e f) : e.stop = f.stop := by
  obtain rfl | ⟨-, -, -, -, rfl⟩ := h
  · rfl
  · rfl

/-- A quiet call of `status` leaves the two entries as close as they were. -/
theorem Ahead.poll (h : Ahead e f) (hquiet : e.PollsQuietly)
    (honDuty : e.status = .running → e.explicitlyStopped = false) : Ahead e.poll f := by
  obtain rfl | ⟨hrunning, hstopped, hpolicy, hexit, rfl⟩ := h
  · by_cases hrunning : e.status = .running
    · cases hchild : e.child with
      | none => exact Or.inl (by rw [WorkloadEntry.poll, if_pos hrunning, hchild])
      | some child =>
        have hfound := hquiet hrunning child hchild
        cases child with
        | running => exact Or.inl (by rw [WorkloadEntry.poll, if_pos hrunning, hchild])
        | exited exitStatus =>
          obtain ⟨hsuccess, hpolicy⟩ := hfound
          refine Or.inr ⟨hrunning, honDuty hrunning, hpolicy, ?_, ?_⟩
          · rw [hchild, Option.bind_some, ChildState.exit, hsuccess]
          · rw [WorkloadEntry.poll, if_pos hrunning, hchild]
            exact if_pos hsuccess
        | lost error => exact hfound.elim
    · exact Or.inl (e.poll_of_ne_running hrunning)
  · rw [poll_of_ne_running _ WorkloadStatus.noConfusion]
    exact Or.inr ⟨hrunning, hstopped, hpolicy, hexit, rfl⟩

end WorkloadEntry

/-! ## The scheduler -/

/-- `WorkloadHandle`. -/
structure WorkloadHandle where
  workloadIri : String
  nodeId : Uuid
  pid : Option ℕ
deriving DecidableEq

/-- The errors of the scheduler. -/
inductive SchedulerError where
  | invalidResourceLimits (reason : String)
  | resourceAlreadyExists (iri : String)
  | resourceNotFound (iri : String)
  | internal (message : String)
deriving DecidableEq

/-- What `spawn_binary` or `spawn_container` returns: the number of the process, and for a container
whether there is a process of its own. -/
structure Spawned where
  hasChild : Bool
  pid : ℕ
deriving DecidableEq

/-- `ProcessScheduler`: the workloads, by their IRI. -/
@[ext] structure ProcessScheduler where
  nodeId : Uuid
  workloads : String → Option WorkloadEntry

namespace ProcessScheduler

variable (s t : ProcessScheduler)

/-- A scheduler without workloads. -/
def new (nodeId : Uuid) : ProcessScheduler := ⟨nodeId, fun _ => none⟩

/-- Write an entry. -/
def setEntry (key : String) (e : WorkloadEntry) : ProcessScheduler :=
  { s with workloads := Function.update s.workloads key (some e) }

/-- The entry that `schedule` inserts. -/
def entryOf (spec : WorkloadSpec) (spawned : Spawned) : WorkloadEntry where
  spec := spec
  status := .running
  nodeId := s.nodeId
  pid := some spawned.pid
  child :=
    match spec with
    | .binary _ => some .running
    | .container _ => if spawned.hasChild then some .running else none
  restartCount := 0
  explicitlyStopped := false
  isContainer :=
    match spec with
    | .binary _ => false
    | .container _ => true

/-- `schedule`. -/
def schedule (key : String) (spec : WorkloadSpec) (spawn : Except String Spawned) :
    Except SchedulerError WorkloadHandle × ProcessScheduler :=
  match spec.resources.validate with
  | .error reason => (.error (.invalidResourceLimits reason), s)
  | .ok _ =>
    match s.workloads key with
    | some _ => (.error (.resourceAlreadyExists key), s)
    | none =>
      match spawn with
      | .error message => (.error (.internal message), s)
      | .ok spawned =>
        (.ok ⟨key, s.nodeId, some spawned.pid⟩, s.setEntry key (s.entryOf spec spawned))

/-- `stop`. -/
def stop (key : String) : Except SchedulerError Unit × ProcessScheduler :=
  match s.workloads key with
  | none => (.error (.resourceNotFound key), s)
  | some e => (.ok (), s.setEntry key e.stop)

/-- `status`. -/
def status (key : String) : Except SchedulerError WorkloadStatus × ProcessScheduler :=
  match s.workloads key with
  | none => (.error (.resourceNotFound key), s)
  | some e => (.ok e.poll.status, s.setEntry key e.poll)

/-- An iteration of the health check: every entry is checked once and none depends on another. -/
def check (respawn : String → Except String ℕ) : ProcessScheduler :=
  { s with workloads := fun key => (s.workloads key).map (·.check (respawn key)) }

/-- A process comes to a new state; one that has exited stays so. -/
def observe (key : String) (state : ChildState) : Option ProcessScheduler :=
  match s.workloads key with
  | none => none
  | some e =>
    match e.child with
    | none | some (.exited _) => none
    | some _ => some (s.setEntry key { e with child := some state })

end ProcessScheduler

/-! ## Runs -/

/-- What happens to a scheduler. -/
inductive WorkloadEvent where
  | schedule (key : String) (spec : WorkloadSpec) (spawn : Except String Spawned)
  | process (key : String) (state : ChildState)
  | check (respawn : String → Except String ℕ)
  | status (key : String)
  | stop (key : String)

/-- It is a call of `status`. -/
def WorkloadEvent.isStatus : WorkloadEvent → Bool
  | .status _ => true
  | _ => false

/-- What an event leads to. -/
def ProcessScheduler.step (s : ProcessScheduler) : WorkloadEvent → Option ProcessScheduler
  | .schedule key spec spawn => some (s.schedule key spec spawn).2
  | .process key state => s.observe key state
  | .check respawn => some (s.check respawn)
  | .status key => some (s.status key).2
  | .stop key => some (s.stop key).2

/-- What an event does to an entry that is there. -/
inductive EntryStep (key : String) (e : WorkloadEntry) : WorkloadEvent → WorkloadEntry → Prop where
  | same (a : WorkloadEvent) : EntryStep key e a e
  | process (state : ChildState) : EntryStep key e (.process key state) { e with child := some state }
  | check (respawn : String → Except String ℕ) :
    EntryStep key e (.check respawn) (e.check (respawn key))
  | poll : EntryStep key e (.status key) e.poll
  | stop : EntryStep key e (.stop key) e.stop

namespace ProcessScheduler

variable {s t : ProcessScheduler} {a : WorkloadEvent}

theorem setEntry_workloads (key key' : String) (e : WorkloadEntry) :
    (s.setEntry key e).workloads key' = if key' = key then some e else s.workloads key' :=
  Function.update_apply s.workloads key (some e) key'

/-- `schedule` inserts an entry under a free key, or does nothing. -/
theorem schedule_cases (key : String) (spec : WorkloadSpec) (spawn : Except String Spawned) :
    (s.schedule key spec spawn).2 = s ∨ s.workloads key = none ∧
      ∃ spawned, (s.schedule key spec spawn).2 = s.setEntry key (s.entryOf spec spawned) := by
  unfold schedule
  split
  · exact Or.inl rfl
  · split
    · exact Or.inl rfl
    · next hfree =>
      split
      · exact Or.inl rfl
      · next spawned => exact Or.inr ⟨hfree, spawned, rfl⟩

variable {key : String}

/-- A process is there and has not exited. -/
theorem observe_eq_some_iff {state : ChildState} :
    s.observe key state = some t ↔ ∃ e child, s.workloads key = some e ∧ e.child = some child ∧
      (∀ exitStatus, child ≠ .exited exitStatus) ∧
      t = s.setEntry key { e with child := some state } := by
  constructor
  · intro h
    unfold observe at h
    split at h
    · exact absurd h nofun
    · next e hentry =>
      split at h
      · exact absurd h nofun
      · exact absurd h nofun
      · next child hexited hchild =>
        exact ⟨e, child, hentry, hchild, fun exitStatus hexit => hexited exitStatus hexit,
          (Option.some.inj h).symm⟩
  · rintro ⟨e, child, hentry, hchild, hexited, rfl⟩
    unfold observe
    rw [hentry]
    dsimp only
    rw [hchild]
    cases child with
    | running => rfl
    | exited exitStatus => exact absurd rfl (hexited exitStatus)
    | lost error => rfl

theorem check_workloads (respawn : String → Except String ℕ) (key : String) :
    (s.check respawn).workloads key = (s.workloads key).map (·.check (respawn key)) := rfl

theorem status_workloads (key key' : String) :
    (s.status key).2.workloads key' =
      if key' = key then (s.workloads key').map WorkloadEntry.poll else s.workloads key' := by
  unfold status
  split
  · next hfree =>
    split_ifs with hkey
    · rw [hkey, hfree, Option.map_none]
    · rfl
  · next e hentry =>
    rw [setEntry_workloads]
    split_ifs with hkey
    · rw [hkey, hentry, Option.map_some]
    · rfl

theorem stop_workloads (key key' : String) :
    (s.stop key).2.workloads key' =
      if key' = key then (s.workloads key').map WorkloadEntry.stop else s.workloads key' := by
  unfold stop
  split
  · next hfree =>
    split_ifs with hkey
    · rw [hkey, hfree, Option.map_none]
    · rfl
  · next e hentry =>
    rw [setEntry_workloads]
    split_ifs with hkey
    · rw [hkey, hentry, Option.map_some]
    · rfl

theorem nodeId_of_step (hstep : s.step a = some t) : t.nodeId = s.nodeId := by
  cases a with
  | schedule key spec spawn =>
    obtain rfl : (s.schedule key spec spawn).2 = t := Option.some.inj hstep
    obtain h | ⟨-, spawned, h⟩ := s.schedule_cases key spec spawn
    · rw [h]
    · rw [h]
      rfl
  | process key state =>
    obtain ⟨e, child, -, -, -, rfl⟩ := observe_eq_some_iff.mp hstep
    rfl
  | check respawn =>
    obtain rfl : s.check respawn = t := Option.some.inj hstep
    rfl
  | status key =>
    obtain rfl : (s.status key).2 = t := Option.some.inj hstep
    unfold status
    split <;> rfl
  | stop key =>
    obtain rfl : (s.stop key).2 = t := Option.some.inj hstep
    unfold stop
    split <;> rfl

/-- No event drops an entry, and it changes an entry as it can. -/
theorem entry_of_step {e : WorkloadEntry} (hentry : s.workloads key = some e)
    (hstep : s.step a = some t) : ∃ e', t.workloads key = some e' ∧ EntryStep key e a e' := by
  cases a with
  | schedule key' spec spawn =>
    obtain rfl : (s.schedule key' spec spawn).2 = t := Option.some.inj hstep
    refine ⟨e, ?_, .same _⟩
    obtain h | ⟨hfree, spawned, h⟩ := s.schedule_cases key' spec spawn
    · rw [h, hentry]
    · have hne : key ≠ key' := by
        rintro rfl
        rw [hfree] at hentry
        exact absurd hentry nofun
      rw [h, setEntry_workloads, if_neg hne, hentry]
  | process key' state =>
    obtain ⟨e', -, hentry', -, -, rfl⟩ := observe_eq_some_iff.mp hstep
    by_cases hkey : key = key'
    · subst hkey
      obtain rfl : e = e' := Option.some.inj (hentry.symm.trans hentry')
      exact ⟨_, by rw [setEntry_workloads, if_pos rfl], .process state⟩
    · exact ⟨e, by rw [setEntry_workloads, if_neg hkey, hentry], .same _⟩
  | check respawn =>
    obtain rfl : s.check respawn = t := Option.some.inj hstep
    exact ⟨_, by rw [check_workloads, hentry, Option.map_some], .check respawn⟩
  | status key' =>
    obtain rfl : (s.status key').2 = t := Option.some.inj hstep
    rw [status_workloads, hentry]
    split_ifs with hkey
    · exact ⟨_, rfl, hkey ▸ .poll⟩
    · exact ⟨e, rfl, .same _⟩
  | stop key' =>
    obtain rfl : (s.stop key').2 = t := Option.some.inj hstep
    rw [stop_workloads, hentry]
    split_ifs with hkey
    · exact ⟨_, rfl, hkey ▸ .stop⟩
    · exact ⟨e, rfl, .same _⟩

/-- An entry comes into being by a call of `schedule` only. -/
theorem new_entry_of_step {e : WorkloadEntry} (hfree : s.workloads key = none)
    (hstep : s.step a = some t) (hentry : t.workloads key = some e) :
    ∃ spec spawned, e = s.entryOf spec spawned := by
  cases a with
  | schedule key' spec spawn =>
    obtain rfl : (s.schedule key' spec spawn).2 = t := Option.some.inj hstep
    obtain h | ⟨-, spawned, h⟩ := s.schedule_cases key' spec spawn
    · rw [h, hfree] at hentry
      exact absurd hentry nofun
    · rw [h, setEntry_workloads] at hentry
      split_ifs at hentry
      · exact ⟨spec, spawned, (Option.some.inj hentry).symm⟩
      · rw [hfree] at hentry
        exact absurd hentry nofun
  | process key' state =>
    obtain ⟨e', -, hentry', -, -, rfl⟩ := observe_eq_some_iff.mp hstep
    rw [setEntry_workloads] at hentry
    split_ifs at hentry with hkey
    · rw [← hkey, hfree] at hentry'
      exact absurd hentry' nofun
    · rw [hfree] at hentry
      exact absurd hentry nofun
  | check respawn =>
    obtain rfl : s.check respawn = t := Option.some.inj hstep
    rw [check_workloads, hfree] at hentry
    exact absurd hentry nofun
  | status key' =>
    obtain rfl : (s.status key').2 = t := Option.some.inj hstep
    rw [status_workloads, hfree, Option.map_none, ite_self] at hentry
    exact absurd hentry nofun
  | stop key' =>
    obtain rfl : (s.stop key').2 = t := Option.some.inj hstep
    rw [stop_workloads, hfree, Option.map_none, ite_self] at hentry
    exact absurd hentry nofun

end ProcessScheduler

/-! ## Invariants -/

/-- What holds of an entry in every run: a workload that was stopped stays so, and it has been restarted
as often as its policy allows at most. -/
structure WorkloadEntry.Sound (e : WorkloadEntry) : Prop where
  stopped : e.explicitlyStopped = true → e.status = .stopped
  onFailure : ∀ maxRetries, e.spec.restartPolicy = .onFailure maxRetries →
    e.restartCount ≤ maxRetries.toNat
  never : e.spec.restartPolicy = .never → e.restartCount = 0

variable {e : WorkloadEntry}

/-- A workload that is `Running` was not stopped. -/
theorem WorkloadEntry.Sound.onDuty (h : e.Sound) (hrunning : e.status = .running) :
    e.explicitlyStopped = false := by
  cases hstopped : e.explicitlyStopped with
  | true =>
    rw [h.stopped hstopped] at hrunning
    exact absurd hrunning nofun
  | false => rfl

theorem sound_entryOf (s : ProcessScheduler) (spec : WorkloadSpec) (spawned : Spawned) :
    (s.entryOf spec spawned).Sound where
  stopped h := absurd h Bool.false_ne_true
  onFailure _ _ := Nat.zero_le _
  never _ := rfl

theorem WorkloadEntry.Sound.check (h : e.Sound) (respawn : Except String ℕ) :
    (e.check respawn).Sound where
  stopped hstopped := by
    rw [explicitlyStopped_check] at hstopped
    have hkept : e.check respawn = e := by
      refine e.check_of_ne_running respawn ?_
      rw [h.stopped hstopped]
      exact WorkloadStatus.noConfusion
    rw [hkept]
    exact h.stopped hstopped
  onFailure maxRetries hpolicy := by
    rw [spec_check] at hpolicy
    obtain hcount | ⟨hcount, success, hrestart⟩ := e.restartCount_check respawn
    · exact hcount ▸ h.onFailure maxRetries hpolicy
    · rw [hpolicy, shouldRestart, Bool.and_eq_true, decide_eq_true_iff] at hrestart
      have hless := hrestart.2
      omega
  never hpolicy := by
    rw [spec_check] at hpolicy
    obtain hcount | ⟨-, success, hrestart⟩ := e.restartCount_check respawn
    · exact hcount ▸ h.never hpolicy
    · rw [hpolicy] at hrestart
      exact absurd hrestart Bool.false_ne_true

theorem EntryStep.sound {key : String} {e' : WorkloadEntry} {a : WorkloadEvent}
    (h : EntryStep key e a e') (hsound : e.Sound) : e'.Sound := by
  cases h with
  | same => exact hsound
  | process state => exact ⟨hsound.stopped, hsound.onFailure, hsound.never⟩
  | check respawn => exact hsound.check (respawn key)
  | poll =>
    by_cases hrunning : e.status = .running
    · obtain ⟨status, hpoll⟩ := e.poll_eq
      rw [hpoll]
      refine ⟨fun hstopped => ?_, hsound.onFailure, hsound.never⟩
      rw [hsound.onDuty hrunning] at hstopped
      exact absurd hstopped Bool.false_ne_true
    · exact (e.poll_of_ne_running hrunning).symm ▸ hsound
  | stop => exact ⟨fun _ => rfl, hsound.onFailure, hsound.never⟩

namespace ProcessScheduler

variable {s t : ProcessScheduler} {a : WorkloadEvent}

/-- Something holds of every entry. -/
def AllEntries (P : WorkloadEntry → Prop) (s : ProcessScheduler) : Prop :=
  ∀ key e, s.workloads key = some e → P e

/-- What holds of new entries and is kept by what an event does to an entry holds of all entries. -/
theorem AllEntries.step {P : WorkloadEntry → Prop} (h : AllEntries P s)
    (hnew : ∀ spec spawned, P (s.entryOf spec spawned))
    (hkept : ∀ key e e', s.workloads key = some e → EntryStep key e a e' → P e → P e')
    (hstep : s.step a = some t) : AllEntries P t := by
  intro key e' hentry'
  cases hentry : s.workloads key with
  | none =>
    obtain ⟨spec, spawned, rfl⟩ := new_entry_of_step hentry hstep hentry'
    exact hnew spec spawned
  | some e =>
    obtain ⟨e'', hentry'', hchange⟩ := entry_of_step hentry hstep
    obtain rfl : e'' = e' := Option.some.inj (hentry''.symm.trans hentry')
    exact hkept key e e'' hentry hchange (h key e hentry)

theorem sound_of_step (h : AllEntries WorkloadEntry.Sound s) (hstep : s.step a = some t) :
    AllEntries WorkloadEntry.Sound t :=
  h.step (sound_entryOf s) (fun _ _ _ _ hchange => hchange.sound) hstep

/-- What `stop` leaves stays: the workload is stopped, and its process and its restarts are as they
were. -/
theorem stopped_of_step {key : String} {e : WorkloadEntry} (hentry : s.workloads key = some e)
    (hstopped : e.status = .stopped) (hstep : s.step a = some t) :
    ∃ e', t.workloads key = some e' ∧ e'.status = .stopped ∧ e'.restartCount = e.restartCount ∧
      e'.pid = e.pid := by
  obtain ⟨e', hentry', hchange⟩ := entry_of_step hentry hstep
  refine ⟨e', hentry', ?_⟩
  have hne : e.status ≠ .running := by
    rw [hstopped]
    exact WorkloadStatus.noConfusion
  cases hchange with
  | same => exact ⟨hstopped, rfl, rfl⟩
  | process state => exact ⟨hstopped, rfl, rfl⟩
  | check respawn =>
    rw [e.check_of_ne_running (respawn key) hne]
    exact ⟨hstopped, rfl, rfl⟩
  | poll =>
    rw [e.poll_of_ne_running hne]
    exact ⟨hstopped, rfl, rfl⟩
  | stop => exact ⟨rfl, rfl, rfl⟩

end ProcessScheduler

/-! ## Runs with and without calls of `status` -/

/-- An event disturbs no workload: a call of `status` finds nothing that the loop would decide otherwise,
and the loop can spawn a process that it has to start again under `Always`. -/
def ProcessScheduler.Undisturbed (s : ProcessScheduler) : WorkloadEvent → Prop
  | .status key => ∀ e, s.workloads key = some e → e.PollsQuietly
  | .check respawn => ∀ key e spec, s.workloads key = some e → e.spec = .binary spec →
      spec.restartPolicy = .always → e.status = .running →
      (e.child.bind ChildState.exit).isSome → ∃ pid, respawn key = .ok pid
  | _ => True

/-- What is left of a workload in a run without calls of `status`. -/
structure Unpolled (s t : ProcessScheduler) : Prop where
  nodeId : s.nodeId = t.nodeId
  ahead : ∀ key, Option.Rel WorkloadEntry.Ahead (s.workloads key) (t.workloads key)
  sound : s.AllEntries WorkloadEntry.Sound

/-- The fate of the workloads after a run: calls of `status` do not decide it, policies are kept, and
what was stopped stays so. -/
structure FateKept (nodeId : Uuid) (events : List WorkloadEvent) (s : ProcessScheduler) : Prop where
  unpolled : ∃ t,
    runSteps ProcessScheduler.step (.new nodeId) (events.filter (!·.isStatus)) = some t ∧
    (∀ key, (s.workloads key).map (·.restartCount) = (t.workloads key).map (·.restartCount)) ∧
    ∀ respawn, s.check respawn = t.check respawn
  onFailure : ∀ key e maxRetries, s.workloads key = some e →
    e.spec.restartPolicy = .onFailure maxRetries → e.restartCount ≤ maxRetries.toNat
  never : ∀ key e, s.workloads key = some e → e.spec.restartPolicy = .never → e.restartCount = 0
  always : ∀ key e exitStatus respawn pid, s.workloads key = some e →
    e.spec.restartPolicy = .always → e.child = some (.exited exitStatus) →
    e.explicitlyStopped = false → respawn key = .ok pid →
    ((s.check respawn).workloads key).map (·.status) = some .running
  stopped : ∀ before key after s' e,
    events = before ++ .stop key :: after →
    runSteps ProcessScheduler.step (.new nodeId) before = some s' → s'.workloads key = some e →
    ∃ e', s.workloads key = some e' ∧ e'.status = .stopped ∧ e'.restartCount = e.restartCount ∧
      e'.pid = e.pid

namespace Unpolled

variable {s t s' : ProcessScheduler} {a : WorkloadEvent}

/-- A quiet call of `status` can be left out. -/
theorem of_status (h : Unpolled s t) (hstatus : a.isStatus = true) (hquiet : s.Undisturbed a)
    (hstep : s.step a = some s') : Unpolled s' t := by
  cases a with
  | status key =>
    refine ⟨(ProcessScheduler.nodeId_of_step hstep).trans h.nodeId, fun key' => ?_,
      ProcessScheduler.sound_of_step h.sound hstep⟩
    obtain rfl : (s.status key).2 = s' := Option.some.inj hstep
    rw [ProcessScheduler.status_workloads]
    split_ifs with hkey
    · subst hkey
      have hahead := h.ahead key'
      generalize t.workloads key' = found at hahead ⊢
      cases hentry : s.workloads key' with
      | none => rwa [hentry] at hahead
      | some e =>
        rw [hentry] at hahead
        cases hahead with
        | some hahead =>
          exact .some (hahead.poll (hquiet e hentry) (h.sound key' e hentry).onDuty)
    · exact h.ahead key'
  | schedule key spec spawn => exact absurd hstatus Bool.false_ne_true
  | process key state => exact absurd hstatus Bool.false_ne_true
  | check respawn => exact absurd hstatus Bool.false_ne_true
  | stop key => exact absurd hstatus Bool.false_ne_true

/-- The same workload is in both runs, or it is in none. -/
theorem entry (h : Unpolled s t) {key : String} {e : WorkloadEntry}
    (hentry : s.workloads key = some e) : ∃ f, t.workloads key = some f ∧ e.Ahead f := by
  have hahead := h.ahead key
  rw [hentry] at hahead
  cases hfound : t.workloads key with
  | none =>
    rw [hfound] at hahead
    exact absurd hahead nofun
  | some f =>
    rw [hfound] at hahead
    cases hahead with
    | some hahead => exact ⟨f, rfl, hahead⟩

theorem free (h : Unpolled s t) {key : String} (hfree : s.workloads key = none) :
    t.workloads key = none := by
  have hahead := h.ahead key
  rw [hfree] at hahead
  cases hfound : t.workloads key with
  | none => rfl
  | some f =>
    rw [hfound] at hahead
    exact absurd hahead nofun

/-- Both runs write the same entry. -/
theorem ahead_setEntry (h : Unpolled s t) (key : String) {e f : WorkloadEntry} (hsame : e = f)
    (key' : String) : Option.Rel WorkloadEntry.Ahead ((s.setEntry key e).workloads key')
      ((t.setEntry key f).workloads key') := by
  rw [ProcessScheduler.setEntry_workloads, ProcessScheduler.setEntry_workloads]
  split_ifs
  · exact .some (Or.inl hsame)
  · exact h.ahead key'

theorem ahead_schedule (h : Unpolled s t) (key : String) (spec : WorkloadSpec)
    (spawn : Except String Spawned) (key' : String) :
    Option.Rel WorkloadEntry.Ahead ((s.schedule key spec spawn).2.workloads key')
      ((t.schedule key spec spawn).2.workloads key') := by
  unfold ProcessScheduler.schedule
  cases spec.resources.validate with
  | error reason => exact h.ahead key'
  | ok _ =>
    cases hentry : s.workloads key with
    | some e =>
      obtain ⟨f, hfound, -⟩ := h.entry hentry
      rw [hfound]
      exact h.ahead key'
    | none =>
      rw [h.free hentry]
      cases spawn with
      | error message => exact h.ahead key'
      | ok spawned =>
        have hnew : s.entryOf spec spawned = t.entryOf spec spawned := by
          unfold ProcessScheduler.entryOf
          rw [h.nodeId]
        exact h.ahead_setEntry key hnew key'

/-- The next check makes the two runs the same. -/
theorem check_eq (h : Unpolled s t) (respawn : String → Except String ℕ) :
    s.check respawn = t.check respawn := by
  apply ProcessScheduler.ext
  · exact h.nodeId
  · funext key
    rw [ProcessScheduler.check_workloads, ProcessScheduler.check_workloads]
    cases hentry : s.workloads key with
    | none => rw [h.free hentry]
    | some e =>
      obtain ⟨f, hfound, hahead⟩ := h.entry hentry
      rw [hfound, Option.map_some, Option.map_some, hahead.check]

theorem refl (h : s.AllEntries WorkloadEntry.Sound) : Unpolled s s where
  nodeId := rfl
  ahead key := by
    cases s.workloads key with
    | none => exact .none
    | some e => exact .some (Or.inl rfl)
  sound := h

/-- Every other event leads to the same in both runs. -/
theorem of_step (h : Unpolled s t) (hstatus : a.isStatus = false) (hstep : s.step a = some s') :
    ∃ t', t.step a = some t' ∧ Unpolled s' t' := by
  suffices hahead : ∃ t', t.step a = some t' ∧
      ∀ key, Option.Rel WorkloadEntry.Ahead (s'.workloads key) (t'.workloads key) by
    obtain ⟨t', htstep, hahead⟩ := hahead
    refine ⟨t', htstep, ?_, hahead, ProcessScheduler.sound_of_step h.sound hstep⟩
    rw [ProcessScheduler.nodeId_of_step hstep, ProcessScheduler.nodeId_of_step htstep, h.nodeId]
  cases a with
  | schedule key spec spawn =>
    obtain rfl : (s.schedule key spec spawn).2 = s' := Option.some.inj hstep
    exact ⟨_, rfl, h.ahead_schedule key spec spawn⟩
  | process key state =>
    obtain ⟨e, child, hentry, hchild, hexited, rfl⟩ :=
      ProcessScheduler.observe_eq_some_iff.mp hstep
    obtain ⟨f, hfound, hahead⟩ := h.entry hentry
    -- A success that was written down is one of a process that has exited.
    have hsame : e = f := by
      obtain rfl | ⟨-, -, -, hexit, rfl⟩ := hahead
      · rfl
      · dsimp only at hchild
        rw [hchild, Option.bind_some] at hexit
        cases child with
        | running => exact absurd hexit nofun
        | exited exitStatus => exact absurd rfl (hexited exitStatus)
        | lost error => exact absurd hexit nofun
    subst hsame
    exact ⟨_, ProcessScheduler.observe_eq_some_iff.mpr ⟨e, child, hfound, hchild, hexited, rfl⟩,
      h.ahead_setEntry key rfl⟩
  | check respawn =>
    obtain rfl : s.check respawn = s' := Option.some.inj hstep
    refine ⟨_, rfl, ?_⟩
    rw [← h.check_eq respawn]
    exact (refl (ProcessScheduler.sound_of_step h.sound hstep)).ahead
  | status key => exact absurd hstatus Bool.noConfusion
  | stop key =>
    obtain rfl : (s.stop key).2 = s' := Option.some.inj hstep
    refine ⟨_, rfl, fun key' => ?_⟩
    rw [ProcessScheduler.stop_workloads, ProcessScheduler.stop_workloads]
    split_ifs
    · cases hentry : s.workloads key' with
      | none => rw [h.free hentry]; exact .none
      | some e =>
        obtain ⟨f, hfound, hahead⟩ := h.entry hentry
        rw [hfound, Option.map_some, Option.map_some, hahead.stop]
        exact .some (Or.inl rfl)
    · exact h.ahead key'

end Unpolled

/-! ## Workloads that are always restarted -/

/-- A workload with policy `Always` is `Running` until it is stopped. -/
def WorkloadEntry.AlwaysUp (e : WorkloadEntry) : Prop :=
  e.spec.restartPolicy = .always → e.explicitlyStopped = false → e.status = .running

/-- An undisturbed event keeps a workload up that is always restarted. -/
theorem alwaysUp_of_step {s t : ProcessScheduler} {a : WorkloadEvent}
    (h : s.AllEntries WorkloadEntry.AlwaysUp) (hundisturbed : s.Undisturbed a)
    (hstep : s.step a = some t) : t.AllEntries WorkloadEntry.AlwaysUp := by
  refine h.step (fun _ _ _ _ => rfl) (fun key e e' hentry hchange hup => ?_) hstep
  cases hchange with
  | same => exact hup
  | process state => exact hup
  | check respawn =>
    intro halways hstopped
    rw [WorkloadEntry.spec_check] at halways
    rw [WorkloadEntry.explicitlyStopped_check] at hstopped
    have hrunning := hup halways hstopped
    obtain hkept | ⟨-, -, success, hexit⟩ := e.check_cases (respawn key)
    · rw [hkept, hrunning]
    · refine e.status_check_of_always _ hrunning hstopped hexit halways fun spec hspec => ?_
      rw [hspec] at halways
      exact hundisturbed key e spec hentry hspec halways hrunning (by rw [hexit]; rfl)
  | poll =>
    -- What a quiet call finds under `Always` is a process at work.
    have hkept : e.spec.restartPolicy = .always → e.poll = e := by
      intro halways
      by_cases hrunning : e.status = .running
      · cases hchild : e.child with
        | none => rw [WorkloadEntry.poll, if_pos hrunning, hchild]
        | some child =>
          have hfound := hundisturbed e hentry hrunning child hchild
          cases child with
          | running => rw [WorkloadEntry.poll, if_pos hrunning, hchild]
          | exited exitStatus => exact absurd halways hfound.2
          | lost error => exact hfound.elim
      · exact e.poll_of_ne_running hrunning
    obtain ⟨status, hpoll⟩ := e.poll_eq
    intro halways hstopped
    have hspec : e.poll.spec = e.spec := by rw [hpoll]
    rw [hspec] at halways
    rw [hkept halways] at hstopped ⊢
    exact hup halways hstopped
  | stop =>
    intro _ hstopped
    exact absurd hstopped.symm Bool.false_ne_true

/-! ## The fate of the workloads -/

/-- **A workload's fate does not depend on who observes it** in a run whose calls of `status` find no
process that has failed or that the loop would restart, and in which a process that has to be restarted
can be spawned. -/
theorem fateKept_of_undisturbed (nodeId : Uuid) (events : List WorkloadEvent) (s : ProcessScheduler)
    (hrun : runSteps ProcessScheduler.step (.new nodeId) events = some s)
    (hundisturbed : StepsMeet ProcessScheduler.step ProcessScheduler.Undisturbed (.new nodeId) events) :
    FateKept nodeId events s := by
  have hempty : ∀ P, (ProcessScheduler.new nodeId).AllEntries P := fun P key e hentry =>
    absurd hentry nofun
  have hsound : s.AllEntries WorkloadEntry.Sound :=
    runSteps_preserves _ (fun _ _ _ h => ProcessScheduler.sound_of_step h) events _ s (hempty _) hrun
  have hup : s.AllEntries WorkloadEntry.AlwaysUp :=
    runSteps_invariant _ (fun _ _ _ h hmeet => alwaysUp_of_step h hmeet) events _ s (hempty _)
      hundisturbed hrun
  refine ⟨?_, fun key e maxRetries hentry => (hsound key e hentry).onFailure maxRetries,
    fun key e hentry => (hsound key e hentry).never, ?_, ?_⟩
  · obtain ⟨t, hrun', hunpolled⟩ := runSteps_filter_of_simulation
      (fun s a s' t hsilent hmeet h => h.of_status hsilent hmeet)
      (fun s a s' t hsort h => h.of_step hsort) (Unpolled.refl (hempty _)) hundisturbed hrun
    refine ⟨t, hrun', fun key => ?_, hunpolled.check_eq⟩
    cases hentry : s.workloads key with
    | none => rw [hunpolled.free hentry]
    | some e =>
      obtain ⟨f, hfound, rfl | ⟨-, -, -, -, rfl⟩⟩ := hunpolled.entry hentry
      · rw [hfound]
      · rw [hfound]; rfl
  · intro key e exitStatus respawn pid hentry halways hchild hstopped hrespawn
    rw [ProcessScheduler.check_workloads, hentry, Option.map_some, Option.map_some]
    refine congrArg some (e.status_check_of_always _ (hup key e hentry halways hstopped) hstopped
      (by rw [hchild]; rfl) halways fun _ _ => ⟨pid, hrespawn⟩)
  · rintro before key after s' e rfl hbefore hentry
    rw [runSteps_append, hbefore, Option.bind_some, runSteps_cons] at hrun
    have hstop : s'.step (.stop key) = some (s'.stop key).2 := rfl
    rw [hstop, Option.bind_some] at hrun
    refine runSteps_preserves _ (I := fun s => ∃ e', s.workloads key = some e' ∧
      e'.status = .stopped ∧ e'.restartCount = e.restartCount ∧ e'.pid = e.pid) ?_ after _ s ?_ hrun
    · rintro s₁ a s₂ ⟨e₁, hentry₁, hstatus, hcount, hpid⟩ hstep
      obtain ⟨e₂, hentry₂, hstatus₂, hcount₂, hpid₂⟩ :=
        ProcessScheduler.stopped_of_step hentry₁ hstatus hstep
      exact ⟨e₂, hentry₂, hstatus₂, hcount₂.trans hcount, hpid₂.trans hpid⟩
    · refine ⟨e.stop, ?_, rfl, rfl, rfl⟩
      rw [ProcessScheduler.stop_workloads, if_pos rfl, hentry, Option.map_some]

/-- A program that is always restarted. -/
def alwaysUpBinary : BinarySpec where
  executable := "/bin/echo"
  args := []
  identity := "web"
  resources := ⟨none, none⟩
  mounts := []
  env := []
  restartPolicy := .always
  productVersion := none

/-- The program crashes, and is started again before anybody asks. -/
def restartedRun : List WorkloadEvent :=
  [.schedule "web" (.binary alwaysUpBinary) (.ok ⟨true, 10⟩),
    .process "web" (.exited ⟨false, "exit status: 1"⟩), .check fun _ => .ok 11, .status "web",
    .stop "web"]

theorem fateKept_restarted : ∃ s,
    runSteps ProcessScheduler.step (.new 0) restartedRun = some s ∧
      (s.workloads "web").map (·.restartCount) = some 1 ∧ FateKept 0 restartedRun s := by
  refine ⟨_, rfl, rfl, fateKept_of_undisturbed 0 restartedRun _ rfl ?_⟩
  refine ⟨trivial, trivial, fun _ _ _ _ _ _ _ _ => ⟨11, rfl⟩, fun e hentry _ child hchild => ?_,
    trivial, trivial⟩
  obtain rfl := Option.some.inj hentry
  obtain rfl := Option.some.inj hchild
  trivial

/-- Somebody asks for the status of the program that has crashed. -/
def polledRun : List WorkloadEvent :=
  [.schedule "web" (.binary alwaysUpBinary) (.ok ⟨true, 10⟩),
    .process "web" (.exited ⟨false, "exit status: 1"⟩), .status "web"]

/-- It is then never started again. -/
theorem not_fateKept_polled : ∃ s,
    runSteps ProcessScheduler.step (.new 0) polledRun = some s ∧ ¬ FateKept 0 polledRun s := by
  refine ⟨_, rfl, fun h => ?_⟩
  have hup := h.always "web" _ _ (fun _ => .ok 11) 11 rfl rfl rfl rfl rfl
  revert hup
  decide +kernel

end Picloud
