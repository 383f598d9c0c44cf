import Picloud.Provision.Provisioner
import Mathlib.Logic.Function.Basic

/-!
# The command of a process and the command of its restart

Reference: `spawn_binary`, `resolve_env_value`, `product_from_iri`, `otel_env_vars` and the restart in
`start_health_check_loop` of `picloud-workload/src/implementation.rs`. Both commands connect the standard
streams in the same way. The secret store, the random `TRACEPARENT` and a product of floating-point
numbers are parameters.

The two commands are built apart. A restart sets no limits, injects no variables and does not resolve
secrets, so it is the same process only where all of this makes no difference (`sameProcess_iff`).
-/

namespace Picloud

open Lib

/-! ## Commands -/

/-- `Command`: what differs from the environment of the parent, and the limits that are set before the
program is executed. -/
structure Command where
  executable : String
  args : List String
  env : String → Option String
  /-- `RLIMIT_AS`, in bytes. -/
  addressSpace : Option ℕ
  /-- `RLIMIT_CPU`, in seconds. -/
  cpuTime : Option ℕ

/-- Call `cmd.env` for every pair: a later one overwrites an earlier one. -/
def setEnv (env : String → Option String) (vars : List (String × String)) : String → Option String :=
  vars.foldl (fun env var => Function.update env var.1 (some var.2)) env

theorem setEnv_apply (env : String → Option String) (vars : List (String × String)) (name : String) :
    setEnv env vars name = (vars.reverse.lookup name).or (env name) := by
  induction vars generalizing env with
  | nil => rfl
  | cons var vars ih =>
    rw [setEnv, List.foldl_cons]
    refine (ih _).trans ?_
    rw [List.reverse_cons, List.lookup_append, List.lookup_singleton, Option.or_assoc]
    congr 1
    rw [Function.update_apply]
    by_cases h : name = var.1
    · rw [if_pos h, if_pos (beq_iff_eq.mpr h), Option.some_or]
    · rw [if_neg h, if_neg (by rwa [beq_iff_eq]), Option.none_or]

theorem lookup_map_snd {α β γ : Type*} [BEq α] (f : β → γ) (l : List (α × β)) (a : α) :
    (l.map fun (key, value) => (key, f value)).lookup a = (l.lookup a).map f := by
  induction l with
  | nil => rfl
  | cons pair l ih =>
    obtain ⟨key, value⟩ := pair
    rw [List.map_cons, List.lookup_cons, List.lookup_cons]
    cases a == key with
    | true => rfl
    | false => exact ih

theorem lookup_eq_none_of_notMem {vars : List (String × String)} {name : String}
    (h : name ∉ vars.map Prod.fst) : vars.reverse.lookup name = none := by
  rw [List.lookup_eq_none_iff]
  intro var hvar
  rw [bne_iff_ne]
  rintro rfl
  exact h (List.mem_map_of_mem (List.mem_reverse.mp hvar))

/-- Where the names are distinct, no value is overwritten. -/
theorem lookup_reverse_of_mem {vars : List (String × String)} (hnodup : (vars.map Prod.fst).Nodup)
    {var : String × String} (hvar : var ∈ vars) : vars.reverse.lookup var.1 = some var.2 := by
  induction vars with
  | nil => exact absurd hvar List.not_mem_nil
  | cons first vars ih =>
    rw [List.map_cons, List.nodup_cons] at hnodup
    rw [List.reverse_cons, List.lookup_append, List.lookup_singleton]
    cases hvar with
    | head => rw [lookup_eq_none_of_notMem hnodup.1, if_pos BEq.rfl, Option.none_or]
    | tail _ hvar => rw [ih hnodup.2 hvar, Option.some_or]

/-! ## The first start -/

/-- What a scheduler is configured with. -/
structure SpawnEnv where
  iris : IriBuilder
  /-- `get_secret` of the store, if there is one. -/
  secretStore : Option (String → String → Except String String)
  /-- `(3600.0 * (milli as f64 / 1000.0) * 1.1) as u64`. -/
  cpuSeconds : UInt32 → ℕ

namespace SpawnEnv

variable (env : SpawnEnv)

/-- `resolve_env_value`. -/
def resolveEnvValue (product : Option String) : EnvValue → String
  | .literal value => value
  | .secret secret =>
    match env.secretStore with
    | some getSecret =>
      match getSecret (product.getD "default") secret with
      | .ok value => value
      | .error _ => ""
    | none => "SECRET:" ++ secret

/-- `product_from_iri`. -/
def productFromIri (iri : String) : Option String :=
  (stripStart "https://" iri).bind fun path =>
    match path.toList.splitOn '/' with
    | _ :: kind :: name :: _ =>
      if kind = "products".toList then some (String.ofList name) else none
    | _ => none

/-- `otel_env_vars`. -/
def otelEnvVars (workloadIri : String) : List (String × String) :=
  [("OTEL_SERVICE_NAME", lastSegment workloadIri),
    ("OTEL_EXPORTER_OTLP_ENDPOINT",
      "https://" ++ (stripStart "https://" env.iris.base).getD "picloud.local" ++ "/otel"),
    ("OTEL_RESOURCE_ATTRIBUTES",
      "picloud.product=" ++ (productFromIri workloadIri).getD "platform" ++ ",picloud.workload_iri=" ++
        workloadIri)]

/-- `PICLOUD_PRODUCT_VERSION`, if there is a version. -/
def versionVars (spec : BinarySpec) : List (String × String) :=
  spec.productVersion.toList.map fun version => ("PICLOUD_PRODUCT_VERSION", version)

/-- `memory_as_bytes`. -/
def memoryAsBytes (limits : ResourceLimits) : Option ℕ :=
  limits.memoryMb.map fun mb => mb.toNat * 1024 * 1024

/-- The command of `spawn_binary`. -/
def spawnCommand (spec : BinarySpec) (workloadIri traceparent : String) : Command where
  executable := spec.executable
  args := spec.args
  env :=
    let product := productFromIri workloadIri
    let own := spec.env.map fun (key, value) => (key, env.resolveEnvValue product value)
    setEnv (setEnv (setEnv (setEnv (fun _ => none) own) (env.otelEnvVars workloadIri))
      [("TRACEPARENT", traceparent)]) (versionVars spec)
  addressSpace := memoryAsBytes spec.resources
  cpuTime := spec.resources.cpuMillicores.map fun milli => max (env.cpuSeconds milli) 1

end SpawnEnv

/-! ## The restart -/

/-- A value as a restart writes it. -/
def EnvValue.atRestart : EnvValue → String
  | .literal value => value
  | .secret name => "SECRET:" ++ name

/-- The command of a restart. -/
def restartCommand (spec : BinarySpec) : Command where
  executable := spec.executable
  args := spec.args
  env := setEnv (fun _ => none) (spec.env.map fun (key, value) => (key, value.atRestart))
  addressSpace := none
  cpuTime := none

/-! ## The same process -/

/-- Two commands start the same process: `TRACEPARENT` only has to be there. -/
structure SameProcess (first again : Command) : Prop where
  executable : again.executable = first.executable
  args : again.args = first.args
  env : ∀ name, name ≠ "TRACEPARENT" → again.env name = first.env name
  traced : (again.env "TRACEPARENT").isSome
  addressSpace : again.addressSpace = first.addressSpace
  cpuTime : again.cpuTime = first.cpuTime

/-- The value of a variable in the specification, whose keys are those of a map. -/
def BinarySpec.value (spec : BinarySpec) (name : String) : Option EnvValue :=
  spec.env.reverse.lookup name

namespace SpawnEnv

variable (env : SpawnEnv)

/-- The variables that are injected with a value of their own. -/
def injectedVars (spec : BinarySpec) (workloadIri : String) : List (String × String) :=
  env.otelEnvVars workloadIri ++ versionVars spec

/-- A restart makes no difference: no limits are set, the specification gives `TRACEPARENT` and all that
is injected, and its other secrets resolve to what a restart writes for them. -/
structure RestartsAlike (spec : BinarySpec) (workloadIri : String) : Prop where
  unlimited : spec.resources = ⟨none, none⟩
  traced : (spec.value "TRACEPARENT").isSome
  injected : ∀ var ∈ env.injectedVars spec workloadIri,
    (spec.value var.1).map EnvValue.atRestart = some var.2
  secrets : ∀ name secret, name ∉ (env.injectedVars spec workloadIri).map Prod.fst →
    name ≠ "TRACEPARENT" → spec.value name = some (.secret secret) →
    env.resolveEnvValue (productFromIri workloadIri) (.secret secret) = "SECRET:" ++ secret

/-- What a restart gives a variable. -/
theorem env_restartCommand (spec : BinarySpec) (name : String) :
    (restartCommand spec).env name = (spec.value name).map EnvValue.atRestart := by
  rw [restartCommand]
  dsimp only
  rw [setEnv_apply, Option.or_none, ← List.map_reverse]
  exact lookup_map_snd EnvValue.atRestart spec.env.reverse name

/-- What is injected overwrites what the specification gives. -/
theorem env_spawnCommand (spec : BinarySpec) (workloadIri traceparent name : String)
    (hname : name ≠ "TRACEPARENT") :
    (env.spawnCommand spec workloadIri traceparent).env name =
      ((env.injectedVars spec workloadIri).reverse.lookup name).or
        ((spec.value name).map (env.resolveEnvValue (productFromIri workloadIri))) := by
  have hown : ((spec.env.map fun (key, value) =>
      (key, env.resolveEnvValue (productFromIri workloadIri) value)).reverse.lookup name) =
        (spec.value name).map (env.resolveEnvValue (productFromIri workloadIri)) := by
    rw [← List.map_reverse]
    exact lookup_map_snd _ spec.env.reverse name
  have htrace : [("TRACEPARENT", traceparent)].reverse.lookup name = none := by
    rw [List.reverse_singleton, List.lookup_singleton, if_neg (by rwa [beq_iff_eq])]
  rw [spawnCommand]
  dsimp only
  rw [setEnv_apply, setEnv_apply, setEnv_apply, setEnv_apply, Option.or_none, hown, htrace,
    Option.none_or, injectedVars, List.reverse_append, List.lookup_append, Option.or_assoc]

/-- Each injected variable is injected once. -/
theorem nodup_injectedVars (spec : BinarySpec) (workloadIri : String) :
    ((env.injectedVars spec workloadIri).map Prod.fst).Nodup ∧
      "TRACEPARENT" ∉ (env.injectedVars spec workloadIri).map Prod.fst := by
  rw [injectedVars, otelEnvVars, versionVars]
  cases spec.productVersion with
  | none => simp
  | some version => simp

/-- **A restart starts the process that was scheduled** exactly where it makes no difference that it sets
no limits, injects no variables and does not resolve secrets. -/
theorem sameProcess_iff (spec : BinarySpec) (workloadIri traceparent : String) :
    SameProcess (env.spawnCommand spec workloadIri traceparent) (restartCommand spec) ↔
      env.RestartsAlike spec workloadIri := by
  obtain ⟨hnodup, htraceparent⟩ := env.nodup_injectedVars spec workloadIri
  have hne : ∀ name ∈ (env.injectedVars spec workloadIri).map Prod.fst, name ≠ "TRACEPARENT" := by
    rintro name hname rfl
    exact htraceparent hname
  constructor
  · intro h
    have henv : ∀ name, name ≠ "TRACEPARENT" → (spec.value name).map EnvValue.atRestart = _ :=
      fun name hname => (env_restartCommand spec name).symm.trans
        ((h.env name hname).trans (env.env_spawnCommand spec workloadIri traceparent name hname))
    refine ⟨?_, ?_, fun var hvar => ?_, fun name secret hname hne hsecret => ?_⟩
    · have hspace := h.addressSpace
      have htime := h.cpuTime
      rw [spawnCommand, restartCommand] at hspace htime
      dsimp only at hspace htime
      rw [memoryAsBytes, eq_comm, Option.map_eq_none_iff] at hspace
      rw [eq_comm, Option.map_eq_none_iff] at htime
      exact congrArg₂ ResourceLimits.mk htime hspace
    · have htraced := h.traced
      rwa [env_restartCommand, Option.isSome_map] at htraced
    · rw [henv var.1 (hne var.1 (List.mem_map_of_mem hvar)), lookup_reverse_of_mem hnodup hvar,
        Option.some_or]
    · have hvalue := henv name hne
      rw [lookup_eq_none_of_notMem hname, Option.none_or, hsecret] at hvalue
      exact (Option.some.inj hvalue).symm
  · intro h
    refine ⟨rfl, rfl, fun name hname => ?_, ?_, ?_, ?_⟩
    · rw [env_restartCommand, env.env_spawnCommand spec workloadIri traceparent name hname]
      by_cases hinjected : name ∈ (env.injectedVars spec workloadIri).map Prod.fst
      · obtain ⟨var, hvar, rfl⟩ := List.mem_map.mp hinjected
        rw [h.injected var hvar, lookup_reverse_of_mem hnodup hvar, Option.some_or]
      · rw [lookup_eq_none_of_notMem hinjected, Option.none_or]
        cases hvalue : spec.value name with
        | none => rfl
        | some value =>
          cases value with
          | literal text => rfl
          | secret secret =>
            exact congrArg some (h.secrets name secret hinjected hname hvalue).symm
    · rw [env_restartCommand, Option.isSome_map]
      exact h.traced
    · rw [restartCommand, spawnCommand, h.unlimited]
      rfl
    · rw [restartCommand, spawnCommand, h.unlimited]
      rfl

/-- A scheduler at `picloud.local`, without a secret store. -/
def samplePi : SpawnEnv where
  iris := ⟨"picloud.local"⟩
  secretStore := none
  cpuSeconds := fun milli => milli.toNat * 396 / 100

/-- A program without variables and limits. -/
def plainBinary : BinarySpec where
  executable := "/bin/echo"
  args := ["hello"]
  identity := "web"
  resources := ⟨none, none⟩
  mounts := []
  env := []
  restartPolicy := .always
  productVersion := none

/-- Its restart has no `TRACEPARENT`, and nothing that is injected. -/
theorem not_sameProcess_plain :
    ¬ SameProcess (samplePi.spawnCommand plainBinary "https://picloud.local/products/app/binaries/web"
      "00-1-1-01") (restartCommand plainBinary) := by
  intro h
  have htraced := h.traced
  revert htraced
  decide

end SpawnEnv

end Picloud
