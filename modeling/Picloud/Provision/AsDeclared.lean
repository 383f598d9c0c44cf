import Picloud.Apply.NothingLost
import Picloud.Provision.Provisioner

/-!
# Provisioning what was declared

`handle_apply` writes the settings of a declaration into a payload and the provisioner reads them back,
field by field. A container and an ingress arrive as they were declared. The payload of a binary has
nothing but its executable, and of the storage intent of a volume only two texts are written and none
is read: what is missing becomes a default.
-/

namespace Picloud

open Lib

/-! ## Reading back what was written -/

@[simp] theorem EnvValue.ofJson_toJson (v : EnvValue) : EnvValue.ofJson v.toJson = some v := by
  cases v with
  | literal value => rfl
  | secret name => rfl

@[simp] theorem Protocol.ofJson_toJson (p : Protocol) : Protocol.ofJson p.toJson = some p := by
  cases p with
  | tcp => rfl
  | udp => rfl

@[simp] theorem VolumeMount.ofJson_toJson (m : VolumeMount) :
    VolumeMount.ofJson m.toJson = some m := rfl

@[simp] theorem PortMapping.ofJson_toJson (p : PortMapping) :
    PortMapping.ofJson p.toJson = some p := by
  have hport : ((p.toJson.get? "port").bind Json.asU64).filter (· < 2 ^ 16) =
      some p.port.toNat := by
    change (some p.port.toUInt64.toNat).filter (· < 2 ^ 16) = some p.port.toNat
    rw [UInt16.toNat_toUInt64]
    exact Option.filter_some_pos (by simpa using p.port.toNat_lt)
  have hprotocol : (p.toJson.get? "protocol").bind Protocol.ofJson = some p.protocol :=
    p.protocol.ofJson_toJson
  rw [PortMapping.ofJson, hport, hprotocol]
  exact congrArg (fun port => some (PortMapping.mk port p.protocol)) UInt16.ofNat_toNat

/-- A list of records comes back, if each of them does. -/
theorem filterMap_map_of_roundTrip {α : Type} {toJson : α → Json} {ofJson : Json → Option α}
    (h : ∀ a, ofJson (toJson a) = some a) (items : List α) :
    (items.map toJson).filterMap ofJson = items := by
  rw [List.filterMap_map, show ofJson ∘ toJson = some from funext h, List.filterMap_some]

section Fields

variable {payload : Json}

theorem parseMounts_of_get? {mounts : List VolumeMount}
    (h : payload.get? "mounts" = some (.array (mounts.map VolumeMount.toJson))) :
    parseMounts payload = mounts := by
  rw [parseMounts, Json.items, h]
  exact filterMap_map_of_roundTrip VolumeMount.ofJson_toJson mounts

theorem parsePorts_of_get? {ports : List PortMapping}
    (h : payload.get? "ports" = some (.array (ports.map PortMapping.toJson))) :
    parsePorts payload = ports := by
  rw [parsePorts, Json.items, h]
  exact filterMap_map_of_roundTrip PortMapping.ofJson_toJson ports

theorem parseEnv_of_get? {env : List (String × EnvValue)}
    (h : payload.get? "env" = some (.object (env.map fun e => (e.1, e.2.toJson)))) :
    parseEnv payload = env := by
  rw [parseEnv, h]
  change (env.map fun e => (e.1, e.2.toJson)).map _ = env
  rw [List.map_map]
  refine (List.map_congr_left fun e _ => ?_).trans (List.map_id env)
  change (e.1, (EnvValue.ofJson e.2.toJson).getD _) = e
  rw [EnvValue.ofJson_toJson]
  rfl

theorem asStr_optText (text : Option String) : (optText text).asStr = text := by
  cases text with
  | none => rfl
  | some text => rfl

/-- A number of 32 bits comes back. -/
theorem map_asU64_optWord32 (n : Option UInt32) :
    (optWord32 n).asU64.map UInt32.ofNat = n := by
  cases n with
  | none => rfl
  | some n =>
    change some (UInt32.ofNat n.toUInt64.toNat) = some n
    rw [UInt32.toNat_toUInt64, UInt32.ofNat_toNat]

theorem parseResourceLimits_of_get? {limits : ResourceLimits}
    (hcpu : payload.get? "cpu_millicores" = some (optWord32 limits.cpuMillicores))
    (hmemory : payload.get? "memory_mb" = some (optWord32 limits.memoryMb)) :
    parseResourceLimits payload = limits := by
  rw [parseResourceLimits, hcpu, hmemory]
  change (⟨(optWord32 limits.cpuMillicores).asU64.map UInt32.ofNat,
    (optWord32 limits.memoryMb).asU64.map UInt32.ofNat⟩ : ResourceLimits) = limits
  rw [map_asU64_optWord32, map_asU64_optWord32]

end Fields

/-! ## Declared and provisioned -/

/-- The provisioner as the server starts it, with the routing table and the router. -/
def serverProvisioner (iris : IriBuilder) (isUrl : String → Bool) : ProvisionConfig :=
  ⟨iris, true, true, isUrl⟩

/-- The calls for the event that records a declaration. -/
def callsFor (cfg : ApiConfig) (isUrl : String → Bool) (req : ApplyRequest) (slot : Slot)
    (decl : ResourceDeclaration) : List BackendCall :=
  (declared cfg decl).elim [] fun d =>
    provisionCalls (serverProvisioner cfg.iris isUrl) (declaredEvent cfg req slot decl d)

/-- The backends are called for what was declared: one workload with its spec, one volume with its
size and intent, or one route with its host, path and port, in the table and in the router. The table
has no hosts. -/
def AsDeclared (cfg : ApiConfig) (decl : ResourceDeclaration) (calls : List BackendCall) : Prop :=
  match decl with
  | .container c =>
    calls = [.schedule ⟨cfg.iris.resource c.product "containers" c.name⟩
      (.container (c.toSpec cfg.formats))]
  | .binary b =>
    calls = [.schedule ⟨cfg.iris.resource b.product "binaries" b.name⟩
      (.binary (b.toSpec cfg.formats))]
  | .volume v =>
    calls = [.allocateVolume ⟨cfg.iris.resource v.product "volumes" v.name⟩ v.sizeGb.toNat
      v.storageIntent .mounted]
  | .ingress i =>
    ∃ entry : RouteEntry, entry.pathPrefix = i.path ∧ entry.upstreamPort = i.port ∧
      calls = [.insertRoute (cfg.iris.resource i.product "ingresses" i.name)
          ⟨i.path, i.port, i.product⟩,
        .upsertRoute (i.host.getD "picloud.local") entry]
  | _ => True

/-- The settings that get lost have the values that they are given by default. -/
def OnlyDefaultsLost (cfg : ApiConfig) : ResourceDeclaration → Prop
  | .binary b =>
    b.args = [] ∧ b.identity = "default" ∧ b.cpu.bind (parseCpuMillis cfg.formats) = none ∧
      b.memory.bind parseMemoryMb = none ∧ b.mounts = [] ∧ b.env = []
  | .volume v =>
    durabilityOf v.durability = .fullReplication ∧ performanceOf v.performance = .standard ∧
      v.snapshots = none ∧ v.offsite = none
  | _ => True

variable {cfg : ApiConfig} {isUrl : String → Bool} {req : ApplyRequest} {slot : Slot}

/-- A container is scheduled with the spec of its declaration. -/
theorem callsFor_container (c : ContainerDecl) :
    callsFor cfg isUrl req slot (.container c) =
      [.schedule ⟨cfg.iris.resource c.product "containers" c.name⟩
        (.container (c.toSpec cfg.formats))] := by
  obtain ⟨d, hd⟩ : ∃ d, declared cfg (.container c) = some d := ⟨_, rfl⟩
  have hcalls : callsFor cfg isUrl req slot (.container c) =
      provisionContainer ⟨cfg.iris.resource c.product "containers" c.name⟩ d.payload := by
    cases hd
    rfl
  have hlimits : parseResourceLimits d.payload = (c.toSpec cfg.formats).resources :=
    parseResourceLimits_of_get? (by cases hd; rfl) (by cases hd; rfl)
  have hmounts : parseMounts d.payload = (c.toSpec cfg.formats).mounts :=
    parseMounts_of_get? (by cases hd; rfl)
  have henv : parseEnv d.payload = (c.toSpec cfg.formats).env :=
    parseEnv_of_get? (by cases hd; rfl)
  have hports : parsePorts d.payload = (c.toSpec cfg.formats).ports :=
    parsePorts_of_get? (by cases hd; rfl)
  rw [hcalls, provisionContainer, hlimits, hmounts, henv, hports]
  cases hd
  rfl

/-- A binary is scheduled with its executable and the defaults. -/
theorem callsFor_binary (b : BinaryDecl) :
    callsFor cfg isUrl req slot (.binary b) =
      [.schedule ⟨cfg.iris.resource b.product "binaries" b.name⟩ (.binary
        { executable := b.executable
          args := []
          identity := "default"
          resources := ⟨none, none⟩
          mounts := []
          env := []
          restartPolicy := .always
          productVersion := none })] := rfl

/-- A volume is allocated with its size and the default intent. -/
theorem callsFor_volume (v : VolumeDecl) :
    callsFor cfg isUrl req slot (.volume v) =
      [.allocateVolume ⟨cfg.iris.resource v.product "volumes" v.name⟩ v.sizeGb.toNat
        StorageIntent.default .mounted] := rfl

/-- An ingress is routed as declared, and never as an internal one. -/
theorem callsFor_ingress (i : IngressDecl) :
    callsFor cfg isUrl req slot (.ingress i) =
      [.insertRoute (cfg.iris.resource i.product "ingresses" i.name) ⟨i.path, i.port, i.product⟩,
        .upsertRoute (i.host.getD "picloud.local") ⟨i.path, "127.0.0.1", i.port, i.product, false,
          ⟨if isUrl (cfg.iris.resource i.product "ingresses" i.name)
            then cfg.iris.resource i.product "ingresses" i.name
            else "https://picloud.local/products/" ++ i.product ++ "/ingresses/unknown"⟩⟩] := by
  obtain ⟨d, hd⟩ : ∃ d, declared cfg (.ingress i) = some d := ⟨_, rfl⟩
  have hcalls : callsFor cfg isUrl req slot (.ingress i) =
      provisionIngress (serverProvisioner cfg.iris isUrl)
        (cfg.iris.resource i.product "ingresses" i.name) d.payload := by
    cases hd
    rfl
  have hport : UInt16.ofNat (((d.payload.get? "port").bind Json.asU64).getD 8080) = i.port := by
    cases hd
    change UInt16.ofNat i.port.toUInt64.toNat = i.port
    rw [UInt16.toNat_toUInt64, UInt16.ofNat_toNat]
  have hhost : (d.payload.text "host").getD "picloud.local" = i.host.getD "picloud.local" := by
    cases hd
    change (optText i.host).asStr.getD _ = _
    rw [asStr_optText]
  rw [hcalls, provisionIngress, hport, hhost]
  cases hd
  rfl

theorem asDeclared_binary_iff (b : BinaryDecl) :
    AsDeclared cfg (.binary b) (callsFor cfg isUrl req slot (.binary b)) ↔
      OnlyDefaultsLost cfg (.binary b) := by
  rw [callsFor_binary]
  simp only [AsDeclared, OnlyDefaultsLost, List.cons.injEq, BackendCall.schedule.injEq,
    WorkloadSpec.binary.injEq, BinaryDecl.toSpec, BinarySpec.mk.injEq, resourceLimits,
    ResourceLimits.mk.injEq, envValues, true_and, and_true, List.nil_eq, List.map_eq_nil_iff]
  constructor
  · rintro ⟨hargs, hidentity, ⟨hcpu, hmemory⟩, hmounts, henv⟩
    exact ⟨hargs, hidentity.symm, hcpu.symm, hmemory.symm, hmounts, henv⟩
  · rintro ⟨hargs, hidentity, hcpu, hmemory, hmounts, henv⟩
    exact ⟨hargs, hidentity.symm, ⟨hcpu.symm, hmemory.symm⟩, hmounts, henv⟩

theorem asDeclared_volume_iff (v : VolumeDecl) :
    AsDeclared cfg (.volume v) (callsFor cfg isUrl req slot (.volume v)) ↔
      OnlyDefaultsLost cfg (.volume v) := by
  rw [callsFor_volume]
  simp only [AsDeclared, OnlyDefaultsLost, List.cons.injEq, BackendCall.allocateVolume.injEq,
    StorageIntent.default, VolumeDecl.storageIntent, StorageIntent.mk.injEq, true_and, and_true]
  constructor
  · rintro ⟨hdurability, hperformance, hsnapshots, hoffsite⟩
    exact ⟨hdurability.symm, hperformance.symm, Option.map_eq_none_iff.mp hsnapshots.symm,
      Option.map_eq_none_iff.mp hoffsite.symm⟩
  · rintro ⟨hdurability, hperformance, hsnapshots, hoffsite⟩
    exact ⟨hdurability.symm, hperformance.symm, (Option.map_eq_none_iff.mpr hsnapshots).symm,
      (Option.map_eq_none_iff.mpr hoffsite).symm⟩

/-- **What is provisioned is what was declared, exactly for the declarations that lose only
defaults.** -/
theorem provisioned_as_declared (cfg : ApiConfig) (isUrl : String → Bool) (req : ApplyRequest)
    (slot : Slot) (decl : ResourceDeclaration) :
    AsDeclared cfg decl (callsFor cfg isUrl req slot decl) ↔ OnlyDefaultsLost cfg decl := by
  cases decl with
  | container c => exact iff_of_true (callsFor_container c) trivial
  | binary b => exact asDeclared_binary_iff b
  | volume v => exact asDeclared_volume_iff v
  | ingress i => exact iff_of_true ⟨_, rfl, rfl, callsFor_ingress i⟩ trivial
  | _ => exact Iff.rfl

/-- A worker that is started with an argument. -/
def sampleBinary : ResourceDeclaration :=
  .binary ⟨"worker", "shop", "/usr/bin/worker", ["--queue=orders"], "default", none, none, [], [], []⟩

/-- A file with a product and its worker. -/
def sampleBinaryApply : ApplyRequest := sampleApply 1 [sampleProduct "shop", sampleBinary]

/-- The worker is recorded, and is scheduled without its argument. -/
theorem binary_loses_args :
    (∃ d, declared sampleApi sampleBinary = some d ∧
      declaredEvent sampleApi sampleBinaryApply (sampleBinaryApply.slot 1 0) sampleBinary d ∈
        ((handleApply sampleApi sampleBinaryApply).run emptyApi).2.log.eventsSince 0) ∧
    ¬ AsDeclared sampleApi sampleBinary
      (callsFor sampleApi (fun _ => true) sampleBinaryApply (sampleBinaryApply.slot 1 0)
        sampleBinary) := by
  refine ⟨⟨_, rfl, by decide +kernel⟩, fun h => ?_⟩
  obtain ⟨hargs, -⟩ := (asDeclared_binary_iff _).mp h
  cases hargs

end Picloud
