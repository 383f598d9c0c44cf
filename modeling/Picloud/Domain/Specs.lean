import Picloud.Domain.Declarations
import Picloud.Storage.Volumes

/-!
# Specifications of workloads and volumes

Reference: `picloud-domain/src/workload.rs` and `storage.rs`, and the conversions `to_spec` and
`storage_intent` of `parser.rs`. The text of a JSON value and the number of millicores in a decimal
fraction of cores are parameters.
-/

namespace Picloud

open Lib

/-! ## Workloads -/

/-- `ResourceLimits`. -/
structure ResourceLimits where
  cpuMillicores : Option UInt32
  memoryMb : Option UInt32
deriving DecidableEq

/-- `VolumeMount`. -/
structure VolumeMount where
  volume : String
  path : String
  readOnly : Bool
deriving DecidableEq

/-- `EnvValue`. -/
inductive EnvValue where
  | literal (value : String)
  | secret (secret : String)
deriving DecidableEq

/-- `Protocol`. -/
inductive Protocol where
  | tcp
  | udp
deriving DecidableEq

/-- `PortMapping`. -/
structure PortMapping where
  port : UInt16
  protocol : Protocol
deriving DecidableEq

/-- `HealthCheckKind`. -/
inductive HealthCheckKind where
  | http (path : String) (port : UInt16)
  | tcp (port : UInt16)
  | process
deriving DecidableEq

/-- `HealthCheck`. -/
structure HealthCheck where
  kind : HealthCheckKind
  intervalSeconds : UInt32
  timeoutSeconds : UInt32
  failureThreshold : UInt32
deriving DecidableEq

/-- `RestartPolicy`. -/
inductive RestartPolicy where
  | always
  | onFailure (maxRetries : UInt32)
  | never
deriving DecidableEq

/-- `ContainerSpec`. -/
structure ContainerSpec where
  image : String
  identity : String
  resources : ResourceLimits
  mounts : List VolumeMount
  env : List (String × EnvValue)
  ports : List PortMapping
  healthCheck : Option HealthCheck
  restartPolicy : RestartPolicy
  productVersion : Option String
deriving DecidableEq

/-- `BinarySpec`. -/
structure BinarySpec where
  executable : String
  args : List String
  identity : String
  resources : ResourceLimits
  mounts : List VolumeMount
  env : List (String × EnvValue)
  restartPolicy : RestartPolicy
  productVersion : Option String
deriving DecidableEq

/-- What the conversions take from their libraries. -/
structure Formats where
  /-- `serde_json`'s text of a value. -/
  jsonText : Json → String
  /-- `s.parse::<f64>().ok().map(|cores| (cores * 1000.0) as u32)`. -/
  millisOfCores : String → Option UInt32

/-- `s.parse::<u32>()`. -/
def parseWord32 (s : String) : Option UInt32 :=
  ((parseNat s).filter (· < 2 ^ 32)).map UInt32.ofNat

/-- `s.strip_suffix(ending)`. -/
def stripEnd (ending s : String) : Option String :=
  if ending.toList <:+ s.toList then
    some (String.ofList (s.toList.take (s.length - ending.length)))
  else none

/-- `parse_cpu_millis`. -/
def parseCpuMillis (formats : Formats) (s : String) : Option UInt32 :=
  match stripEnd "m" s with
  | some millis => parseWord32 millis
  | none => formats.millisOfCores s

/-- `parse_memory_mb`; the product of gigabytes wraps around. -/
def parseMemoryMb (text : String) : Option UInt32 :=
  let s := trim text
  match (stripEnd "GB" s).or (stripEnd "gb" s) |>.or (stripEnd "Gi" s) with
  | some gb => (parseWord32 (trim gb)).map (· * 1024)
  | none =>
    match (stripEnd "MB" s).or (stripEnd "mb" s) |>.or (stripEnd "Mi" s) with
    | some mb => parseWord32 (trim mb)
    | none => parseWord32 s

/-- The limits of a workload. -/
def resourceLimits (formats : Formats) (cpu memory : Option String) : ResourceLimits :=
  ⟨cpu.bind (parseCpuMillis formats), memory.bind parseMemoryMb⟩

/-- A mount as the runtime takes it. -/
def MountDecl.toMount (m : MountDecl) : VolumeMount := ⟨m.volume, m.path, m.readOnly⟩

/-- The value of an environment variable: an object with the text `secret` refers to a secret, any
other object is written out, and what is neither an object nor a text becomes empty. -/
def envValue (formats : Formats) (v : Json) : EnvValue :=
  match v.asObject with
  | some _ =>
    match (v.get? "secret").bind Json.asStr with
    | some secret => .secret secret
    | none => .literal (formats.jsonText v)
  | none => .literal (v.asStr.getD "")

/-- The environment of a workload. -/
def envValues (formats : Formats) (env : List (String × Json)) : List (String × EnvValue) :=
  env.map fun e => (e.1, envValue formats e.2)

/-- `ContainerDecl::to_spec`. -/
def ContainerDecl.toSpec (formats : Formats) (c : ContainerDecl) : ContainerSpec where
  image := c.image
  identity := c.identity
  resources := resourceLimits formats c.cpu c.memory
  mounts := c.mounts.map MountDecl.toMount
  env := envValues formats c.env
  ports := c.ports.map fun p => ⟨p, .tcp⟩
  healthCheck := none
  restartPolicy := .always
  productVersion := none

/-- `BinaryDecl::to_spec`. -/
def BinaryDecl.toSpec (formats : Formats) (b : BinaryDecl) : BinarySpec where
  executable := b.executable
  args := b.args
  identity := b.identity
  resources := resourceLimits formats b.cpu b.memory
  mounts := b.mounts.map MountDecl.toMount
  env := envValues formats b.env
  restartPolicy := .always
  productVersion := none

/-! ## Volumes -/

/-- `PerformanceTier`. -/
inductive PerformanceTier where
  | standard
  | fast
  | archive
deriving DecidableEq

/-- `SnapshotSchedule`. -/
inductive SnapshotSchedule where
  | hourly
  | daily
  | weekly
deriving DecidableEq

/-- `SnapshotConfig`, with the three fields of its `retention`. -/
structure SnapshotConfig where
  enabled : Bool
  schedule : SnapshotSchedule
  storageSecret : String
  retentionDaily : UInt32
  retentionWeekly : UInt32
  retentionMonthly : UInt32
deriving DecidableEq

/-- `BackupFrequency`. -/
inductive BackupFrequency where
  | daily
  | weekly
deriving DecidableEq

/-- `OffsiteBackupConfig`. -/
structure OffsiteBackupConfig where
  enabled : Bool
  targetSecret : String
  frequency : BackupFrequency
  encryption : Bool
deriving DecidableEq

/-- `StorageIntent`. -/
structure StorageIntent where
  durability : DurabilityTier
  performance : PerformanceTier
  snapshots : Option SnapshotConfig
  offsite : Option OffsiteBackupConfig
deriving DecidableEq

/-- `StorageIntent::default`. -/
def StorageIntent.default : StorageIntent := ⟨.fullReplication, .standard, none, none⟩

/-- The durability a volume declares; what is unknown is replicated fully. -/
def durabilityOf : Option String → DurabilityTier
  | some "quorum" => .quorum
  | some "local" => .localOnly
  | some "none" => .none
  | _ => .fullReplication

/-- The performance a volume declares; what is unknown is standard. -/
def performanceOf : Option String → PerformanceTier
  | some "fast" => .fast
  | some "archive" => .archive
  | _ => .standard

/-- The snapshots a volume declares. -/
def SnapshotDeclBlock.toConfig (s : SnapshotDeclBlock) : SnapshotConfig where
  enabled := s.enabled
  schedule := match s.schedule with
    | "hourly" => .hourly
    | "weekly" => .weekly
    | _ => .daily
  storageSecret := s.storageSecret
  retentionDaily := s.retentionDaily
  retentionWeekly := s.retentionWeekly
  retentionMonthly := s.retentionMonthly

/-- The offsite backup a volume declares. -/
def OffsiteDeclBlock.toConfig (o : OffsiteDeclBlock) : OffsiteBackupConfig where
  enabled := o.enabled
  targetSecret := o.targetSecret
  frequency := match o.frequency with
    | "weekly" => .weekly
    | _ => .daily
  encryption := o.encryption

/-- `VolumeDecl::storage_intent`. -/
def VolumeDecl.storageIntent (v : VolumeDecl) : StorageIntent where
  durability := durabilityOf v.durability
  performance := performanceOf v.performance
  snapshots := v.snapshots.map SnapshotDeclBlock.toConfig
  offsite := v.offsite.map OffsiteDeclBlock.toConfig

/-- `format!("{:?}", durability)`. -/
def DurabilityTier.debug : DurabilityTier → String
  | .fullReplication => "FullReplication"
  | .quorum => "Quorum"
  | .localOnly => "Local"
  | .none => "None"

/-- `format!("{:?}", performance)`. -/
def PerformanceTier.debug : PerformanceTier → String
  | .standard => "Standard"
  | .fast => "Fast"
  | .archive => "Archive"

end Picloud
