import Picloud.Rdf.ResourceEvents
import Picloud.Events.Log

/-!
# Handlers of registry, snapshot and backup events

Reference: `picloud-rdf/src/implementation.rs`, the handlers of the OCI registry and of volume
snapshots and backups.
-/

namespace Picloud

open Lib

/-! ## Images -/

/-- The IRI of a repository. -/
def repositoryIri (env : ProjectorEnv) (repository : String) : String :=
  env.iris.base ++ "/registry/" ++ repository

/-- The IRI of an image. -/
def imageIri (env : ProjectorEnv) (repository digest : String) : String :=
  repositoryIri env repository ++ "/digests/" ++ digest

/-- The IRI of an image tag. -/
def imageTagIri (env : ProjectorEnv) (repository tag : String) : String :=
  repositoryIri env repository ++ "/tags/" ++ tag

/-- `project_image_pushed`. -/
def projectImagePushed (env : ProjectorEnv) (event : EventEnvelope) : Script :=
  let repository := event.strD "repository" ""
  let digest := event.strD "digest" ""
  let sizeBytes := (event.payload.index "size_bytes").asU64.getD 0
  let pushedBy := event.strD "pushed_by" ""
  let repo := repositoryIri env repository
  let image := imageIri env repository digest
  [.ops (insertTriple repo rdfType (picloudTerm "Repository") ++
    insertTriple repo (pc "repositoryName") (simple repository) ++
    insertTriple image rdfType (picloudTerm "Image") ++
    insertTriple image (pc "digest") (simple digest) ++
    insertTriple image (pc "sizeBytes") (typed (toString sizeBytes) xsdUnsignedLong) ++
    insertTriple image (pc "mediaType") (simple (event.strD "media_type" "")) ++
    (if pushedBy = "" then [] else insertTriple image (pc "pushedBy") (simple pushedBy)) ++
    insertTriple image (pc "pushedAt") (typed (env.rfc3339 event.timestamp) xsdDateTime) ++
    insertNode repo (pc "hasImage") "invalid image IRI: " image ++
    (event.str "tag").toList.flatMap fun tag =>
      let tagIri := imageTagIri env repository tag
      if tag = "" then []
      else
        insertTriple tagIri rdfType (picloudTerm "ImageTag") ++
          insertTriple tagIri (pc "tagName") (simple tag) ++
          insertNode tagIri (pc "pointsToDigest") "invalid image IRI: " image ++
          insertNode repo (pc "hasTag") "invalid tag IRI: " tagIri)]

/-- The removals for the tags that point to a deleted image: everything about each tag, and its link
from the repository. -/
def removeTagsOf (env : ProjectorEnv) (repo image : String) (s : Store) : List Op :=
  (env.scan (s.quadsForPattern
    ⟨none, some ⟨pc "pointsToDigest"⟩, some (node image), some .default⟩)).flatMap fun q =>
      let tagIri := q.subject.text
      removeTriplesAbout tagIri ++
        [.named "invalid repo IRI: " repo, .named "invalid predicate: " (pc "hasTag"),
          .named "invalid tag IRI: " tagIri,
          .del (quad repo (pc "hasTag") (node tagIri) .default).pattern]

/-- `project_image_deleted`. -/
def projectImageDeleted (env : ProjectorEnv) (event : EventEnvelope) : Script :=
  let repository := event.strD "repository" ""
  let repo := repositoryIri env repository
  let image := imageIri env repository (event.strD "digest" "")
  [.ops ([.named "invalid repo IRI: " repo, .named "invalid predicate: " (pc "hasImage"),
      .named "invalid image IRI: " image,
      .del (quad repo (pc "hasImage") (node image) .default).pattern] ++
      removeTriplesAbout image),
    .read (removeTagsOf env repo image)]

/-- `project_image_tag_updated`. -/
def projectImageTagUpdated (env : ProjectorEnv) (event : EventEnvelope) : Script :=
  let repository := event.strD "repository" ""
  let tag := event.strD "tag" ""
  let tagIri := imageTagIri env repository tag
  [.ops (.named "invalid tag IRI: " tagIri :: clearInDefault tagIri (pc "pointsToDigest") ++
    insertNode tagIri (pc "pointsToDigest") "invalid image IRI: "
      (imageIri env repository (event.strD "new_digest" "")) ++
    insertTriple tagIri rdfType (picloudTerm "ImageTag") ++
    insertTriple tagIri (pc "tagName") (simple tag))]

/-! ## Garbage collection -/

/-- The IRI of a garbage collection. -/
def gcIri (env : ProjectorEnv) (id : Uuid) : String := env.iris.base ++ "/registry/gc/" ++ id.display

/-- `project_registry_gc_started`. -/
def projectRegistryGcStarted (env : ProjectorEnv) (event : EventEnvelope) : Script :=
  let iri := gcIri env event.id
  [.ops (insertTriple iri rdfType (picloudTerm "RegistryGC") ++
    insertTriple iri (pc "status") (simple "running") ++
    insertTriple iri (pc "scheduledAt") (typed (event.strD "scheduled_at" "") xsdDateTime))]

/-- The first answer to the query for a running garbage collection. -/
def runningGc (env : ProjectorEnv) (s : Store) : Option String :=
  ((env.scan (s.quadsForPattern
    ⟨none, some ⟨rdfType⟩, some (picloudTerm "RegistryGC"), some .default⟩)).filter fun q =>
      ⟨q.subject, ⟨pc "status"⟩, simple "running", .default⟩ ∈ s).head?.map (·.subject.text)

/-- The updates of `project_registry_gc_completed`: without a running collection the IRI is made
from the correlation id. -/
def completeGc (env : ProjectorEnv) (event : EventEnvelope) (s : Store) : List Op :=
  let iri := (runningGc env s).getD (gcIri env event.correlationId)
  let count := fun field => typed (toString ((event.payload.index field).asU64.getD 0)) xsdUnsignedLong
  updateStatus env iri "completed" none ++
    insertTriple iri (pc "blobsDeleted") (count "blobs_deleted") ++
    insertTriple iri (pc "bytesReclaimed") (count "bytes_reclaimed") ++
    insertTriple iri (pc "durationMs") (count "duration_ms") ++
    insertTriple iri (pc "completedAt") (typed (env.rfc3339 event.timestamp) xsdDateTime)

/-- `project_registry_gc_completed`. -/
def projectRegistryGcCompleted (env : ProjectorEnv) (event : EventEnvelope) : Script :=
  [.read (completeGc env event)]

/-! ## Snapshots -/

/-- What a query prints for an object. -/
def termText : Term → String
  | .named n => n.value
  | .blank id => id
  | .literal l => l.value
  | .triple text => text

/-- The count of snapshots the query finds, 0 without one or if it is no `u64`. -/
def currentSnapshotCount (env : ProjectorEnv) (volumeIri : String) (s : Store) : ℕ :=
  let found := (env.scan (s.quadsForPattern
    (valuesOf volumeIri (pc "snapshotCount") (some .default)))).head?
  ((found.bind fun q => parseNat (termText q.object)).filter (· < 2 ^ 64)).getD 0

/-- The replacement of the count of snapshots by the next one. -/
def countSnapshot (env : ProjectorEnv) (volumeIri : String) (s : Store) : List Op :=
  let current := currentSnapshotCount env volumeIri s
  [.named "invalid IRI: " volumeIri, .named "invalid predicate: " (pc "snapshotCount"),
    .del (quad volumeIri (pc "snapshotCount") (simple (toString current)) .default).pattern] ++
    insertTriple volumeIri (pc "snapshotCount") (simple (toString ((current + 1) % 2 ^ 64)))

/-- `project_snapshot_created`. -/
def projectSnapshotCreated (env : ProjectorEnv) (event : EventEnvelope) : Script :=
  let volumeIri := event.iriOrSource "volume_iri"
  let snapshotPath := event.strD "snapshot_path" ""
  let createdAt := event.strD "created_at" (env.rfc3339 event.timestamp)
  let snapshotIri := volumeIri ++ "/snapshots/" ++ createdAt
  [.ops (insertTriple snapshotIri rdfType (picloudTerm "SnapshotCreated") ++
      insertTriple snapshotIri rdfType (picloudTerm "Snapshot") ++
      insertNode snapshotIri (pc "volume") "invalid volume IRI: " volumeIri ++
      insertTriple snapshotIri (pc "createdAt") (simple createdAt) ++
      (if snapshotPath = "" then []
        else insertTriple snapshotIri (pc "snapshotPath") (simple snapshotPath)) ++
      insertTriple volumeIri (pc "lastSnapshotAt") (simple createdAt) ++
      insertTriple volumeIri (pc "lastSnapshotStatus") (simple "success") ++
      insertTriple volumeIri (pc "lastSnapshotPath") (simple snapshotPath)),
    .read (countSnapshot env volumeIri)]

/-- An event resource of a volume: its type, its volume and its time. -/
def volumeEvent (iri volumeIri className timeProperty time : String) : List Op :=
  insertTriple iri rdfType (picloudTerm className) ++
    insertNode iri (pc "volume") "invalid volume IRI: " volumeIri ++
    insertTriple iri (pc timeProperty) (simple time)

/-- `project_snapshot_deleted`. -/
def projectSnapshotDeleted (env : ProjectorEnv) (event : EventEnvelope) : Script :=
  let volumeIri := event.iriOrSource "volume_iri"
  let deletedAt := event.strD "deleted_at" (env.rfc3339 event.timestamp)
  [.ops (volumeEvent (volumeIri ++ "/snapshot-deletions/" ++ deletedAt) volumeIri
    "SnapshotDeleted" "deletedAt" deletedAt)]

/-- `project_restore_completed`. -/
def projectRestoreCompleted (env : ProjectorEnv) (event : EventEnvelope) : Script :=
  let volumeIri := event.iriOrSource "volume_iri"
  let completedAt := event.strD "completed_at" (env.rfc3339 event.timestamp)
  [.ops (volumeEvent (volumeIri ++ "/restores/" ++ completedAt) volumeIri
    "RestoreCompleted" "completedAt" completedAt)]

/-! ## Backups -/

/-- `project_backup_completed`. -/
def projectBackupCompleted (env : ProjectorEnv) (event : EventEnvelope) : Script :=
  let volumeIri := event.iriOrSource "volume_iri"
  let completedAt := event.strD "completed_at" (env.rfc3339 event.timestamp)
  [.ops (volumeEvent (volumeIri ++ "/backups/" ++ completedAt) volumeIri
      "BackupCompleted" "completedAt" completedAt ++
    insertTriple volumeIri (pc "lastBackupAt") (simple completedAt) ++
    insertTriple volumeIri (pc "lastBackupStatus") (simple "success"))]

/-- `project_backup_failed`: it also raises an alert. -/
def projectBackupFailed (env : ProjectorEnv) (event : EventEnvelope) : Script :=
  let volumeIri := event.iriOrSource "volume_iri"
  let reason := event.strD "reason" "unknown"
  let alert := volumeIri ++ "/alerts/backupfailed"
  [.ops (insertTriple volumeIri (pc "lastBackupStatus") (simple "failed") ++
    insertTriple alert rdfType (picloudTerm "Alert") ++
    insertTriple alert (pc "alertType") (simple "BackupFailed") ++
    insertTriple alert (pc "alertSeverity") (simple "critical") ++
    insertTriple alert (pc "alertMessage") (simple ("Offsite backup failed: " ++ reason)) ++
    tryInsertNode env alert (pc "alertResource") volumeIri)]

end Picloud
