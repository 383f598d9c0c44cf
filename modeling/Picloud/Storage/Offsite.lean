import Picloud.Lib.Texts
import Picloud.Storage.Isolation

/-!
# Offsite backups

Reference: `OffsiteBackupManager` of `picloud-storage/src/backup.rs`.

The target is a map from keys to objects; a request to it may fail, and an upload that fails may have
stored its object all the same, when only the answer is lost. SHA-256, AES-256-GCM and the JSON of the manifests are parameters, and the nonces are drawn
in advance.
-/

namespace Picloud

open Lib

/-! ## Libraries -/

/-- Twelve random bytes. -/
structure Nonce where
  bytes : Bytes
  length_eq : bytes.length = 12
deriving DecidableEq

/-- `sha2`, `ring` and `serde_json`. -/
structure BackupLibs where
  sha256 : Bytes → Bytes
  /-- `seal_in_place_append_tag`, with a key and a nonce. -/
  sealInPlaceAppendTag : Bytes → Bytes → Bytes → Option Bytes
  /-- `open_in_place`, with a key and a nonce. -/
  openInPlace : Bytes → Bytes → Bytes → Option Bytes
  toVec : List String → Except String Bytes
  fromSlice : Bytes → Except String (List String)

/-- What has been sealed can be opened, and what has been written as JSON can be read. -/
structure BackupLibs.Inverts (libs : BackupLibs) : Prop where
  openInPlace_seal : ∀ {key nonce plaintext sealed},
    libs.sealInPlaceAppendTag key nonce plaintext = some sealed →
      libs.openInPlace key nonce sealed = some plaintext
  fromSlice_toVec : ∀ {hashes json}, libs.toVec hashes = .ok json → libs.fromSlice json = .ok hashes

namespace BackupEncryption

variable (libs : BackupLibs) (key : Bytes)

/-- `BackupEncryption::encrypt`. -/
def encrypt (nonce : Nonce) (plaintext : Bytes) : Except StorageError Bytes :=
  match libs.sealInPlaceAppendTag key nonce.bytes plaintext with
  | none => .error (.internal "AES-256-GCM encryption failed")
  | some inOut => .ok (nonce.bytes ++ inOut)

/-- `BackupEncryption::decrypt`. -/
def decrypt (ciphertextWithNonce : Bytes) : Except StorageError Bytes :=
  if ciphertextWithNonce.length < 12 then
    .error (.internal "Ciphertext too short — missing nonce")
  else
    match libs.openInPlace key (ciphertextWithNonce.take 12) (ciphertextWithNonce.drop 12) with
    | none => .error (.internal "AES-256-GCM decryption failed")
    | some plaintext => .ok plaintext

variable {libs key}

theorem decrypt_encrypt (hlibs : libs.Inverts) {nonce : Nonce} {plaintext encrypted : Bytes}
    (h : encrypt libs key nonce plaintext = .ok encrypted) :
    decrypt libs key encrypted = .ok plaintext := by
  rw [encrypt] at h
  split at h
  · cases h
  · next inOut hseal =>
    cases h
    have hlen : ¬ (nonce.bytes ++ inOut).length < 12 := by
      rw [List.length_append, nonce.length_eq]
      omega
    rw [decrypt, if_neg hlen, List.take_left' nonce.length_eq, List.drop_left' nonce.length_eq,
      hlibs.openInPlace_seal hseal]

end BackupEncryption

/-! ## Chunks and keys -/

/-- `ContentChunk`. -/
structure ContentChunk where
  hash : String
  data : Bytes
deriving DecidableEq

/-- The digest of a chunk, in hexadecimal. -/
def chunkHash (libs : BackupLibs) (data : Bytes) : String :=
  String.ofList (hexLower (libs.sha256 data))

/-- `chunk_and_hash`. -/
def chunkAndHash (libs : BackupLibs) (data : Bytes) (chunkSize : ℕ) : List ContentChunk :=
  (chunks chunkSize data).map fun chunk => ⟨chunkHash libs chunk, chunk⟩

/-- `sanitize_iri_for_path`. -/
def sanitizeIriForPath (iri : String) : String :=
  String.ofList ((replaceAll "http://".toList [] (replaceAll "https://".toList [] iri.toList)).map
    fun c => if c = ':' then '_' else c)

/-- `OffsiteBackupManager`, without its target. -/
structure OffsiteBackupManager where
  encryptionKey : Bytes
  keyPrefix : String
  chunkSize : ℕ

/-- The objects of a target. -/
abbrev BackupTarget := Assoc String Bytes

/-- `OffsiteBackupResult`. -/
structure OffsiteBackupResult where
  manifestKey : String
  totalChunks : ℕ
  dedupChunks : ℕ
  uploadedChunks : ℕ
  uploadedBytes : ℕ
deriving DecidableEq

/-- How an upload fails: the error, and whether the object is on the target nevertheless. -/
structure UploadFault where
  error : StorageError
  stored : Bool
deriving DecidableEq

/-- What a call meets at one of its objects: the error that asking for it ends in, the nonce that is
drawn for it and how uploading it fails. -/
structure Turn where
  existsError : Option StorageError
  nonce : Nonce
  uploadFault : Option UploadFault

/-- `upload`. -/
def BackupTarget.upload (target : BackupTarget) (key : String) (object : Bytes) :
    Option UploadFault → Except StorageError Unit × BackupTarget
  | none => (.ok (), Assoc.set target key object)
  | some fault => (.error fault.error, if fault.stored then Assoc.set target key object else target)

/-- What an upload can do: it stores the object, or it fails and stores nothing. -/
theorem BackupTarget.upload_cases {target target' : BackupTarget} {key : String} {object : Bytes}
    {fault : Option UploadFault} {r : Except StorageError Unit}
    (h : target.upload key object fault = (r, target')) :
    (target' = Assoc.set target key object ∧ fault.all UploadFault.stored = true) ∨
    (target' = target ∧ fault.all UploadFault.stored = false ∧ ∃ e, r = .error e) := by
  cases fault with
  | none =>
    cases h
    exact Or.inl ⟨rfl, rfl⟩
  | some fault =>
    obtain ⟨rfl, rfl⟩ := Prod.mk.inj h
    cases hstored : fault.stored with
    | true => exact Or.inl ⟨if_pos rfl, hstored⟩
    | false => exact Or.inr ⟨if_neg (by simp), hstored, fault.error, rfl⟩

namespace OffsiteBackupManager

variable (libs : BackupLibs) (m : OffsiteBackupManager)

/-- The key of an object of a volume. -/
def objectKey (volumeIri : ResourceIri) (kind name : String) : String :=
  m.keyPrefix ++ "/" ++ sanitizeIriForPath volumeIri.value ++ "/" ++ kind ++ "/" ++ name

/-- `chunk_key`. -/
def chunkKey (volumeIri : ResourceIri) (hash : String) : String := m.objectKey volumeIri "chunks" hash

/-- `manifest_key`. -/
def manifestKey (volumeIri : ResourceIri) (snapshotTimestamp : String) : String :=
  m.objectKey volumeIri "manifests" snapshotTimestamp

/-! ## Backing up -/

/-- The counters of `backup_snapshot`. -/
structure Counters where
  dedupChunks : ℕ
  uploadedChunks : ℕ
  uploadedBytes : ℕ
deriving DecidableEq

/-- The loop of `backup_snapshot`, from a turn on. -/
def uploadChunks (volumeIri : ResourceIri) (turns : ℕ → Turn) :
    ℕ → List ContentChunk → Counters → BackupTarget → Except StorageError Counters × BackupTarget
  | _, [], counters, target => (.ok counters, target)
  | turn, chunk :: rest, counters, target =>
    let key := m.chunkKey volumeIri chunk.hash
    match (turns turn).existsError with
    | some e => (.error e, target)
    | none =>
      if (Assoc.get target key).isSome then
        uploadChunks volumeIri turns (turn + 1) rest
          { counters with dedupChunks := counters.dedupChunks + 1 } target
      else
        match BackupEncryption.encrypt libs m.encryptionKey (turns turn).nonce chunk.data with
        | .error e => (.error e, target)
        | .ok encrypted =>
          match target.upload key encrypted (turns turn).uploadFault with
          | (.error e, target) => (.error e, target)
          | (.ok (), target) =>
            uploadChunks volumeIri turns (turn + 1) rest
              { counters with
                uploadedChunks := counters.uploadedChunks + 1
                uploadedBytes := counters.uploadedBytes + encrypted.length }
              target

/-- The end of `backup_snapshot`: the manifest. -/
def uploadManifest (volumeIri : ResourceIri) (snapshotTimestamp : String) (hashes : List String)
    (turn : Turn) (target : BackupTarget) : Except StorageError Unit × BackupTarget :=
  match libs.toVec hashes with
  | .error e => (.error (.internal ("manifest serialization: " ++ e)), target)
  | .ok manifestJson =>
    match BackupEncryption.encrypt libs m.encryptionKey turn.nonce manifestJson with
    | .error e => (.error e, target)
    | .ok encryptedManifest =>
      target.upload (m.manifestKey volumeIri snapshotTimestamp) encryptedManifest turn.uploadFault

/-- `backup_snapshot`. -/
def backupSnapshot (target : BackupTarget) (volumeIri : ResourceIri) (snapshotTimestamp : String)
    (snapshotData : Bytes) (turns : ℕ → Turn) :
    Except StorageError OffsiteBackupResult × BackupTarget :=
  let chunks := chunkAndHash libs snapshotData m.chunkSize
  match m.uploadChunks libs volumeIri turns 0 chunks ⟨0, 0, 0⟩ target with
  | (.error e, target) => (.error e, target)
  | (.ok counters, target) =>
    match m.uploadManifest libs volumeIri snapshotTimestamp (chunks.map ContentChunk.hash)
        (turns chunks.length) target with
    | (.error e, target) => (.error e, target)
    | (.ok (), target) => (.ok ⟨m.manifestKey volumeIri snapshotTimestamp, chunks.length,
        counters.dedupChunks, counters.uploadedChunks, counters.uploadedBytes⟩, target)

/-! ## Restoring -/

/-- `download`. -/
def download (target : BackupTarget) (key : String) : Except StorageError Bytes :=
  match Assoc.get target key with
  | none => .error (.resourceNotFound key)
  | some object => .ok object

/-- The loop of `restore_snapshot`. -/
def downloadChunks (target : BackupTarget) (volumeIri : ResourceIri) :
    List String → Except StorageError Bytes
  | [] => .ok []
  | hash :: rest => do
    let encryptedChunk ← download target (m.chunkKey volumeIri hash)
    let plaintext ← BackupEncryption.decrypt libs m.encryptionKey encryptedChunk
    let output ← downloadChunks target volumeIri rest
    return plaintext ++ output

/-- `restore_snapshot`. -/
def restoreSnapshot (target : BackupTarget) (volumeIri : ResourceIri) (snapshotTimestamp : String) :
    Except StorageError Bytes := do
  let encryptedManifest ← download target (m.manifestKey volumeIri snapshotTimestamp)
  let manifestJson ← BackupEncryption.decrypt libs m.encryptionKey encryptedManifest
  match libs.fromSlice manifestJson with
  | .error e => .error (.internal ("manifest parse: " ++ e))
  | .ok chunkHashes => m.downloadChunks libs target volumeIri chunkHashes

end OffsiteBackupManager

end Picloud
