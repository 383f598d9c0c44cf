import Picloud.Lib.FilePaths
import Picloud.Lib.JsonLines
import Picloud.Lib.Texts

/-!
# Blobs

Reference: `BlobStore` of `picloud-registry/src/blob_store.rs`.

A blob is a file under the hash in its digest. SHA-256 and the text of an error of the operating system
are parameters.
-/

namespace Picloud

open Lib

/-! ## Digests -/

/-- `PiCloudError`, as far as the registry raises it. -/
inductive RegistryError where
  | imageNotFound (repository reference : String)
  | blobNotFound (digest : String)
  | registryError (reason : String)
deriving DecidableEq

/-- Where the registry is, and what it takes from outside. -/
structure RegistryEnv where
  root : Path
  sha256 : Bytes → Bytes
  osError : String

/-- `digest.strip_prefix("sha256:").unwrap_or(digest)`. -/
def hashOf (digest : String) : String :=
  if "sha256:".toList <+: digest.toList then String.ofList (digest.toList.drop 7) else digest

/-- The digest of a hash. -/
def digestOfHash (hash : String) : String := "sha256:" ++ hash

namespace RegistryEnv

variable (env : RegistryEnv)

/-- `hex::encode(Sha256::digest(data))`. -/
def hexHash (data : Bytes) : String := String.ofList (hexLower (env.sha256 data))

/-- The digest of some data. -/
def digest (data : Bytes) : String := digestOfHash (env.hexHash data)

/-- The directory of the blobs. -/
def blobsDir : Path := env.root ++ ["blobs", "sha256"]

/-- `blob_path`. -/
def blobPath (digest : String) : List String := joinPath env.blobsDir (hashOf digest)

end RegistryEnv

/-! ## The blob store -/

namespace BlobStore

variable (env : RegistryEnv)

/-- The check of `put`: the digest is that of the data. -/
def verify (digest : String) (data : Bytes) : Except RegistryError Unit :=
  if env.hexHash data ≠ hashOf digest then
    .error (.registryError ("Digest mismatch: expected sha256:" ++ hashOf digest ++
      ", got sha256:" ++ env.hexHash data))
  else .ok ()

end BlobStore

/-! ## Hashes as names -/

section Hashes

variable {env : RegistryEnv}

theorem slash_notMem_hexHash (data : Bytes) : '/' ∉ (env.hexHash data).toList := by
  rw [RegistryEnv.hexHash, String.toList_ofList]
  exact slash_notMem_hexLower _

theorem blobPath_of_notMem {digest : String} (h : '/' ∉ (hashOf digest).toList) :
    env.blobPath digest = env.blobsDir ++ [hashOf digest] := joinPath_of_notMem h

/-- The data that passes the check lies under its own hash. -/
theorem hashOf_of_verify {digest : String} {data : Bytes}
    (h : BlobStore.verify env digest data = .ok ()) : hashOf digest = env.hexHash data := by
  rw [BlobStore.verify] at h
  split_ifs at h with hne
  exact (not_not.mp hne).symm

end Hashes

end Picloud
