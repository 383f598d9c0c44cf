import Picloud.Lib.Pool
import Picloud.Registry.BlobStore

/-!
# Blobs, byte by byte

Reference: `BlobStore` of `picloud-registry/src/blob_store.rs`, with calls at the same time and
crashes.

`fs::write` creates an empty file, or empties the one that is there, and then writes one byte after the
other; a crash leaves what has been written. A file is its inode: who writes to a file that has been
removed does not write to a new one of the same name. `path.exists()`, a read and a removal are one
step each.
-/

namespace Picloud

open Lib

/-! ## The disk -/

/-- A file with its inode. -/
structure DiskFile where
  inode : ℕ
  content : Bytes
deriving DecidableEq

/-- What a call has done to a blob. -/
inductive BlobEvent where
  /-- `put` has returned `Ok`. -/
  | stored (digest : String) (data : Bytes)
  /-- `get` has read the file, or found none. -/
  | got (digest : String) (result : Option Bytes)
  | deleted (digest : String)
deriving DecidableEq

/-- The file system, and what has happened. -/
structure BlobDisk where
  tree : FileTree DiskFile
  nextInode : ℕ
  log : List BlobEvent

namespace BlobDisk

variable (s : BlobDisk)

/-- Write to the log. -/
def record (event : BlobEvent) : BlobDisk := { s with log := s.log ++ [event] }

/-- `File::create`: the file is empty. Where it is, and its inode. -/
def createFile (names : List String) : Option (BlobDisk × Path × ℕ) :=
  (s.tree.target names).bind fun p =>
    match s.tree.get p with
    | some .dir => none
    | some (.file f) => some ({ s with tree := s.tree.put p (.file ⟨f.inode, []⟩) }, p, f.inode)
    | none => some ({ s with
        tree := s.tree.put p (.file ⟨s.nextInode, []⟩), nextInode := s.nextInode + 1 },
        p, s.nextInode)

/-- A byte at a position; what is before it and was never written is zero. -/
def overwrite (content : Bytes) (position : ℕ) (byte : UInt8) : Bytes :=
  content.take position ++ List.replicate (position - content.length) 0 ++
    byte :: content.drop (position + 1)

/-- Write a byte to an open file, which may have been removed. -/
def writeByte (p : Path) (inode position : ℕ) (byte : UInt8) : BlobDisk :=
  match s.tree.get p with
  | some (.file f) =>
    if f.inode = inode then
      { s with tree := s.tree.put p (.file ⟨inode, overwrite f.content position byte⟩) }
    else s
  | _ => s

end BlobDisk

/-! ## Calls -/

/-- The calls. -/
inductive BlobCall where
  | put (digest : String) (data : Bytes)
  | get (digest : String)
  | delete (digest : String)
deriving DecidableEq

/-- What a call returns. -/
inductive BlobReply where
  | stored (result : Except RegistryError Unit)
  | content (result : Except RegistryError Bytes)
  | deleted (result : Except RegistryError Unit)

/-- The steps of a call that are still to come. -/
inductive BlobTask where
  | put (digest : String) (data : Bytes)
  | create (digest : String) (data : Bytes)
  | write (digest : String) (data : Bytes) (path : Path) (inode written : ℕ)
  | get (digest : String)
  | delete (digest : String)
  | remove (digest : String)
  | done (reply : BlobReply)

/-- The task of a call. -/
def BlobCall.enter : BlobCall → BlobTask
  | .put digest data => .put digest data
  | .get digest => .get digest
  | .delete digest => .delete digest

section Steps

variable (env : RegistryEnv) (s : BlobDisk) (digest : String)

/-- `put` as far as `path.exists()`. -/
def startPut (data : Bytes) : BlobDisk × BlobTask :=
  match BlobStore.verify env digest data with
  | .error e => (s, .done (.stored (.error e)))
  | .ok () =>
    if s.tree.existsAt (env.blobPath digest) then
      (s.record (.stored digest data), .done (.stored (.ok ())))
    else (s, .create digest data)

/-- The first half of `fs::write`. -/
def startWrite (data : Bytes) : BlobDisk × BlobTask :=
  match s.createFile (env.blobPath digest) with
  | some (s, path, inode) => (s, .write digest data path inode 0)
  | none => (s, .done (.stored (.error (.registryError
      ("Failed to write blob " ++ digest ++ ": " ++ env.osError)))))

/-- The second half of `fs::write`: one byte, or the end. -/
def goOnWriting (data : Bytes) (path : Path) (inode written : ℕ) : BlobDisk × BlobTask :=
  match data[written]? with
  | some byte => (s.writeByte path inode written byte, .write digest data path inode (written + 1))
  | none => (s.record (.stored digest data), .done (.stored (.ok ())))

/-- `get`. -/
def readBlob : BlobDisk × BlobTask :=
  match s.tree.readAt (env.blobPath digest) with
  | some f => (s.record (.got digest (some f.content)), .done (.content (.ok f.content)))
  | none => (s.record (.got digest none), .done (.content (.error (.blobNotFound digest))))

/-- `delete` as far as `path.exists()`. -/
def startDelete : BlobDisk × BlobTask :=
  if s.tree.existsAt (env.blobPath digest) then (s, .remove digest)
  else (s.record (.deleted digest), .done (.deleted (.ok ())))

/-- `fs::remove_file`. -/
def removeBlob : BlobDisk × BlobTask :=
  match s.tree.removeAt (env.blobPath digest) with
  | some tree => ({ s with tree := tree }.record (.deleted digest), .done (.deleted (.ok ())))
  | none => (s, .done (.deleted (.error (.registryError
      ("Failed to delete blob " ++ digest ++ ": " ++ env.osError)))))

end Steps

/-- One step of a task. -/
def blobStep (env : RegistryEnv) (s : BlobDisk) : BlobTask → Option (BlobDisk × BlobTask)
  | .put digest data => some (startPut env s digest data)
  | .create digest data => some (startWrite env s digest data)
  | .write digest data path inode written => some (goOnWriting s digest data path inode written)
  | .get digest => some (readBlob env s digest)
  | .delete digest => some (startDelete env s digest)
  | .remove digest => some (removeBlob env s digest)
  | .done _ => none

/-- An action of the calls, or a crash after which the store is opened again. -/
inductive DiskAct where
  | act (a : Pool.Act BlobCall)
  | crash
deriving DecidableEq

/-- `BlobStore::new`. -/
def reopen (env : RegistryEnv) (s : BlobDisk) : BlobDisk :=
  { s with tree := (s.tree.makeDirs [] env.blobsDir).getD s.tree }

/-- One action. -/
def diskNext (env : RegistryEnv) (p : Pool BlobDisk BlobTask) :
    DiskAct → Option (Pool BlobDisk BlobTask)
  | .act a => Pool.next BlobCall.enter (blobStep env) p a
  | .crash => some ⟨reopen env p.shared, []⟩

end Picloud
