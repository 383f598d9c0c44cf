import Picloud.Domain.Http
import Picloud.Domain.Payload
import Picloud.Lib.JsonLines
import Picloud.Lib.LexicalPaths
import Picloud.Storage.FileSync

/-!
# File requests to volumes

Reference: `handle_volume_write`, `handle_volume_read` and `handle_storage_sync` of
`picloud-http/src/implementation.rs`.

The handlers put product, volume and path of a request together and leave it to the operating system where
that leads. The file system is a tree without links. Each run records the files that are written or read.
-/

namespace Picloud

open Lib Lib.FileTree

/-! ## The file system -/

/-- `Path::parent`: the empty name and `.` at the end of a path are no components. -/
def parentPath (names : List String) : List String :=
  (names.rdropWhile fun name => name = "" ∨ name = ".").dropLast

/-- What the operating system says to paths. -/
structure PathSystem where
  /-- The path is not taken at all. -/
  refuses : List String → Bool
  /-- The text of an error. -/
  message : List String → String
  /-- No path contains a NUL character. -/
  nul : ∀ names, (∃ name ∈ names, '\x00' ∈ name.toList) → refuses names = true

namespace PathSystem

variable (os : PathSystem) (t : FileTree Bytes) (names : List String)

/-- `create_dir_all`. -/
def createDirAll : Option (FileTree Bytes) := if os.refuses names then none else t.makeDirs [] names

/-- `fs::write`, with the file that is written. -/
def write (content : Bytes) : Option (FileTree Bytes × Path) :=
  if os.refuses names then none
  else (t.target names).bind fun p => (t.writeFile p content).map fun t' => (t', p)

/-- The file that is read, with its contents. -/
def read : Option (Bytes × Path) :=
  if os.refuses names then none
  else (t.walk [] names).bind fun p => match t.get p with
    | some (.file content) => some (content, p)
    | _ => none

end PathSystem

/-! ## The handlers -/

/-- What a request does. -/
structure VolumeRun where
  reply : HttpResponse
  files : FileTree Bytes
  touched : List Path

/-- The answer of a server without storage. -/
def noStorage (message : String) (t : FileTree Bytes) : VolumeRun := ⟨.error 503 message, t, []⟩

/-- `path.trim_start_matches('/')`. -/
def trimSlashes (path : String) : String := String.ofList (path.toList.dropWhile (· = '/'))

/-- The product, the volume and the path of a request. -/
structure FileRequest where
  product : String
  volume : String
  path : String

/-- `storage_path.join(format!("{}/{}", product, volume))`. -/
def volumeDirNames (storage : List String) (r : FileRequest) : List String :=
  joinPath storage (r.product ++ "/" ++ r.volume)

/-- The path of the file of a request. -/
def requestNames (storage : List String) (r : FileRequest) : List String :=
  joinPath (volumeDirNames storage r) (trimSlashes r.path)

/-- What a body asks for. -/
def bodyRequest (body : Json) : FileRequest where
  product := (body.index "product").asStr.getD "default"
  volume := (body.index "volume").asStr.getD "default"
  path := (body.index "path").asStr.getD "/data/file"

/-- What parameters ask for. -/
def paramsRequest (params : Assoc String String) : FileRequest where
  product := (params.get "product").getD "default"
  volume := (params.get "volume").getD "default"
  path := (params.get "path").getD "/data/file"

section Handlers

variable (os : PathSystem)

/-- `handle_volume_write`, with a storage path and what the body asks for. -/
def writeToVolume (storage : List String) (t : FileTree Bytes) (r : FileRequest) (content : String) : VolumeRun :=
  match os.createDirAll t (volumeDirNames storage r) with
  | none => ⟨.error 500 ("failed to create volume dir: " ++ os.message (volumeDirNames storage r)), t, []⟩
  | some t =>
    let filePath := requestNames storage r
    let t := (os.createDirAll t (parentPath filePath)).getD t
    match os.write t filePath (utf8 content) with
    | some (t, p) => ⟨⟨200, .object [("status", .string "ok"), ("path", .string r.path),
        ("bytes_written", .number (.posInt (UInt64.ofNat (utf8 content).length)))]⟩, t, [p]⟩
    | none => ⟨.error 500 ("write failed: " ++ os.message filePath), t, []⟩

/-- `handle_volume_write`. -/
def handleVolumeWrite (storage : Option (List String)) (t : FileTree Bytes) (body : Json) : VolumeRun :=
  match storage with
  | none => noStorage "storage path not configured" t
  | some storage => writeToVolume os storage t (bodyRequest body) ((body.index "content").asStr.getD "")

/-- `handle_volume_read`, with a storage path and what the parameters ask for. -/
def readFromVolume (storage : List String) (t : FileTree Bytes) (r : FileRequest) : VolumeRun :=
  let filePath := requestNames storage r
  match os.read t filePath with
  | none => ⟨.error 404 ("read failed: " ++ os.message filePath), t, []⟩
  | some (bytes, p) =>
    match ofUtf8 bytes with
    | some content => ⟨⟨200, .object [("status", .string "ok"), ("content", .string content),
        ("path", .string r.path)]⟩, t, [p]⟩
    -- `read_to_string` has read the file by then
    | none => ⟨.error 404 ("read failed: " ++ os.message filePath), t, [p]⟩

/-- `handle_volume_read`. -/
def handleVolumeRead (storage : Option (List String)) (t : FileTree Bytes) (params : Assoc String String) :
    VolumeRun :=
  match storage with
  | none => noStorage "storage path not configured" t
  | some storage => readFromVolume os storage t (paramsRequest params)

/-- The entries that have been dealt with. -/
structure SyncProgress where
  files : FileTree Bytes
  synced : ℕ
  errors : List String
  touched : List Path

/-- One round of the loop of `handle_storage_sync`. -/
def syncEntry (volumePath : List String) (s : SyncProgress) (entry : SyncFileEntry) : SyncProgress :=
  let filePath := joinPath volumePath entry.path
  match os.createDirAll s.files (parentPath filePath) with
  | none => { s with errors := s.errors ++ [entry.path ++ ": " ++ os.message (parentPath filePath)] }
  | some t =>
    match Base64.decode entry.data with
    | none => { s with files := t, errors := s.errors ++ [entry.path ++ ": base64 decode error: " ++
        os.message [entry.data]] }
    | some data =>
      match os.write t filePath data with
      | none => { s with files := t, errors := s.errors ++ [entry.path ++ ": write error: " ++
          os.message filePath] }
      | some (t, p) => { s with files := t, synced := s.synced + 1, touched := s.touched ++ [p] }

/-- `handle_storage_sync`, with a storage path. -/
def syncVolume (storage : List String) (t : FileTree Bytes) (volume : String) (files : List SyncFileEntry) :
    VolumeRun :=
  let volumePath := joinPath storage volume
  match os.createDirAll t volumePath with
  | none => ⟨.error 500 ("Failed to create volume directory: " ++ os.message volumePath), t, []⟩
  | some t =>
    let s := files.foldl (syncEntry os volumePath) ⟨t, 0, [], []⟩
    let counted := [("synced", Json.number (.posInt (UInt64.ofNat s.synced))), ("volume", .string volume)]
    if s.errors = [] then ⟨⟨200, .object counted⟩, s.files, s.touched⟩
    else ⟨⟨207, .object (counted ++ [("errors", .array (s.errors.map Json.string))])⟩, s.files, s.touched⟩

/-- `handle_storage_sync`. -/
def handleStorageSync (storage : Option (List String)) (t : FileTree Bytes) (volume : String)
    (files : List SyncFileEntry) : VolumeRun :=
  match storage with
  | none => noStorage "Storage path not configured" t
  | some storage => syncVolume os storage t volume files

end Handlers

/-! ## Staying inside -/

/-- The place lies below the directory, which lies in the storage directory. -/
def Below (storage directory : List String) (p : Path) : Prop :=
  resolve [] storage <+: resolve [] directory ∧ resolve [] directory <+: p ∧ p ≠ resolve [] directory

/-- The directory `storage_path/product/volume` or `storage_path/volume`. -/
def directoryOf (storage : List String) (volume : String) : List String := storage ++ pathNames volume

/-- The request stays inside: all files that it names lie where they should and it touches only these, or it is
refused and no file is touched. -/
def Guarded (inside : Path → Prop) (named : List Path) (t : FileTree Bytes) (run : VolumeRun) : Prop :=
  (∀ p ∈ named, inside p) ∧ (∀ p ∈ run.touched, p ∈ named) ∨
    run.touched = [] ∧ run.reply.status ≠ 200 ∧ SameFiles t run.files

/-- A path with a NUL character. -/
def HasNul (names : List String) : Prop := ∃ name ∈ names, '\x00' ∈ name.toList

instance (names : List String) : Decidable (HasNul names) := inferInstanceAs (Decidable (∃ _ ∈ _, _))

/-- No file can be opened by this path, once there is the directory. -/
def Unopenable (directory names : List String) : Prop := HasNul names ∨ Blocked [directory] names

/-- A request for a file stays inside by its text, or there is nothing to open. -/
def FileRequest.Harmless (storage : List String) (r : FileRequest) : Prop :=
  Below storage (directoryOf storage (r.product ++ "/" ++ r.volume)) (resolve [] (requestNames storage r)) ∨
    Unopenable (volumeDirNames storage r) (requestNames storage r)

/-- No file can be stored for the entry. -/
def Unstorable (volumePath : List String) (entry : SyncFileEntry) : Prop :=
  Base64.decode entry.data = none ∨ Unopenable volumePath (joinPath volumePath entry.path)

/-- All entries stay inside by their texts, or there is nothing to store. -/
def SyncHarmless (storage : List String) (volume : String) (files : List SyncFileEntry) : Prop :=
  HasNul (joinPath storage volume) ∨
    (∀ e ∈ files, Below storage (directoryOf storage volume) (resolve [] (joinPath (joinPath storage volume) e.path))) ∨
    ∀ e ∈ files, Unstorable (joinPath storage volume) e

/-! ## What the operations do -/

section Operations

variable {os : PathSystem} {t t' : FileTree Bytes} {names directory : List String} {p : Path} {content : Bytes}

theorem makeDirs_of_createDirAll (h : os.createDirAll t names = some t') :
    os.refuses names = false ∧ t.makeDirs [] names = some t' := by
  rw [PathSystem.createDirAll] at h
  split_ifs at h with hrefuses
  exact ⟨by simpa using hrefuses, h⟩

theorem write_eq_some (h : os.write t names content = some (t', p)) :
    t.target names = some p ∧ t.writeFile p content = some t' ∧ p = resolve [] names := by
  rw [PathSystem.write] at h
  split_ifs at h
  obtain ⟨q, htarget, hq⟩ := Option.bind_eq_some_iff.mp h
  obtain ⟨t₁, hwrite, heq⟩ := Option.map_eq_some_iff.mp hq
  cases heq
  exact ⟨htarget, hwrite, (eq_resolve_of_target htarget).1⟩

/-- Where nothing can be opened nothing is written. -/
theorem write_eq_none (os : PathSystem) (content : Bytes) (h : Unopenable directory names)
    (hdirs : ∀ way, way <+: directory → t.get (resolve [] way) = some .dir) : os.write t names content = none := by
  rw [PathSystem.write]
  rcases h with hnul | hblocked
  · rw [if_pos (os.nul names hnul)]
  · split_ifs with hrefuses
    · rfl
    · cases htarget : t.target names with
      | none => rfl
      | some q =>
        have hnone := writeFile_eq_none_of_blocked hblocked
          (fun through hthrough => (List.mem_singleton.mp hthrough) ▸ hdirs) htarget content
        rw [Option.bind_some, hnone, Option.map_none]

/-- Creating directories keeps what there is, whether or not it succeeds. -/
theorem getD_createDirAll_kinds (os : PathSystem) (t : FileTree Bytes) (names : List String) :
    KeepsKinds t ((os.createDirAll t names).getD t) ∧ SameFiles t ((os.createDirAll t names).getD t) := by
  cases h : os.createDirAll t names with
  | none => exact ⟨KeepsKinds.refl t, SameFiles.refl t⟩
  | some t' => exact makeDirs_kinds (makeDirs_of_createDirAll h).2

/-- The parent of a path that ends in a name. -/
theorem parentPath_of_isName {name : String} (hlast : names.getLast? = some name) (hname : IsName name) :
    parentPath names = names.dropLast := by
  obtain ⟨before, rfl⟩ := List.getLast?_eq_some_iff.mp hlast
  rw [parentPath, List.rdropWhile_concat_neg _ _ _ (by simpa using ⟨hname.1, hname.2.1⟩)]

end Operations

/-! ## A system that takes every path -/

/-- A system that refuses nothing but NUL characters. -/
def openSystem : PathSystem where
  refuses := fun names => decide (HasNul names)
  message := fun _ => ""
  nul := fun _ h => decide_eq_true h

section OpenSystem

variable {t : FileTree Bytes} {names directory : List String}

theorem openSystem_createDirAll (hnul : ¬ HasNul names) : openSystem.createDirAll t names = t.makeDirs [] names :=
  if_neg (by simpa [openSystem] using hnul)

theorem HasNul.mono {names' : List String} (h : names ⊆ names') (hnul : HasNul names) : HasNul names' := by
  obtain ⟨name, hname, hmem⟩ := hnul
  exact ⟨name, h hname, hmem⟩

/-- In a tree that is ready for the file no directory is missing. -/
theorem openSystem_parent (hready : t.Ready [directory] names) (hnul : ¬ HasNul names) :
    openSystem.createDirAll t (parentPath names) = some t := by
  obtain ⟨name, hlast, hname⟩ := hready.name
  rw [parentPath_of_isName hlast hname,
    openSystem_createDirAll fun h => hnul (h.mono (List.dropLast_subset names))]
  exact hready.makeDirs List.mem_cons_self

theorem openSystem_write (hready : t.Ready [directory] names) (hnul : ¬ HasNul names) (content : Bytes) :
    ∃ t', openSystem.write t names content = some (t', resolve [] names) := by
  obtain ⟨htarget, t', hwrite, -⟩ := hready.writeAt content
  refine ⟨t', ?_⟩
  rw [PathSystem.write, if_neg (by simpa [openSystem] using hnul), htarget, Option.bind_some, hwrite]
  rfl

end OpenSystem

/-! ## Requests for one file -/

section OneFile

variable {storage : List String} {r : FileRequest}

theorem head_trimSlashes (path : String) : (trimSlashes path).toList.head? ≠ some '/' := by
  rw [trimSlashes, String.toList_ofList]
  intro h
  have hhead := List.head?_dropWhile_not (fun c => decide (c = '/')) path.toList
  rw [h] at hhead
  simp at hhead

/-- The path is looked up in the directory of the volume. -/
theorem requestNames_eq (storage : List String) (r : FileRequest) :
    requestNames storage r = volumeDirNames storage r ++ pathNames (trimSlashes r.path) :=
  if_neg (head_trimSlashes r.path)

theorem volumeDirNames_isPrefix (storage : List String) (r : FileRequest) :
    volumeDirNames storage r <+: (requestNames storage r).dropLast := by
  have hne : pathNames (trimSlashes r.path) ≠ [] := by
    rw [pathNames, Ne, List.map_eq_nil_iff]
    exact List.splitOn_ne_nil _ _
  rw [requestNames_eq, List.dropLast_append_of_ne_nil hne]
  exact List.prefix_append _ _

theorem not_hasNul_volumeDirNames (h : ¬ HasNul (requestNames storage r)) : ¬ HasNul (volumeDirNames storage r) :=
  fun hnul => h (hnul.mono (requestNames_eq storage r ▸ List.subset_append_left _ _))

/-- What the text of a request leaves open: where its file is, in every tree and on every system. -/
def OneFileGuarded (storage : List String) (r : FileRequest) (run : PathSystem → FileTree Bytes → VolumeRun) : Prop :=
  ∀ os t, t.Closed → Guarded (Below storage (directoryOf storage (r.product ++ "/" ++ r.volume)))
    [resolve [] (requestNames storage r)] t (run os t)

/-- A handler that opens the file of the request wherever it can, and nothing else, stays inside for the harmless
requests only. -/
theorem oneFileGuarded_iff {run : PathSystem → FileTree Bytes → VolumeRun}
    (hopen : ∀ t : FileTree Bytes, t.Closed → t.Ready [volumeDirNames storage r] (requestNames storage r) →
      ¬ HasNul (requestNames storage r) → (run openSystem t).touched ≠ [])
    (honly : ∀ os t, ∀ p ∈ (run os t).touched, p = resolve [] (requestNames storage r))
    (hrefused : Unopenable (volumeDirNames storage r) (requestNames storage r) → ∀ os t, t.Closed →
      (run os t).touched = [] ∧ (run os t).reply.status ≠ 200 ∧ SameFiles t (run os t).files) :
    OneFileGuarded storage r run ↔ r.Harmless storage := by
  constructor
  · intro h
    by_contra hharm
    obtain ⟨houtside, hopenable⟩ := not_or.mp hharm
    obtain ⟨hnul, hblocked⟩ := not_or.mp hopenable
    obtain ⟨t, hclosed, hready, -⟩ := exists_ready hblocked ([] : Bytes)
    rcases h openSystem t hclosed with ⟨hinside, -⟩ | ⟨hnone, -⟩
    · exact houtside (hinside _ List.mem_cons_self)
    · exact hopen t hclosed hready hnul hnone
  · rintro (hinside | hunopenable) os t hclosed
    · exact Or.inl ⟨fun p hp => List.mem_singleton.mp hp ▸ hinside, fun p hp =>
        List.mem_singleton.mpr (honly os t p hp)⟩
    · exact Or.inr (hrefused hunopenable os t hclosed)

theorem writeToVolume_guarded_iff (storage : List String) (r : FileRequest) (content : String) :
    OneFileGuarded storage r (fun os t => writeToVolume os storage t r content) ↔ r.Harmless storage := by
  refine oneFileGuarded_iff (fun t hclosed hready hnul => ?_) (fun os t p hp => ?_) fun h os t hclosed => ?_
  · obtain ⟨t', hwrite⟩ := openSystem_write hready hnul (utf8 content)
    have hdir : openSystem.createDirAll t (volumeDirNames storage r) = some t := by
      rw [openSystem_createDirAll (not_hasNul_volumeDirNames hnul)]
      exact hready.makeDirs (List.mem_cons_of_mem _ List.mem_cons_self)
    simp only [writeToVolume, hdir, openSystem_parent hready hnul, Option.getD_some, hwrite]
    exact List.cons_ne_nil _ _
  · rw [writeToVolume] at hp
    split at hp
    · cases hp
    · dsimp only at hp
      split at hp
      · next t' q hwrite =>
        rw [List.mem_singleton.mp hp]
        exact (write_eq_some hwrite).2.2
      · cases hp
  · rw [writeToVolume]
    split
    · exact ⟨rfl, by simp [HttpResponse.error], SameFiles.refl t⟩
    · next t₁ hdir =>
      have hmk := (makeDirs_of_createDirAll hdir).2
      have hdirs := (dirs_of_makeDirs hclosed hclosed.root hmk).2
      have hkinds := getD_createDirAll_kinds os t₁ (parentPath (requestNames storage r))
      have hnone := write_eq_none os (utf8 content) h fun way hway => hkinds.1.dir _ (hdirs way hway)
      dsimp only
      rw [hnone]
      exact ⟨rfl, by simp [HttpResponse.error], (makeDirs_kinds hmk).2.trans hkinds.2⟩

theorem readFromVolume_guarded_iff (storage : List String) (r : FileRequest) :
    OneFileGuarded storage r (fun os t => readFromVolume os storage t r) ↔ r.Harmless storage := by
  refine oneFileGuarded_iff (fun t hclosed hready hnul => ?_) (fun os t p hp => ?_) fun h os t hclosed => ?_
  · obtain ⟨content, hcontent⟩ := hready.file
    have hread : openSystem.read t (requestNames storage r) = some (content, resolve [] (requestNames storage r)) := by
      rw [PathSystem.read, if_neg (by simpa [openSystem] using hnul), hready.walk, Option.bind_some, hcontent]
    rw [readFromVolume, hread]
    dsimp only
    split <;> exact List.cons_ne_nil _ _
  · have hloc : ∀ bytes q, os.read t (requestNames storage r) = some (bytes, q) →
        q = resolve [] (requestNames storage r) := by
      intro bytes q hread
      rw [PathSystem.read] at hread
      split_ifs at hread
      obtain ⟨q', hwalk, hget⟩ := Option.bind_eq_some_iff.mp hread
      rw [← eq_resolve_of_walk hwalk]
      split at hget
      · cases hget
        rfl
      · cases hget
    rw [readFromVolume] at hp
    split at hp
    · cases hp
    · next bytes q hread =>
      have hq := hloc bytes q hread
      split at hp <;> rw [List.mem_singleton.mp hp, hq]
  · have hnone : os.read t (requestNames storage r) = none := by
      rw [PathSystem.read]
      rcases h with hnul | hblocked
      · rw [if_pos (os.nul _ hnul)]
      · -- the directory of the volume is on the way anyhow
        have hblocked' : Blocked [] (requestNames storage r) := by
          refine hblocked.imp_right ?_
          rintro ⟨through, hthrough, way, hway, heq⟩
          rcases List.mem_cons.mp hthrough with rfl | hdir
          · exact ⟨_, List.mem_cons_self, way, hway, heq⟩
          · rw [List.mem_singleton.mp hdir] at hway
            exact ⟨_, List.mem_cons_self, way, hway.trans (volumeDirNames_isPrefix storage r), heq⟩
        split_ifs with hrefuses
        · rfl
        · cases hwalk : t.walk [] (requestNames storage r) with
          | none => rfl
          | some q =>
            rw [Option.bind_some]
            split
            · next content hfile => exact absurd hfile (get_ne_file_of_blocked hclosed hblocked' hwalk content)
            · rfl
    rw [readFromVolume, hnone]
    exact ⟨rfl, by simp [HttpResponse.error], SameFiles.refl t⟩

end OneFile

/-! ## Requests for many files -/

section Entries

variable {os : PathSystem} {volumePath : List String} {s : SyncProgress} {e : SyncFileEntry}
  {files : List SyncFileEntry}

/-- What an entry does to the files, and which file it may write. -/
theorem syncEntry_spec (os : PathSystem) (volumePath : List String) (s : SyncProgress) (e : SyncFileEntry) :
    KeepsKinds s.files (syncEntry os volumePath s e).files ∧
      ((syncEntry os volumePath s e).touched = s.touched ∨
        (syncEntry os volumePath s e).touched = s.touched ++ [resolve [] (joinPath volumePath e.path)]) := by
  rw [syncEntry]
  split
  · exact ⟨KeepsKinds.refl _, Or.inl rfl⟩
  · next t hdir =>
    have hkinds := (makeDirs_kinds (makeDirs_of_createDirAll hdir).2).1
    split
    · exact ⟨hkinds, Or.inl rfl⟩
    · split
      · exact ⟨hkinds, Or.inl rfl⟩
      · next t' p hwrite =>
        obtain ⟨-, hfile, rfl⟩ := write_eq_some hwrite
        exact ⟨hkinds.trans (writeFile_kinds hfile), Or.inr rfl⟩

/-- An entry for which no file can be stored is an error. -/
theorem syncEntry_unstorable (os : PathSystem) (h : Unstorable volumePath e)
    (hdirs : ∀ way, way <+: volumePath → s.files.get (resolve [] way) = some .dir) :
    (syncEntry os volumePath s e).touched = s.touched ∧ (syncEntry os volumePath s e).errors ≠ [] ∧
      SameFiles s.files (syncEntry os volumePath s e).files := by
  rw [syncEntry]
  split
  · exact ⟨rfl, by simp, SameFiles.refl _⟩
  · next t hdir =>
    have hkinds := makeDirs_kinds (makeDirs_of_createDirAll hdir).2
    split
    · exact ⟨rfl, by simp, hkinds.2⟩
    · next data hdecode =>
      have hunopenable : Unopenable volumePath (joinPath volumePath e.path) := by
        refine h.resolve_left ?_
        rw [hdecode]
        exact Option.some_ne_none data
      rw [write_eq_none os data hunopenable fun way hway => hkinds.1.dir _ (hdirs way hway)]
      exact ⟨rfl, by simp, hkinds.2⟩

/-- An entry for which a file can be stored is stored, where everything is ready for it. -/
theorem syncEntry_ready (h : ¬ Unstorable volumePath e)
    (hready : s.files.Ready [volumePath] (joinPath volumePath e.path)) :
    (syncEntry openSystem volumePath s e).touched = s.touched ++ [resolve [] (joinPath volumePath e.path)] := by
  obtain ⟨hdecode, hunopenable⟩ := not_or.mp h
  obtain ⟨hnul, -⟩ := not_or.mp hunopenable
  obtain ⟨data, hdata⟩ := Option.ne_none_iff_exists'.mp hdecode
  obtain ⟨t', hwrite⟩ := openSystem_write hready hnul data
  simp only [syncEntry, openSystem_parent hready hnul, hdata, hwrite]

/-- The entries write their own files only. -/
theorem touched_foldl_syncEntry (os : PathSystem) (volumePath : List String) (files : List SyncFileEntry)
    (s : SyncProgress) : ∀ p ∈ (files.foldl (syncEntry os volumePath) s).touched,
    p ∈ s.touched ∨ p ∈ files.map fun e => resolve [] (joinPath volumePath e.path) := by
  induction files generalizing s with
  | nil => exact fun p hp => Or.inl hp
  | cons e files ih =>
    intro p hp
    rcases ih _ p hp with hfirst | hrest
    · rcases (syncEntry_spec os volumePath s e).2 with heq | heq
      · exact Or.inl (heq ▸ hfirst)
      · rw [heq, List.mem_append, List.mem_singleton] at hfirst
        refine hfirst.imp_right fun heq => ?_
        rw [heq]
        exact List.mem_cons_self
    · exact Or.inr (List.mem_cons_of_mem _ hrest)

/-- What has been written stays written. -/
theorem touched_subset_foldl {p : Path} (hp : p ∈ s.touched) :
    p ∈ (files.foldl (syncEntry os volumePath) s).touched := by
  induction files generalizing s with
  | nil => exact hp
  | cons e files ih =>
    refine ih ?_
    rcases (syncEntry_spec os volumePath s e).2 with heq | heq
    · exact heq ▸ hp
    · rw [heq]
      exact List.mem_append_left _ hp

/-- Entries for which no files can be stored are errors, all of them. -/
theorem foldl_syncEntry_unstorable (os : PathSystem) (s : SyncProgress) (h : ∀ e ∈ files, Unstorable volumePath e)
    (hdirs : ∀ way, way <+: volumePath → s.files.get (resolve [] way) = some .dir) :
    (files.foldl (syncEntry os volumePath) s).touched = s.touched ∧
      (files ≠ [] ∨ s.errors ≠ [] → (files.foldl (syncEntry os volumePath) s).errors ≠ []) ∧
      SameFiles s.files (files.foldl (syncEntry os volumePath) s).files := by
  induction files generalizing s with
  | nil => exact ⟨rfl, fun h => h.resolve_left fun hne => hne rfl, SameFiles.refl _⟩
  | cons e files ih =>
    obtain ⟨htouched, herrors, hsame⟩ := syncEntry_unstorable os (h e List.mem_cons_self) hdirs
    obtain ⟨htouched', herrors', hsame'⟩ := ih (syncEntry os volumePath s e)
      (fun e' he' => h e' (List.mem_cons_of_mem e he'))
      fun way hway => (syncEntry_spec os volumePath s e).1.dir _ (hdirs way hway)
    exact ⟨htouched'.trans htouched, fun _ => herrors' (Or.inr herrors), hsame.trans hsame'⟩

/-- In a tree that is ready for the file of one entry this file is written. -/
theorem touched_foldl_ready (s : SyncProgress) (he : e ∈ files) (h : ¬ Unstorable volumePath e)
    (hready : s.files.Ready [volumePath] (joinPath volumePath e.path)) :
    (files.foldl (syncEntry openSystem volumePath) s).touched ≠ [] := by
  induction files generalizing s with
  | nil => exact absurd he List.not_mem_nil
  | cons e' files ih =>
    rcases List.mem_cons.mp he with rfl | hrest
    · have hwritten : resolve [] (joinPath volumePath e.path) ∈ (syncEntry openSystem volumePath s e).touched := by
        rw [syncEntry_ready h hready]
        exact List.mem_append_right _ List.mem_cons_self
      rw [List.foldl_cons]
      exact List.ne_nil_of_mem (touched_subset_foldl hwritten)
    · exact ih _ hrest (hready.mono (syncEntry_spec openSystem volumePath s e').1)

theorem syncVolume_guarded_iff (storage : List String) (volume : String) (files : List SyncFileEntry) :
    (∀ os t, t.Closed → Guarded (Below storage (directoryOf storage volume))
        (files.map fun e => resolve [] (joinPath (joinPath storage volume) e.path)) t
        (syncVolume os storage t volume files)) ↔ SyncHarmless storage volume files := by
  constructor
  · intro h
    by_contra hharm
    obtain ⟨hnul, hharm⟩ := not_or.mp hharm
    obtain ⟨houtside, hstorable⟩ := not_or.mp hharm
    obtain ⟨e, he, hstorable⟩ : ∃ e ∈ files, ¬ Unstorable (joinPath storage volume) e := by
      simpa using hstorable
    obtain ⟨t, hclosed, hready, -⟩ := exists_ready (not_or.mp (not_or.mp hstorable).2).2 ([] : Bytes)
    rcases h openSystem t hclosed with ⟨hinside, -⟩ | ⟨hnone, -⟩
    · exact houtside fun e he => hinside _ (List.mem_map.mpr ⟨e, he, rfl⟩)
    · have hdir : openSystem.createDirAll t (joinPath storage volume) = some t := by
        rw [openSystem_createDirAll hnul]
        exact hready.makeDirs (List.mem_cons_of_mem _ List.mem_cons_self)
      have htouched := touched_foldl_ready ⟨t, 0, [], []⟩ he hstorable hready
      refine htouched ?_
      rw [syncVolume] at hnone
      dsimp only at hnone
      rw [hdir] at hnone
      dsimp only at hnone
      split at hnone <;> exact hnone
  · intro hharm os t hclosed
    rw [syncVolume]
    dsimp only
    split
    · exact Or.inr ⟨rfl, by simp [HttpResponse.error], SameFiles.refl t⟩
    · next t₁ hdir =>
      obtain ⟨hrefuses, hmk⟩ := makeDirs_of_createDirAll hdir
      have hdirs := (dirs_of_makeDirs hclosed hclosed.root hmk).2
      have honly := touched_foldl_syncEntry os (joinPath storage volume) files ⟨t₁, 0, [], []⟩
      rcases hharm with hnul | hinside | hunstorable
      · rw [os.nul _ hnul] at hrefuses
        cases hrefuses
      · refine Or.inl ⟨fun p hp => ?_, fun p hp => ?_⟩
        · obtain ⟨e, he, rfl⟩ := List.mem_map.mp hp
          exact hinside e he
        · refine (honly p ?_).resolve_left List.not_mem_nil
          split at hp <;> exact hp
      · obtain ⟨htouched, herrors, hsame⟩ := foldl_syncEntry_unstorable os ⟨t₁, 0, [], []⟩ hunstorable hdirs
        by_cases hnil : files = []
        · subst hnil
          exact Or.inl ⟨by simp, by simp⟩
        · rw [if_neg (herrors (Or.inl hnil))]
          exact Or.inr ⟨htouched, by simp, (makeDirs_kinds hmk).2.trans hsame⟩

end Entries

/-! ## All requests -/

/-- **The requests stay inside exactly when they do so by their texts.** In every tree and on every system a write
or a read opens only the file it names, which lies in the directory of its volume, or it is refused, if and only
if the path leads there by its text or no file can ever be opened by it; and a synchronisation does the same with
the files of its entries, if and only if all of them lead there, or no file can be stored for any of them. -/
theorem requests_guarded_iff (storage : List String) :
    (∀ body, (∀ os t, t.Closed →
        Guarded (Below storage (directoryOf storage ((bodyRequest body).product ++ "/" ++ (bodyRequest body).volume)))
          [resolve [] (requestNames storage (bodyRequest body))] t (handleVolumeWrite os (some storage) t body)) ↔
        (bodyRequest body).Harmless storage) ∧
      (∀ params, (∀ os t, t.Closed →
        Guarded (Below storage
            (directoryOf storage ((paramsRequest params).product ++ "/" ++ (paramsRequest params).volume)))
          [resolve [] (requestNames storage (paramsRequest params))] t
          (handleVolumeRead os (some storage) t params)) ↔ (paramsRequest params).Harmless storage) ∧
      ∀ volume files, (∀ os t, t.Closed →
        Guarded (Below storage (directoryOf storage volume))
          (files.map fun e => resolve [] (joinPath (joinPath storage volume) e.path)) t
          (handleStorageSync os (some storage) t volume files)) ↔ SyncHarmless storage volume files :=
  ⟨fun body => writeToVolume_guarded_iff storage (bodyRequest body) _,
    fun params => readFromVolume_guarded_iff storage (paramsRequest params),
    fun volume files => syncVolume_guarded_iff storage volume files⟩

/-- A request that climbs out of its volume. -/
def climbingBody : Json :=
  .object [("product", .string "p"), ("volume", .string "v"), ("path", .string "../../../etc/passwd")]

/-- A tree with the directories on the way, and the file. -/
def climbingTree : FileTree Bytes := treeWithFile [["srv", "p", "v", "..", "..", "..", "etc"]] ["etc", "passwd"] []

/-- A file outside of the storage directory is written. -/
theorem not_guarded_climbing :
    (handleVolumeWrite openSystem (some ["srv"]) climbingTree climbingBody).touched = [["etc", "passwd"]] ∧
    (handleVolumeWrite openSystem (some ["srv"]) climbingTree climbingBody).reply.status = 200 ∧
    ¬ ∀ os t, t.Closed → Guarded
      (Below ["srv"] (directoryOf ["srv"] ((bodyRequest climbingBody).product ++ "/" ++ (bodyRequest climbingBody).volume)))
      [resolve [] (requestNames ["srv"] (bodyRequest climbingBody))] t
      (handleVolumeWrite os (some ["srv"]) t climbingBody) := by
  have htouched : (handleVolumeWrite openSystem (some ["srv"]) climbingTree climbingBody).touched =
      [["etc", "passwd"]] := by decide +kernel
  refine ⟨htouched, by decide +kernel, fun h => ?_⟩
  have hclosed : climbingTree.Closed := by
    have hp : ["etc", "passwd"] = resolve [] ["srv", "p", "v", "..", "..", "..", "etc"] ++ ["passwd"] := by
      decide +kernel
    refine closed_treeWithFile ["srv", "p", "v", "..", "..", "..", "etc"] List.mem_cons_self hp ?_
    intro through hthrough way hway
    rw [List.mem_singleton.mp hthrough, ← List.mem_inits] at hway
    revert way
    decide +kernel
  rcases h openSystem climbingTree hclosed with ⟨hinside, -⟩ | ⟨hnone, -⟩
  · exact absurd (hinside _ List.mem_cons_self).2.1 (by decide +kernel)
  · rw [htouched] at hnone
    cases hnone

end Picloud
