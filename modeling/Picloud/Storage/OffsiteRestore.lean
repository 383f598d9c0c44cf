import Picloud.Storage.OffsiteKeys
import Mathlib.Data.List.Find
import Mathlib.Data.Set.Function

/-!
# Restoring offsite backups

Backups of any volumes share a target, and chunks that are there already are not uploaded again. The
invariant of the target (`Faithful`) says that the object under the key of a chunk is the chunk, and
that the latest backup of every snapshot that has stored its manifest has all its chunks there. A
backup that fails on its way leaves chunks behind, and a manifest only when the upload of the manifest
has failed after it was stored.

The source asks whether a key exists and not whether its object can be read. So a chunk that lies
there under another encryption key spoils the backups that count on it.
-/

namespace Picloud

open Lib

/-! ## Runs -/

/-- A backup that has been made, its result and whether its manifest is on the target. -/
structure BackupEntry where
  volumeIri : ResourceIri
  snapshotTimestamp : String
  snapshotData : Bytes
  result : Except StorageError OffsiteBackupResult
  manifestStored : Bool

/-- The target, and the backups made so far, the latest first. -/
structure OffsiteState where
  target : BackupTarget
  entries : List BackupEntry

/-- A backup is made, or somebody else who uses the target stores or deletes an object of theirs. -/
inductive OffsiteAction where
  | backup (volumeIri : ResourceIri) (snapshotTimestamp : String) (snapshotData : Bytes)
      (turns : ℕ → Turn)
  | elsewhere (key : String) (object : Option Bytes)

/-- The data of the latest backup of a snapshot whose manifest is on the target. -/
def OffsiteState.latest (s : OffsiteState) (volumeIri : ResourceIri) (snapshotTimestamp : String) :
    Option Bytes :=
  (s.entries.find? fun e => e.volumeIri = volumeIri ∧ e.snapshotTimestamp = snapshotTimestamp ∧
    e.manifestStored).map BackupEntry.snapshotData

/-- The data of the latest backup of a snapshot that has returned `Ok`. -/
def OffsiteState.latestOk (s : OffsiteState) (volumeIri : ResourceIri) (snapshotTimestamp : String) :
    Option Bytes :=
  (s.entries.find? fun e => e.volumeIri = volumeIri ∧ e.snapshotTimestamp = snapshotTimestamp ∧
    e.result.isOk).map BackupEntry.snapshotData

namespace OffsiteBackupManager

variable (libs : BackupLibs) (m : OffsiteBackupManager) (iris : IriBuilder)

/-- The manifest of a backup is on the target afterwards: the chunks are there, and the manifest is
uploaded, whether or not the answer says so. -/
def storesManifest (target : BackupTarget) (volumeIri : ResourceIri) (snapshotData : Bytes)
    (turns : ℕ → Turn) : Bool :=
  let chunks := chunkAndHash libs snapshotData m.chunkSize
  (m.uploadChunks libs volumeIri turns 0 chunks ⟨0, 0, 0⟩ target).1.isOk &&
    (((libs.toVec (chunks.map ContentChunk.hash)).toOption.map fun json =>
      (BackupEncryption.encrypt libs m.encryptionKey (turns chunks.length).nonce json).isOk).getD
        false) &&
    (turns chunks.length).uploadFault.all UploadFault.stored

/-- The state after an action. -/
def step (s : OffsiteState) : OffsiteAction → OffsiteState
  | .backup volumeIri snapshotTimestamp snapshotData turns =>
    let (result, target) := m.backupSnapshot libs s.target volumeIri snapshotTimestamp snapshotData
      turns
    ⟨target, ⟨volumeIri, snapshotTimestamp, snapshotData, result,
      m.storesManifest libs s.target volumeIri snapshotData turns⟩ :: s.entries⟩
  | .elsewhere key (some object) => { s with target := Assoc.set s.target key object }
  | .elsewhere key none => { s with target := Assoc.erase s.target key }

/-- The state after a run. -/
def run (target : BackupTarget) (actions : List OffsiteAction) : OffsiteState :=
  actions.foldl (m.step libs) ⟨target, []⟩

/-- The keys that the manager uses for the volumes of a cluster. -/
def OwnKey (key : String) : Prop :=
  ∃ v, IsVolumeIri iris v ∧ ((∃ chunk, key = m.chunkKey v (chunkHash libs chunk)) ∨
    ∃ timestamp : String, '/' ∉ timestamp.toList ∧ key = m.manifestKey v timestamp)

/-- Backups are made of volumes, with time stamps that are one segment of a key; others have keys of
their own. -/
def Allowed : OffsiteAction → Prop
  | .backup volumeIri snapshotTimestamp _ _ =>
    IsVolumeIri iris volumeIri ∧ '/' ∉ snapshotTimestamp.toList
  | .elsewhere key _ => ¬ m.OwnKey libs iris key

/-- The chunks of the backups of a run. -/
def chunksOf (actions : List OffsiteAction) : Set Bytes :=
  { chunk | ∃ volumeIri snapshotTimestamp snapshotData turns,
    .backup volumeIri snapshotTimestamp snapshotData turns ∈ actions ∧
      chunk ∈ chunks m.chunkSize snapshotData }

/-! ## The invariant -/

/-- The object under the key of a chunk is the chunk. -/
def Decrypts (known : Set Bytes) (target : BackupTarget) : Prop :=
  ∀ v, IsVolumeIri iris v → ∀ chunk ∈ known, ∀ object,
    Assoc.get target (m.chunkKey v (chunkHash libs chunk)) = some object →
      BackupEncryption.decrypt libs m.encryptionKey object = .ok chunk

/-- A snapshot has its manifest and its chunks on the target. -/
structure Restorable (known : Set Bytes) (target : BackupTarget) (volumeIri : ResourceIri)
    (snapshotTimestamp : String) (pieces : List Bytes) : Prop where
  known : ∀ chunk ∈ pieces, chunk ∈ known
  manifest : ∃ object json,
    Assoc.get target (m.manifestKey volumeIri snapshotTimestamp) = some object ∧
      BackupEncryption.decrypt libs m.encryptionKey object = .ok json ∧
      libs.fromSlice json = .ok (pieces.map (chunkHash libs))
  present : ∀ chunk ∈ pieces,
    (Assoc.get target (m.chunkKey volumeIri (chunkHash libs chunk))).isSome

/-- What holds along a run. -/
structure Faithful (known : Set Bytes) (s : OffsiteState) : Prop where
  decrypts : m.Decrypts libs iris known s.target
  latest : ∀ v timestamp data, s.latest v timestamp = some data →
    IsVolumeIri iris v ∧ '/' ∉ timestamp.toList ∧
      ∃ pieces, pieces.flatten = data ∧ m.Restorable libs known s.target v timestamp pieces
  counted : ∀ e ∈ s.entries, ∀ r, e.result = .ok r →
    e.manifestStored = true ∧ r.totalChunks = r.dedupChunks + r.uploadedChunks

variable {libs m iris}

/-! ## Restoring -/

variable {known : Set Bytes} {pieces : List Bytes} {target target' : BackupTarget}
  {v w : ResourceIri} {timestamp : String} {s : OffsiteState}

theorem downloadChunks_eq (hv : IsVolumeIri iris v) (hdecrypts : m.Decrypts libs iris known target)
    (hknown : ∀ chunk ∈ pieces, chunk ∈ known)
    (hpresent : ∀ chunk ∈ pieces, (Assoc.get target (m.chunkKey v (chunkHash libs chunk))).isSome) :
    m.downloadChunks libs target v (pieces.map (chunkHash libs)) = .ok pieces.flatten := by
  induction pieces with
  | nil => rfl
  | cons chunk pieces ih =>
    obtain ⟨object, hobject⟩ := Option.isSome_iff_exists.mp (hpresent chunk List.mem_cons_self)
    have hdecrypt := hdecrypts v hv chunk (hknown chunk List.mem_cons_self) object hobject
    have hrest := ih (fun c hc => hknown c (List.mem_cons_of_mem _ hc))
      fun c hc => hpresent c (List.mem_cons_of_mem _ hc)
    rw [List.map_cons, downloadChunks, download, hobject]
    simp only [bind, Except.bind, hdecrypt, hrest]
    rfl

/-- What is restorable is restored. -/
theorem restoreSnapshot_eq (hv : IsVolumeIri iris v) (hdecrypts : m.Decrypts libs iris known target)
    (h : m.Restorable libs known target v timestamp pieces) :
    m.restoreSnapshot libs target v timestamp = .ok pieces.flatten := by
  obtain ⟨object, json, hobject, hdecrypt, hparse⟩ := h.manifest
  have hchunks := downloadChunks_eq hv hdecrypts h.known h.present
  rw [restoreSnapshot, download, hobject]
  simp only [bind, Except.bind, hdecrypt, hparse, hchunks]

/-! ## Keys -/

theorem slash_notMem_chunkHash (chunk : Bytes) : '/' ∉ (chunkHash libs chunk).toList := by
  rw [chunkHash, String.toList_ofList]
  exact slash_notMem_hexLower _

theorem chunkHash_injOn (h : Set.InjOn libs.sha256 known) :
    Set.InjOn (chunkHash libs) known := by
  intro c hc c' hc' heq
  exact h hc hc' (hexLower_injective (String.ofList_injective heq))

theorem chunkKey_inj {c c' : Bytes} (hv : IsVolumeIri iris v) (hw : IsVolumeIri iris w)
    (h : m.chunkKey v (chunkHash libs c) = m.chunkKey w (chunkHash libs c')) :
    v = w ∧ chunkHash libs c = chunkHash libs c' := by
  obtain ⟨hvw, -, hhash⟩ := objectKey_inj hv hw (by decide) (by decide) (slash_notMem_chunkHash c)
    (slash_notMem_chunkHash c') h
  exact ⟨hvw, hhash⟩

theorem manifestKey_inj {t t' : String} (hv : IsVolumeIri iris v) (hw : IsVolumeIri iris w)
    (ht : '/' ∉ t.toList) (ht' : '/' ∉ t'.toList) (h : m.manifestKey v t = m.manifestKey w t') :
    v = w ∧ t = t' := by
  obtain ⟨hvw, -, htt⟩ := objectKey_inj hv hw (by decide) (by decide) ht ht' h
  exact ⟨hvw, htt⟩

theorem chunkKey_ne_manifestKey {c : Bytes} {t : String} (hv : IsVolumeIri iris v)
    (hw : IsVolumeIri iris w) (ht : '/' ∉ t.toList) :
    m.chunkKey v (chunkHash libs c) ≠ m.manifestKey w t := by
  intro h
  obtain ⟨-, hkind, -⟩ := objectKey_inj hv hw (by decide) (by decide) (slash_notMem_chunkHash c) ht h
  exact absurd hkind (by decide)

/-! ## Backing up -/

/-- Nothing is lost or replaced. -/
def Extends (target target' : BackupTarget) : Prop :=
  ∀ key object, Assoc.get target key = some object → Assoc.get target' key = some object

theorem Extends.refl (target : BackupTarget) : Extends target target := fun _ _ h => h

theorem Extends.trans {t₁ t₂ t₃ : BackupTarget} (h : Extends t₁ t₂) (h' : Extends t₂ t₃) :
    Extends t₁ t₃ := fun key object hget => h' key object (h key object hget)

theorem extends_set {key : String} (habsent : Assoc.get target key = none) (object : Bytes) :
    Extends target (Assoc.set target key object) := by
  intro key' object' hget
  have hne : key' ≠ key := by
    rintro rfl
    cases habsent.symm.trans hget
  rw [Assoc.get_set_of_ne target object hne, hget]

theorem Extends.isSome (h : Extends target target') {key : String}
    (hsome : (Assoc.get target key).isSome) : (Assoc.get target' key).isSome := by
  obtain ⟨object, hobject⟩ := Option.isSome_iff_exists.mp hsome
  rw [h key object hobject]
  rfl

/-- A chunk that is uploaded under its own key. -/
theorem decrypts_set_chunk (hlibs : libs.Inverts) (hinj : Set.InjOn libs.sha256 known)
    (hv : IsVolumeIri iris v) {chunk : Bytes} (hchunk : chunk ∈ known) {nonce : Nonce}
    {encrypted : Bytes}
    (hencrypt : BackupEncryption.encrypt libs m.encryptionKey nonce chunk = .ok encrypted)
    (h : m.Decrypts libs iris known target) :
    m.Decrypts libs iris known
      (Assoc.set target (m.chunkKey v (chunkHash libs chunk)) encrypted) := by
  intro w hw c hc object hobject
  by_cases hkey : m.chunkKey w (chunkHash libs c) = m.chunkKey v (chunkHash libs chunk)
  · obtain rfl : c = chunk := chunkHash_injOn hinj hc hchunk (chunkKey_inj hw hv hkey).2
    rw [hkey, Assoc.get_set_self] at hobject
    obtain rfl := Option.some.inj hobject
    exact BackupEncryption.decrypt_encrypt hlibs hencrypt
  · rw [Assoc.get_set_of_ne target encrypted hkey] at hobject
    exact h w hw c hc object hobject

/-- The loop over the chunks: it adds chunks only, and when it ends well they are all there. -/
theorem uploadChunks_spec (hlibs : libs.Inverts) (hinj : Set.InjOn libs.sha256 known)
    (hv : IsVolumeIri iris v) (turns : ℕ → Turn) (hknown : ∀ chunk ∈ pieces, chunk ∈ known)
    {turn : ℕ} {counters : Counters} {r : Except StorageError Counters}
    (hdecrypts : m.Decrypts libs iris known target)
    (h : m.uploadChunks libs v turns turn (pieces.map fun c => ⟨chunkHash libs c, c⟩) counters
      target = (r, target')) :
    m.Decrypts libs iris known target' ∧ Extends target target' ∧ ∀ counters', r = .ok counters' →
      (∀ chunk ∈ pieces, (Assoc.get target' (m.chunkKey v (chunkHash libs chunk))).isSome) ∧
      counters'.dedupChunks + counters'.uploadedChunks =
        counters.dedupChunks + counters.uploadedChunks + pieces.length := by
  induction pieces generalizing turn counters target with
  | nil =>
    obtain ⟨rfl, rfl⟩ := Prod.mk.inj h
    refine ⟨hdecrypts, Extends.refl target, fun counters' hok => ⟨by simp, ?_⟩⟩
    cases hok
    rfl
  | cons chunk pieces ih =>
    have hchunk := hknown chunk List.mem_cons_self
    have hrest := fun c hc => hknown c (List.mem_cons_of_mem chunk hc)
    -- a call that is stopped here leaves the target as it was
    have hstop : ∀ e, (Except.error e, target) = (r, target') →
        m.Decrypts libs iris known target' ∧ Extends target target' ∧ ∀ counters',
          r = .ok counters' → (∀ c ∈ chunk :: pieces,
            (Assoc.get target' (m.chunkKey v (chunkHash libs c))).isSome) ∧
          counters'.dedupChunks + counters'.uploadedChunks =
            counters.dedupChunks + counters.uploadedChunks + (chunk :: pieces).length := by
      intro e he
      obtain ⟨rfl, rfl⟩ := Prod.mk.inj he
      exact ⟨hdecrypts, Extends.refl target, fun _ hok => by cases hok⟩
    rw [List.map_cons, uploadChunks] at h
    dsimp only at h
    split at h
    · exact hstop _ h
    split at h
    · next hpresent =>
      obtain ⟨hdecrypts', hextends, hok⟩ := ih hrest hdecrypts h
      refine ⟨hdecrypts', hextends, fun counters' hr => ?_⟩
      obtain ⟨hall, hcount⟩ := hok counters' hr
      refine ⟨List.forall_mem_cons.mpr ⟨hextends.isSome hpresent, hall⟩, ?_⟩
      simp only [List.length_cons] at hcount ⊢
      omega
    · next habsent =>
      split at h
      · exact hstop _ h
      next encrypted hencrypt =>
      have hdecrypts' := decrypts_set_chunk hlibs hinj hv hchunk hencrypt hdecrypts
      have hnone := Option.not_isSome_iff_eq_none.mp habsent
      split at h
      · next e mid hupload =>
        -- the chunk may be there in spite of the error
        obtain ⟨rfl, rfl⟩ := Prod.mk.inj h
        obtain ⟨rfl, -⟩ | ⟨rfl, -⟩ := BackupTarget.upload_cases hupload
        · exact ⟨hdecrypts', extends_set hnone encrypted, fun _ hok => by cases hok⟩
        · exact hstop e rfl
      next mid hupload =>
      obtain ⟨rfl, -⟩ | ⟨-, -, e, he⟩ := BackupTarget.upload_cases hupload
      swap
      · cases he
      obtain ⟨hdecrypts', hextends, hok⟩ := ih hrest hdecrypts' h
      refine ⟨hdecrypts', (extends_set hnone encrypted).trans hextends, fun counters' hr => ?_⟩
      obtain ⟨hall, hcount⟩ := hok counters' hr
      refine ⟨List.forall_mem_cons.mpr ⟨hextends.isSome ?_, hall⟩, ?_⟩
      · rw [Assoc.get_set_self]
        rfl
      · simp only [List.length_cons] at hcount ⊢
        omega

/-- The manifest is stored as a whole or not at all, and it is when no error is returned. -/
theorem uploadManifest_cases (hlibs : libs.Inverts) {hashes : List String} {turn : Turn}
    {r : Except StorageError Unit}
    (h : m.uploadManifest libs v timestamp hashes turn target = (r, target')) :
    let stored := ((libs.toVec hashes).toOption.map fun json =>
      (BackupEncryption.encrypt libs m.encryptionKey turn.nonce json).isOk).getD false &&
        turn.uploadFault.all UploadFault.stored
    (stored = false ∧ target' = target ∧ ∃ e, r = .error e) ∨
    (stored = true ∧ ∃ object json,
      target' = Assoc.set target (m.manifestKey v timestamp) object ∧
      BackupEncryption.decrypt libs m.encryptionKey object = .ok json ∧
      libs.fromSlice json = .ok hashes) := by
  rw [uploadManifest] at h
  split at h
  · next e hjson =>
    obtain ⟨rfl, rfl⟩ := Prod.mk.inj h
    exact Or.inl ⟨by simp [hjson, Except.toOption], rfl, _, rfl⟩
  next json hjson =>
  split at h
  · next e hencrypt =>
    obtain ⟨rfl, rfl⟩ := Prod.mk.inj h
    exact Or.inl ⟨by simp [hjson, hencrypt, Except.toOption, Except.isOk, Except.toBool], rfl, _, rfl⟩
  next object hencrypt =>
  obtain ⟨rfl, hstored⟩ | ⟨rfl, hstored, e, rfl⟩ := BackupTarget.upload_cases h
  · exact Or.inr ⟨by simp [hjson, hencrypt, hstored, Except.toOption, Except.isOk, Except.toBool],
      object, json, rfl, BackupEncryption.decrypt_encrypt hlibs hencrypt, hlibs.fromSlice_toVec hjson⟩
  · exact Or.inl ⟨by simp [hstored], rfl, e, rfl⟩

/-- Everything a backup can do: stop with an error after some chunks, or add the missing chunks and
then its manifest. -/
theorem backupSnapshot_cases (hlibs : libs.Inverts) (hinj : Set.InjOn libs.sha256 known)
    (hv : IsVolumeIri iris v) {data : Bytes} (turns : ℕ → Turn)
    (hknown : ∀ chunk ∈ chunks m.chunkSize data, chunk ∈ known)
    {r : Except StorageError OffsiteBackupResult} (hdecrypts : m.Decrypts libs iris known target)
    (h : m.backupSnapshot libs target v timestamp data turns = (r, target')) :
    (m.storesManifest libs target v data turns = false ∧ (∃ e, r = .error e) ∧
      m.Decrypts libs iris known target' ∧ Extends target target') ∨
    (m.storesManifest libs target v data turns = true ∧
      (∀ result, r = .ok result → result.totalChunks = result.dedupChunks + result.uploadedChunks) ∧
      ∃ mid object json, m.Decrypts libs iris known mid ∧ Extends target mid ∧
      (∀ chunk ∈ chunks m.chunkSize data,
        (Assoc.get mid (m.chunkKey v (chunkHash libs chunk))).isSome) ∧
      target' = Assoc.set mid (m.manifestKey v timestamp) object ∧
      BackupEncryption.decrypt libs m.encryptionKey object = .ok json ∧
      libs.fromSlice json = .ok ((chunks m.chunkSize data).map (chunkHash libs))) := by
  rw [backupSnapshot] at h
  rw [storesManifest]
  split at h
  · next e mid hchunks =>
    obtain ⟨rfl, rfl⟩ := Prod.mk.inj h
    obtain ⟨hmid, hextends, -⟩ := uploadChunks_spec hlibs hinj hv turns hknown hdecrypts hchunks
    refine Or.inl ⟨?_, ⟨e, rfl⟩, hmid, hextends⟩
    simp [hchunks, Except.isOk, Except.toBool]
  next counters mid hchunks =>
  obtain ⟨hmid, hextends, hok⟩ := uploadChunks_spec hlibs hinj hv turns hknown hdecrypts hchunks
  obtain ⟨hpresent, hcount⟩ := hok counters rfl
  have hchunks' : (m.uploadChunks libs v turns 0 (chunkAndHash libs data m.chunkSize) ⟨0, 0, 0⟩
      target).1.isOk = true := by
    rw [hchunks]
    rfl
  rw [hchunks', Bool.true_and]
  have hhashes : (chunkAndHash libs data m.chunkSize).map ContentChunk.hash =
      (chunks m.chunkSize data).map (chunkHash libs) := by
    rw [chunkAndHash, List.map_map]
    rfl
  obtain ⟨r', final, hmanifest⟩ : ∃ r' final, m.uploadManifest libs v timestamp
      ((chunkAndHash libs data m.chunkSize).map ContentChunk.hash)
      (turns (chunkAndHash libs data m.chunkSize).length) mid = (r', final) := ⟨_, _, rfl⟩
  simp only [hmanifest] at h
  obtain ⟨hstored, rfl, e, rfl⟩ | ⟨hstored, object, json, rfl, hdecrypt, hparse⟩ :=
    uploadManifest_cases hlibs hmanifest
  · obtain ⟨rfl, rfl⟩ := Prod.mk.inj h
    exact Or.inl ⟨hstored, ⟨e, rfl⟩, hmid, hextends⟩
  · rw [hhashes] at hparse
    cases r' with
    | error e =>
      obtain ⟨rfl, rfl⟩ := Prod.mk.inj h
      exact Or.inr ⟨hstored, fun _ hr => (by cases hr), mid, object, json, hmid, hextends, hpresent,
        rfl, hdecrypt, hparse⟩
    | ok =>
      obtain ⟨rfl, rfl⟩ := Prod.mk.inj h
      refine Or.inr ⟨hstored, fun result hr => ?_, mid, object, json, hmid, hextends, hpresent, rfl,
        hdecrypt, hparse⟩
      cases hr
      simp only [chunkAndHash, List.length_map]
      simp only at hcount
      omega

/-! ## Along a run -/

theorem Restorable.of_get (h : m.Restorable libs known target v timestamp pieces)
    (hmanifest : ∀ object, Assoc.get target (m.manifestKey v timestamp) = some object →
      Assoc.get target' (m.manifestKey v timestamp) = some object)
    (hchunks : ∀ chunk, (Assoc.get target (m.chunkKey v (chunkHash libs chunk))).isSome →
      (Assoc.get target' (m.chunkKey v (chunkHash libs chunk))).isSome) :
    m.Restorable libs known target' v timestamp pieces := by
  obtain ⟨object, json, hobject, hdecrypt, hparse⟩ := h.manifest
  exact ⟨h.known, ⟨object, json, hmanifest object hobject, hdecrypt, hparse⟩,
    fun chunk hchunk => hchunks chunk (h.present chunk hchunk)⟩

theorem Restorable.of_extends (h : m.Restorable libs known target v timestamp pieces)
    (hextends : Extends target target') :
    m.Restorable libs known target' v timestamp pieces :=
  h.of_get (hextends _) fun _ => hextends.isSome

/-- The objects of the manager stay, whatever happens under other keys. -/
theorem Faithful.of_ownKeys (h : m.Faithful libs iris known s)
    (hown : ∀ key, m.OwnKey libs iris key → Assoc.get target key = Assoc.get s.target key) :
    m.Faithful libs iris known { s with target := target } := by
  have hchunk : ∀ v, IsVolumeIri iris v → ∀ chunk,
      Assoc.get target (m.chunkKey v (chunkHash libs chunk)) =
        Assoc.get s.target (m.chunkKey v (chunkHash libs chunk)) :=
    fun v hv chunk => hown _ ⟨v, hv, Or.inl ⟨chunk, rfl⟩⟩
  refine ⟨fun v hv chunk hknown object hobject => ?_, fun v timestamp data hlatest => ?_, h.counted⟩
  · exact h.decrypts v hv chunk hknown object (hchunk v hv chunk ▸ hobject)
  · obtain ⟨hv, htimestamp, pieces, hdata, hrestorable⟩ := h.latest v timestamp data hlatest
    have hmanifest := hown _ ⟨v, hv, Or.inr ⟨timestamp, htimestamp, rfl⟩⟩
    refine ⟨hv, htimestamp, pieces, hdata, hrestorable.of_get ?_ ?_⟩
    · exact fun object hobject => hmanifest.trans hobject
    · exact fun chunk hsome => (hchunk v hv chunk).symm ▸ hsome

/-- A backup that stores no manifest has no influence on what is restored. -/
theorem Faithful.of_unstored (h : m.Faithful libs iris known s)
    (hdecrypts : m.Decrypts libs iris known target) (hextends : Extends s.target target)
    (v : ResourceIri) (timestamp : String) (data : Bytes) (e : StorageError) :
    m.Faithful libs iris known ⟨target, ⟨v, timestamp, data, .error e, false⟩ :: s.entries⟩ := by
  refine ⟨hdecrypts, fun w t d hlatest => ?_, fun entry hentry r hr => ?_⟩
  · have hsame : s.latest w t = some d := by
      rw [OffsiteState.latest, List.find?_cons_of_neg (by simp)] at hlatest
      exact hlatest
    obtain ⟨hw, ht, pieces, hdata, hrestorable⟩ := h.latest w t d hsame
    exact ⟨hw, ht, pieces, hdata, hrestorable.of_extends hextends⟩
  · rcases List.mem_cons.mp hentry with rfl | hold
    · cases hr
    · exact h.counted entry hold r hr

/-- A backup that stores its manifest is the one that is restored. -/
theorem Faithful.of_stored (hsize : 1 ≤ m.chunkSize) {mid : BackupTarget}
    (h : m.Faithful libs iris known s) (hdecrypts : m.Decrypts libs iris known mid)
    (hextends : Extends s.target mid) (hv : IsVolumeIri iris v)
    (htimestamp : '/' ∉ timestamp.toList) {data : Bytes}
    (hknown : ∀ chunk ∈ chunks m.chunkSize data, chunk ∈ known)
    (hpresent : ∀ chunk ∈ chunks m.chunkSize data,
      (Assoc.get mid (m.chunkKey v (chunkHash libs chunk))).isSome) {object json : Bytes}
    (hdecrypt : BackupEncryption.decrypt libs m.encryptionKey object = .ok json)
    (hparse : libs.fromSlice json = .ok ((chunks m.chunkSize data).map (chunkHash libs)))
    {r : Except StorageError OffsiteBackupResult}
    (hcount : ∀ result, r = .ok result →
      result.totalChunks = result.dedupChunks + result.uploadedChunks) :
    m.Faithful libs iris known ⟨Assoc.set mid (m.manifestKey v timestamp) object,
      ⟨v, timestamp, data, r, true⟩ :: s.entries⟩ := by
  -- the manifest does not stand where a chunk stands
  have hchunk : ∀ w, IsVolumeIri iris w → ∀ c,
      Assoc.get (Assoc.set mid (m.manifestKey v timestamp) object)
        (m.chunkKey w (chunkHash libs c)) = Assoc.get mid (m.chunkKey w (chunkHash libs c)) :=
    fun w hw c => Assoc.get_set_of_ne mid object (chunkKey_ne_manifestKey hw hv htimestamp)
  refine ⟨fun w hw c hc => ?_, fun w t d hlatest => ?_, fun entry hentry result hr => ?_⟩
  · rw [hchunk w hw c]
    exact hdecrypts w hw c hc
  · by_cases hsame : v = w ∧ timestamp = t
    · obtain ⟨rfl, rfl⟩ := hsame
      rw [OffsiteState.latest, List.find?_cons_of_pos (by simp)] at hlatest
      obtain rfl : data = d := Option.some.inj hlatest
      refine ⟨hv, htimestamp, chunks m.chunkSize data, flatten_chunks hsize data, hknown,
        ⟨object, json, Assoc.get_set_self _ _ _, hdecrypt, hparse⟩, fun c hc => ?_⟩
      rw [hchunk v hv c]
      exact hpresent c hc
    · have hold : s.latest w t = some d := by
        rw [OffsiteState.latest, List.find?_cons_of_neg] at hlatest
        · exact hlatest
        · simpa using hsame
      obtain ⟨hw, ht, pieces, hdata, hrestorable⟩ := h.latest w t d hold
      refine ⟨hw, ht, pieces, hdata, (hrestorable.of_extends hextends).of_get ?_ ?_⟩
      · intro other hother
        rw [Assoc.get_set_of_ne mid object]
        · exact hother
        · intro hkey
          obtain ⟨hwv, htt⟩ := manifestKey_inj hw hv ht htimestamp hkey
          exact hsame ⟨hwv.symm, htt.symm⟩
      · exact fun c hsome => (hchunk w hw c).symm ▸ hsome
  · rcases List.mem_cons.mp hentry with rfl | hold
    · exact ⟨rfl, hcount result hr⟩
    · exact h.counted entry hold result hr

theorem faithful_step (hlibs : libs.Inverts) (hsize : 1 ≤ m.chunkSize)
    {actions : List OffsiteAction} (hinj : Set.InjOn libs.sha256 (m.chunksOf actions))
    (h : m.Faithful libs iris (m.chunksOf actions) s) {a : OffsiteAction} (ha : a ∈ actions)
    (hallowed : m.Allowed libs iris a) :
    m.Faithful libs iris (m.chunksOf actions) (m.step libs s a) := by
  cases a with
  | backup v timestamp data turns =>
    obtain ⟨hv, htimestamp⟩ := hallowed
    have hknown : ∀ chunk ∈ chunks m.chunkSize data, chunk ∈ m.chunksOf actions :=
      fun chunk hchunk => ⟨v, timestamp, data, turns, ha, hchunk⟩
    obtain ⟨r, target, hbackup⟩ : ∃ r target,
        m.backupSnapshot libs s.target v timestamp data turns = (r, target) := ⟨_, _, rfl⟩
    rw [step, hbackup]
    obtain ⟨hstored, ⟨e, rfl⟩, hdecrypts, hextends⟩ | ⟨hstored, hcount, mid, object, json, hdecrypts,
      hextends, hpresent, rfl, hdecrypt, hparse⟩ :=
        backupSnapshot_cases hlibs hinj hv turns hknown h.decrypts hbackup
    · rw [hstored]
      exact h.of_unstored hdecrypts hextends v timestamp data e
    · rw [hstored]
      exact h.of_stored hsize hdecrypts hextends hv htimestamp hknown hpresent hdecrypt hparse hcount
  | elsewhere key object =>
    have hne : ∀ key', m.OwnKey libs iris key' → key' ≠ key := by
      rintro key' hown rfl
      exact hallowed hown
    cases object with
    | some object => exact h.of_ownKeys fun key' hown => Assoc.get_set_of_ne _ object (hne key' hown)
    | none => exact h.of_ownKeys fun key' hown => Assoc.get_erase_of_ne _ (hne key' hown)

/-- A backup that returned `Ok` is the latest one whose manifest is there, if every manifest of the
snapshot that is there is one of a backup that returned `Ok`. -/
theorem Faithful.latest_eq_latestOk (h : m.Faithful libs iris known s)
    (hok : ∀ e ∈ s.entries, e.volumeIri = v → e.snapshotTimestamp = timestamp →
      e.manifestStored → e.result.isOk) :
    s.latest v timestamp = s.latestOk v timestamp := by
  rw [OffsiteState.latest, OffsiteState.latestOk]
  refine congrArg _ (List.find?_congr fun e he => decide_eq_decide.mpr ?_)
  refine and_congr_right fun hv => and_congr_right fun ht => ⟨hok e he hv ht, fun hisOk => ?_⟩
  cases hr : e.result with
  | error err => simp [hr, Except.isOk, Except.toBool] at hisOk
  | ok result => exact (h.counted e he result hr).1

/-- **Offsite backups restore exactly.** Start from a target on which the object under the key of a
chunk is that chunk, and make any backups of any volumes, whether they succeed or are stopped by an
error. Then the latest backup of a snapshot whose manifest is on the target is restored. That is the
latest one that returned `Ok`, unless a later one failed although its manifest was stored. The chunks
of a backup that returned `Ok` were either there or uploaded. -/
theorem restores_exactly (hlibs : libs.Inverts) (hsize : 1 ≤ m.chunkSize) (target : BackupTarget)
    (actions : List OffsiteAction) (hallowed : ∀ a ∈ actions, m.Allowed libs iris a)
    (hinj : Set.InjOn libs.sha256 (m.chunksOf actions))
    (hdecrypts : m.Decrypts libs iris (m.chunksOf actions) target) :
    (∀ v timestamp data, (m.run libs target actions).latest v timestamp = some data →
      m.restoreSnapshot libs (m.run libs target actions).target v timestamp = .ok data) ∧
    (∀ v timestamp, (∀ e ∈ (m.run libs target actions).entries, e.volumeIri = v →
      e.snapshotTimestamp = timestamp → e.manifestStored → e.result.isOk) →
      (m.run libs target actions).latest v timestamp =
        (m.run libs target actions).latestOk v timestamp) ∧
    ∀ e ∈ (m.run libs target actions).entries, ∀ r, e.result = .ok r →
      e.manifestStored = true ∧ r.totalChunks = r.dedupChunks + r.uploadedChunks := by
  have hstart : m.Faithful libs iris (m.chunksOf actions) ⟨target, []⟩ :=
    ⟨hdecrypts, fun _ _ _ hlatest => (by cases hlatest), List.forall_mem_nil _⟩
  have hrun : m.Faithful libs iris (m.chunksOf actions) (m.run libs target actions) :=
    List.foldlRecOn actions (m.step libs) hstart fun s hs a ha =>
      faithful_step hlibs hsize hinj hs ha (hallowed a ha)
  refine ⟨fun v timestamp data hlatest => ?_, fun v timestamp => hrun.latest_eq_latestOk, hrun.counted⟩
  obtain ⟨hv, -, pieces, rfl, hrestorable⟩ := hrun.latest v timestamp data hlatest
  exact restoreSnapshot_eq hv hrun.decrypts hrestorable

/-! ## A snapshot of one byte -/

/-- The digest of `[3]`. -/
def digestThree : Bytes :=
  [8, 79, 237, 8, 185, 120, 175, 77, 125, 25, 106, 116, 70, 168, 107, 88, 0, 158, 99, 107, 97, 29,
    177, 98, 17, 182, 90, 154, 173, 255, 41, 197]

/-- The digest of `[4]`. -/
def digestFour : Bytes :=
  [229, 45, 156, 80, 140, 80, 35, 71, 52, 77, 140, 7, 173, 145, 203, 214, 6, 138, 252, 117, 255, 98,
    146, 240, 98, 160, 156, 163, 129, 200, 158, 113]

/-- The manifest of `[3]`: a list of one digest in hexadecimal. -/
def manifestThree : Bytes :=
  [91, 34, 48, 56, 52, 102, 101, 100, 48, 56, 98, 57, 55, 56, 97, 102, 52, 100, 55, 100, 49, 57, 54,
    97, 55, 52, 52, 54, 97, 56, 54, 98, 53, 56, 48, 48, 57, 101, 54, 51, 54, 98, 54, 49, 49, 100, 98,
    49, 54, 50, 49, 49, 98, 54, 53, 97, 57, 97, 97, 100, 102, 102, 50, 57, 99, 53, 34, 93]

/-- What the chunks and the manifests, an empty one and that of `[3]`, are sealed to under a key of zeros, with their nonces. -/
def sealedSamples : List (Bytes × Bytes × Bytes) :=
  [(List.replicate 12 0, [3],
      [205, 247, 218, 198, 122, 172, 133, 222, 243, 243, 77, 158, 144, 50, 51, 185, 123]),
    (List.replicate 12 0, [4],
      [202, 254, 224, 88, 137, 189, 95, 107, 172, 154, 230, 134, 255, 102, 224, 71, 51]),
    (List.replicate 12 0, [91, 93],
      [149, 250, 16, 216, 7, 91, 11, 184, 186, 110, 94, 187, 70, 78, 246, 200, 131, 188]),
    (List.replicate 12 1, manifestThree,
      [46, 98, 243, 82, 78, 239, 29, 153, 82, 142, 134, 191, 140, 23, 29, 15, 136, 1, 219, 63, 62,
        223, 3, 87, 56, 129, 37, 134, 158, 215, 145, 142, 181, 16, 151, 109, 195, 30, 218, 208, 126,
        240, 218, 79, 173, 12, 162, 73, 212, 102, 209, 15, 208, 136, 72, 238, 92, 69, 25, 25, 40,
        189, 136, 55, 171, 30, 199, 228, 13, 189, 215, 231, 35, 74, 247, 31, 98, 45, 241, 88, 69, 66,
        26, 84])]

/-- The libraries on the samples. -/
def sampleLibs : BackupLibs where
  sha256 data := if data = [3] then digestThree else digestFour
  sealInPlaceAppendTag _ nonce plaintext :=
    (sealedSamples.find? fun e => e.1 = nonce ∧ e.2.1 = plaintext).map (·.2.2)
  openInPlace _ nonce sealed :=
    (sealedSamples.find? fun e => e.1 = nonce ∧ e.2.2 = sealed).map (·.2.1)
  toVec hashes :=
    if hashes = [] then .ok [91, 93]
    else if hashes = [String.ofList (hexLower digestThree)] then .ok manifestThree
    else .error "unsupported"
  fromSlice json :=
    if json = [91, 93] then .ok []
    else if json = manifestThree then .ok [String.ofList (hexLower digestThree)]
    else .error "expected value at line 1 column 1"

theorem inverts_sampleLibs : sampleLibs.Inverts := by
  constructor
  · intro key nonce plaintext sealed h
    obtain ⟨e, hfind, rfl⟩ := Option.map_eq_some_iff.mp h
    have hmem := List.mem_of_find?_eq_some hfind
    have hkeys : e.1 = nonce ∧ e.2.1 = plaintext := by simpa using List.find?_some hfind
    have hback : ∀ e ∈ sealedSamples,
        (sealedSamples.find? fun e' => e'.1 = e.1 ∧ e'.2.2 = e.2.2).map (·.2.1) = some e.2.1 := by
      decide +kernel
    rw [← hkeys.1, ← hkeys.2]
    exact hback e hmem
  · intro hashes json h
    simp only [sampleLibs] at h ⊢
    split at h
    · next heq =>
      cases h
      rw [if_pos rfl, heq]
    split at h
    · next heq =>
      cases h
      rw [if_neg (by decide), if_pos rfl, heq]
    · cases h

/-- Bytes of one kind, as many as a nonce has. -/
def sampleNonce (byte : UInt8) : Nonce := ⟨List.replicate 12 byte, by simp⟩

/-- The turns of a call whose first upload ends as given. -/
def sampleTurns (uploadFault : Option UploadFault) : ℕ → Turn
  | 0 => ⟨none, sampleNonce 0, uploadFault⟩
  | _ => ⟨none, sampleNonce 1, none⟩

/-- Chunks of one byte. -/
def sampleManager : OffsiteBackupManager := ⟨List.replicate 32 0, "picloud/cluster-1", 1⟩

/-- A snapshot is backed up, and another backup under its time stamp fails with its chunk stored. -/
def sampleBackups : List OffsiteAction :=
  [.backup (StorageState.sampleVolume "photo-app" "photos") "2025-07-01" [3] (sampleTurns none),
    .backup (StorageState.sampleVolume "photo-app" "photos") "2025-07-01" [4]
      (sampleTurns (some ⟨.internal "S3 upload failed: connection closed", true⟩))]

theorem restores_exactly_sample :
    sampleManager.restoreSnapshot sampleLibs (sampleManager.run sampleLibs [] sampleBackups).target
      (StorageState.sampleVolume "photo-app" "photos") "2025-07-01" = .ok [3] := by
  have hvolume : IsVolumeIri ⟨"picloud.local"⟩ (StorageState.sampleVolume "photo-app" "photos") :=
    StorageState.isVolumeIri_sampleVolume (by unfold Slug; decide) (by unfold Slug; decide)
  have hdecrypts : sampleManager.Decrypts sampleLibs ⟨"picloud.local"⟩
      (sampleManager.chunksOf sampleBackups) [] := fun _ _ _ _ _ hobject => by cases hobject
  refine (restores_exactly inverts_sampleLibs le_rfl [] sampleBackups ?_ ?_ hdecrypts).1 _ _ _ ?_
  · intro a ha
    simp only [sampleBackups, List.mem_cons, List.not_mem_nil, or_false] at ha
    rcases ha with rfl | rfl
    · exact ⟨hvolume, by decide⟩
    · exact ⟨hvolume, by decide⟩
  · have hchunks : ∀ chunk ∈ sampleManager.chunksOf sampleBackups, chunk = [3] ∨ chunk = [4] := by
      rintro chunk ⟨v, timestamp, data, turns, hmem, hchunk⟩
      simp only [sampleBackups, List.mem_cons, List.not_mem_nil, or_false,
        OffsiteAction.backup.injEq] at hmem
      rcases hmem with ⟨-, -, rfl, -⟩ | ⟨-, -, rfl, -⟩
      · exact Or.inl (List.mem_singleton.mp hchunk)
      · exact Or.inr (List.mem_singleton.mp hchunk)
    intro c hc c' hc' heq
    rcases hchunks c hc with rfl | rfl <;> rcases hchunks c' hc' with rfl | rfl
    · rfl
    · exact absurd heq (by decide)
    · exact absurd heq (by decide)
    · rfl
  · decide +kernel

/-- The chunk `[3]` of the sample volume as a key of ones seals it, under the key of the chunk. -/
def staleChunk : BackupTarget :=
  [(sampleManager.chunkKey (StorageState.sampleVolume "photo-app" "photos")
      (chunkHash sampleLibs [3]),
    List.replicate 12 0 ++
      [188, 231, 96, 58, 108, 58, 204, 194, 203, 13, 48, 71, 77, 8, 245, 114, 218])]

/-- A snapshot is backed up, and the manifest of an empty one under its time stamp is stored while its
upload fails. -/
def manifestReplaced : List OffsiteAction :=
  [.backup (StorageState.sampleVolume "photo-app" "photos") "2025-07-01" [3] (sampleTurns none),
    .backup (StorageState.sampleVolume "photo-app" "photos") "2025-07-01" []
      (sampleTurns (some ⟨.internal "S3 upload failed: connection closed", true⟩))]

/-- A backup that returned `Ok` is not restored when its chunk lies there under another encryption
key, nor when a later backup has failed with its manifest stored. -/
theorem ok_backup_not_restored :
    (let s := sampleManager.run sampleLibs staleChunk
        [.backup (StorageState.sampleVolume "photo-app" "photos") "2025-07-01" [3] (sampleTurns none)];
      s.latestOk (StorageState.sampleVolume "photo-app" "photos") "2025-07-01" = some [3] ∧
        sampleManager.restoreSnapshot sampleLibs s.target
          (StorageState.sampleVolume "photo-app" "photos") "2025-07-01" =
            .error (.internal "AES-256-GCM decryption failed")) ∧
    (let s := sampleManager.run sampleLibs [] manifestReplaced;
      s.latestOk (StorageState.sampleVolume "photo-app" "photos") "2025-07-01" = some [3] ∧
        sampleManager.restoreSnapshot sampleLibs s.target
          (StorageState.sampleVolume "photo-app" "photos") "2025-07-01" = .ok []) := by
  decide +kernel

end OffsiteBackupManager

end Picloud
