import Picloud.Storage.OffsiteKeys

/-!
# Listing the backups of a volume

Reference: `S3BackupClient` of `picloud-storage/src/backup.rs`.

An upload puts an object under the configured prefix, the sanitised IRI and the timestamp; a listing
asks the bucket for the keys that start with the prefix and the sanitised IRI. The text asked for does
not end in a slash, so it also starts the keys of every volume whose name goes on from the name of the
volume asked for (`isPrefix_uploadKey_iff`).

The bucket answers a listing with the objects whose keys start with the text, in one page. A request
may fail; `chrono` is a parameter.
-/

namespace Picloud

open Lib

/-! ## The bucket -/

/-- An object of the bucket, as a listing shows it. -/
structure S3Object where
  size : ℕ
  lastModified : String
deriving DecidableEq

/-- The objects of a bucket. -/
abbrev S3Bucket := Assoc String S3Object

/-- `BackupRecord`. -/
structure BackupRecord where
  volumeIri : ResourceIri
  s3Key : String
  sizeBytes : ℕ
  uploadedAt : ℤ
deriving DecidableEq

/-- What a put ends in: no answer, whether or not the object was stored, or a status. -/
inductive PutAnswer where
  | sendError (e : String) (stored : Bool)
  | notSuccess (status body : String)
  | success
deriving DecidableEq

/-- The object is in the bucket afterwards. -/
def PutAnswer.stores : PutAnswer → Bool
  | .sendError _ stored => stored
  | .notSuccess .. => false
  | .success => true

/-- What asking for a listing ends in. -/
inductive ListAnswer where
  | sendError (e : String)
  | notSuccess
  | textError (e : String)
  | xmlError (e : String)
  | contents (contents : List (String × S3Object))

/-- The objects whose keys start with a text. -/
def S3Bucket.startingWith (bucket : S3Bucket) (start : String) : List (String × S3Object) :=
  bucket.filter fun object => start.toList.isPrefixOf object.1.toList

/-! ## The client -/

/-- `S3BackupClient`, without the place of its bucket. -/
structure S3BackupClient where
  keyPrefix : String
  parseFromRfc3339 : String → Option ℤ

/-- A call of `upload_snapshot`, with what the bucket does. -/
structure SnapshotUpload where
  volumeIri : ResourceIri
  snapshotTimestamp : String
  data : Bytes
  lastModified : String
  now : ℤ
  answer : PutAnswer

namespace S3BackupClient

variable (client : S3BackupClient)

/-- The key of an upload. -/
def uploadKey (volumeIri : ResourceIri) (snapshotTimestamp : String) : String :=
  client.keyPrefix ++ "/" ++ sanitizeIriForPath volumeIri.value ++ "/" ++ snapshotTimestamp

/-- `upload_snapshot`. -/
def uploadSnapshot (bucket : S3Bucket) (u : SnapshotUpload) :
    Except StorageError BackupRecord × S3Bucket :=
  let key := client.uploadKey u.volumeIri u.snapshotTimestamp
  let bucket := if u.answer.stores then Assoc.set bucket key ⟨u.data.length, u.lastModified⟩ else bucket
  match u.answer with
  | .sendError e _ => (.error (.internal ("S3 upload failed: " ++ e)), bucket)
  | .notSuccess status body =>
    (.error (.internal ("S3 upload failed with status " ++ status ++ ": " ++ body)), bucket)
  | .success => (.ok ⟨u.volumeIri, key, u.data.length, u.now⟩, bucket)

/-- The text that the keys of a listing start with. -/
def listStart (volumeIri : ResourceIri) : String :=
  client.keyPrefix ++ "/" ++ sanitizeIriForPath volumeIri.value

/-- `list_backups`, with the answer of the bucket. -/
def listBackups (volumeIri : ResourceIri) : ListAnswer → Except StorageError (List BackupRecord)
  | .sendError e => .error (.internal ("S3 list failed: " ++ e))
  | .notSuccess => .ok []
  | .textError e => .error (.internal ("Failed to read S3 list response: " ++ e))
  | .xmlError e => .error (.internal ("Failed to parse S3 XML: " ++ e))
  | .contents contents => .ok <| contents.filterMap fun item =>
      (client.parseFromRfc3339 item.2.lastModified).map fun uploadedAt =>
        ⟨volumeIri, item.1, item.2.size, uploadedAt⟩

/-- The bucket after some uploads. -/
def uploadAll (bucket : S3Bucket) (uploads : List SnapshotUpload) : S3Bucket :=
  uploads.foldl (fun bucket u => (client.uploadSnapshot bucket u).2) bucket

/-- The listing of a volume, when the bucket answers it. -/
def listed (bucket : S3Bucket) (volumeIri : ResourceIri) : Except StorageError (List BackupRecord) :=
  client.listBackups volumeIri (.contents (bucket.startingWith (client.listStart volumeIri)))

/-! ## What a listing should show -/

/-- No upload behind this one has its key. -/
def NotOverwritten (uploads : List SnapshotUpload) (u : SnapshotUpload) : Prop :=
  ∃ before later, uploads = before ++ u :: later ∧ ∀ w ∈ later,
    client.uploadKey w.volumeIri w.snapshotTimestamp ≠ client.uploadKey u.volumeIri u.snapshotTimestamp

/-- The records show the volume, the key and the size of every stored upload of the volume, and of no
upload of another volume. -/
structure ShowsOwn (uploads : List SnapshotUpload) (volumeIri : ResourceIri)
    (records : List BackupRecord) : Prop where
  own : ∀ u ∈ uploads, u.answer.stores → u.volumeIri = volumeIri → ∃ r ∈ records,
    r.volumeIri = volumeIri ∧ r.s3Key = client.uploadKey u.volumeIri u.snapshotTimestamp ∧
      (client.NotOverwritten uploads u → r.sizeBytes = u.data.length)
  others : ∀ u ∈ uploads, u.answer.stores → u.volumeIri ≠ volumeIri →
    ∀ r ∈ records, r.s3Key ≠ client.uploadKey u.volumeIri u.snapshotTimestamp

/-- After the uploads to an empty bucket, the listing of the volume shows its own uploads. -/
def ListsOwn (uploads : List SnapshotUpload) (volumeIri : ResourceIri) : Prop :=
  ∃ records, client.listed (client.uploadAll [] uploads) volumeIri = .ok records ∧
    client.ShowsOwn uploads volumeIri records

end S3BackupClient

/-- The second volume is of the same product and type, and the name of the first one begins its
name. -/
def NameGoesOn (iris : IriBuilder) (v w : ResourceIri) : Prop :=
  ∃ product resourceType name name', Slug product ∧ Slug resourceType ∧ Slug name ∧ Slug name' ∧
    v = ⟨iris.resource product resourceType name⟩ ∧ w = ⟨iris.resource product resourceType name'⟩ ∧
      name.toList <+: name'.toList

/-! ## The keys -/

/-- A text without the separator is cut off the same way by a text that goes on. -/
theorem isPrefix_cons_append_iff {sep : Char} {s s' t t' : List Char} (hs : sep ∉ s) (hs' : sep ∉ s') :
    s ++ sep :: t <+: s' ++ sep :: t' ↔ s = s' ∧ t <+: t' := by
  constructor
  · rintro ⟨rest, heq⟩
    have heq' : s ++ sep :: (t ++ rest) = s' ++ sep :: t' := by simpa using heq
    obtain ⟨rfl, htail⟩ := append_cons_inj_first heq' hs hs'
    exact ⟨rfl, rest, htail⟩
  · rintro ⟨rfl, hpre⟩
    exact (List.prefix_append_right_inj s).mpr (List.cons_prefix_cons.mpr ⟨rfl, hpre⟩)

/-- Without the separator, a text begins a text with a separator when it begins what is before it. -/
theorem isPrefix_append_cons_iff {sep : Char} {s s' t' : List Char} (hs : sep ∉ s) :
    s <+: s' ++ sep :: t' ↔ s <+: s' := by
  refine ⟨fun hpre => ?_, fun hpre => hpre.trans (List.prefix_append _ _)⟩
  rcases List.prefix_or_prefix_of_prefix hpre (List.prefix_append s' _) with h | ⟨rest, rfl⟩
  · exact h
  · cases rest with
    | nil => simp
    | cons c rest =>
      have hrest := (List.prefix_append_right_inj s').mp hpre
      obtain ⟨rfl, -⟩ := List.cons_prefix_cons.mp hrest
      exact absurd (List.mem_append_right s' List.mem_cons_self) hs

namespace S3BackupClient

variable {client : S3BackupClient}

theorem uploadKey_toList (v : ResourceIri) (timestamp : String) :
    (client.uploadKey v timestamp).toList = (client.listStart v).toList ++ '/' :: timestamp.toList := by
  simp [uploadKey, listStart]

/-- The text of a listing begins the keys of its own volume and of those whose names go on. -/
theorem isPrefix_uploadKey_iff {iris : IriBuilder} {v w : ResourceIri} (hv : IsVolumeIri iris v)
    (hw : IsVolumeIri iris w) (timestamp : String) :
    (client.listStart v).toList <+: (client.uploadKey w timestamp).toList ↔ NameGoesOn iris v w := by
  have hkeys : ∀ {product resourceType name product' resourceType' name' : String},
      Slug product → Slug resourceType → Slug name → Slug product' → Slug resourceType' → Slug name' →
      ((client.listStart ⟨iris.resource product resourceType name⟩).toList <+:
        (client.uploadKey ⟨iris.resource product' resourceType' name'⟩ timestamp).toList ↔
        product.toList = product'.toList ∧ resourceType.toList = resourceType'.toList ∧
          name.toList <+: name'.toList) := by
    intro product resourceType name product' resourceType' name' hp ht hn hp' ht' hn'
    -- behind the prefix and the root of the cluster, the segments are compared one by one
    have hstart : ∀ {p t n : String}, Slug p → Slug t → Slug n →
        (client.listStart ⟨iris.resource p t n⟩).toList =
          client.keyPrefix.toList ++ '/' :: (sanitizedRoot iris ++ segments p t n) := by
      intro p t n hp ht hn
      simp [listStart, sanitizeIriForPath_resource iris hp ht hn]
    have hassoc : segments product' resourceType' name' ++ '/' :: timestamp.toList =
        ['p', 'r', 'o', 'd', 'u', 'c', 't', 's'] ++ '/' :: (product'.toList ++ '/' ::
          (resourceType'.toList ++ '/' :: (name'.toList ++ '/' :: timestamp.toList))) := by
      simp [segments]
    rw [uploadKey_toList, hstart hp ht hn, hstart hp' ht' hn', List.append_assoc, List.cons_append,
      List.append_assoc, hassoc, segments, List.prefix_append_right_inj, List.cons_prefix_cons,
      List.prefix_append_right_inj, List.prefix_append_right_inj, List.cons_prefix_cons,
      isPrefix_cons_append_iff (slash_notMem_of_slug hp) (slash_notMem_of_slug hp'),
      isPrefix_cons_append_iff (slash_notMem_of_slug ht) (slash_notMem_of_slug ht'),
      isPrefix_append_cons_iff (slash_notMem_of_slug hn)]
    simp
  constructor
  · intro hpre
    obtain ⟨product, resourceType, name, hp, ht, hn, rfl⟩ := hv
    obtain ⟨product', resourceType', name', hp', ht', hn', rfl⟩ := hw
    obtain ⟨hproduct, htype, hname⟩ := (hkeys hp ht hn hp' ht' hn').mp hpre
    obtain rfl := String.toList_inj.mp hproduct
    obtain rfl := String.toList_inj.mp htype
    exact ⟨product, resourceType, name, name', hp, ht, hn, hn', rfl, rfl, hname⟩
  · rintro ⟨product, resourceType, name, name', hp, ht, hn, hn', rfl, rfl, hname⟩
    exact (hkeys hp ht hn hp ht hn').mpr ⟨rfl, rfl, hname⟩

/-! ## The bucket after the uploads -/

theorem uploadSnapshot_bucket (bucket : S3Bucket) (u : SnapshotUpload) :
    (client.uploadSnapshot bucket u).2 = if u.answer.stores then
      Assoc.set bucket (client.uploadKey u.volumeIri u.snapshotTimestamp)
        ⟨u.data.length, u.lastModified⟩ else bucket := by
  rw [uploadSnapshot]
  cases u.answer <;> rfl

variable {bucket : S3Bucket} {uploads : List SnapshotUpload}

/-- What the bucket holds afterwards was there or has been uploaded. -/
theorem mem_uploadAll {item : String × S3Object} (h : item ∈ client.uploadAll bucket uploads) :
    item ∈ bucket ∨ ∃ u ∈ uploads, u.answer.stores ∧
      item = (client.uploadKey u.volumeIri u.snapshotTimestamp, ⟨u.data.length, u.lastModified⟩) := by
  induction uploads generalizing bucket with
  | nil => exact Or.inl h
  | cons u uploads ih =>
    rcases ih h with hmem | ⟨w, hw, hstores, heq⟩
    · dsimp only at hmem
      rw [uploadSnapshot_bucket] at hmem
      split at hmem
      · next hstores =>
        rcases Assoc.mem_set.mp hmem with rfl | ⟨hmem, -⟩
        · exact Or.inr ⟨u, List.mem_cons_self, hstores, rfl⟩
        · exact Or.inl hmem
      · exact Or.inl hmem
    · exact Or.inr ⟨w, List.mem_cons_of_mem _ hw, hstores, heq⟩

/-- A key that no upload has keeps its object. -/
theorem get_uploadAll_of_ne {key : String}
    (h : ∀ u ∈ uploads, client.uploadKey u.volumeIri u.snapshotTimestamp ≠ key) :
    Assoc.get (client.uploadAll bucket uploads) key = Assoc.get bucket key := by
  induction uploads generalizing bucket with
  | nil => rfl
  | cons u uploads ih =>
    obtain ⟨hu, hrest⟩ := List.forall_mem_cons.mp h
    have hfirst : Assoc.get (client.uploadSnapshot bucket u).2 key = Assoc.get bucket key := by
      rw [uploadSnapshot_bucket]
      split
      · exact Assoc.get_set_of_ne _ _ hu.symm
      · rfl
    exact (ih hrest).trans hfirst

theorem uploadAll_append (bucket : S3Bucket) (before later : List SnapshotUpload) :
    client.uploadAll bucket (before ++ later) = client.uploadAll (client.uploadAll bucket before) later :=
  List.foldl_append

theorem get_uploadAll_of_notOverwritten (bucket : S3Bucket) {u : SnapshotUpload}
    (hstores : u.answer.stores) (h : client.NotOverwritten uploads u) :
    Assoc.get (client.uploadAll bucket uploads) (client.uploadKey u.volumeIri u.snapshotTimestamp) =
      some ⟨u.data.length, u.lastModified⟩ := by
  obtain ⟨before, later, rfl, hlater⟩ := h
  rw [uploadAll_append]
  change Assoc.get (client.uploadAll (client.uploadSnapshot _ u).2 later) _ = _
  rw [get_uploadAll_of_ne hlater, uploadSnapshot_bucket, if_pos hstores, Assoc.get_set_self]

/-- What is in the bucket under a key is not lost. -/
theorem exists_get_uploadAll {key : String} (h : ∃ object, Assoc.get bucket key = some object) :
    ∃ object, Assoc.get (client.uploadAll bucket uploads) key = some object := by
  induction uploads generalizing bucket with
  | nil => exact h
  | cons u uploads ih =>
    refine ih ?_
    dsimp only
    rw [uploadSnapshot_bucket]
    split
    · by_cases hkey : key = client.uploadKey u.volumeIri u.snapshotTimestamp
      · rw [hkey]
        exact ⟨_, Assoc.get_set_self _ _ _⟩
      · rw [Assoc.get_set_of_ne _ _ hkey]
        exact h
    · exact h

theorem exists_get_of_stored (bucket : S3Bucket) {u : SnapshotUpload} (hu : u ∈ uploads)
    (hstores : u.answer.stores) :
    ∃ object, Assoc.get (client.uploadAll bucket uploads)
      (client.uploadKey u.volumeIri u.snapshotTimestamp) = some object := by
  obtain ⟨before, later, rfl⟩ := List.append_of_mem hu
  rw [uploadAll_append]
  change ∃ object, Assoc.get (client.uploadAll (client.uploadSnapshot _ u).2 later) _ = some object
  apply exists_get_uploadAll
  rw [uploadSnapshot_bucket, if_pos hstores]
  exact ⟨_, Assoc.get_set_self _ _ _⟩

/-! ## The listing -/

/-- The records of a listing are the objects whose dates can be read. -/
theorem mem_listed_iff {v : ResourceIri} {records : List BackupRecord}
    (h : client.listed bucket v = .ok records) {r : BackupRecord} :
    r ∈ records ↔ r.volumeIri = v ∧ ∃ object, (r.s3Key, object) ∈ bucket ∧
      (client.listStart v).toList <+: r.s3Key.toList ∧ r.sizeBytes = object.size ∧
        client.parseFromRfc3339 object.lastModified = some r.uploadedAt := by
  obtain ⟨volumeIri, s3Key, sizeBytes, uploadedAt⟩ := r
  cases h
  simp only [List.mem_filterMap, S3Bucket.startingWith, List.mem_filter, Option.map_eq_some_iff,
    BackupRecord.mk.injEq, List.isPrefixOf_iff_prefix, Prod.exists]
  constructor
  · rintro ⟨key, object, ⟨hmem, hstart⟩, date, hdate, rfl, rfl, rfl, rfl⟩
    exact ⟨rfl, object, hmem, hstart, rfl, hdate⟩
  · rintro ⟨rfl, object, hmem, hstart, rfl, hdate⟩
    exact ⟨s3Key, object, ⟨hmem, hstart⟩, uploadedAt, hdate, rfl, rfl, rfl, rfl⟩

section Uploads

variable {iris : IriBuilder} {uploads : List SnapshotUpload} {v : ResourceIri}

/-- An upload whose volume's name goes on from the name asked for has a record. -/
theorem exists_record {records : List BackupRecord}
    (hdates : ∀ u ∈ uploads, ∃ date, client.parseFromRfc3339 u.lastModified = some date)
    (hlist : client.listed (client.uploadAll [] uploads) v = .ok records) {u : SnapshotUpload}
    (hu : u ∈ uploads) (hstores : u.answer.stores)
    (hstart : (client.listStart v).toList <+:
      (client.uploadKey u.volumeIri u.snapshotTimestamp).toList) :
    ∃ r ∈ records, r.volumeIri = v ∧ r.s3Key = client.uploadKey u.volumeIri u.snapshotTimestamp ∧
      (client.NotOverwritten uploads u → r.sizeBytes = u.data.length) := by
  obtain ⟨object, hget⟩ := exists_get_of_stored [] hu hstores
  have hmem := Assoc.mem_of_get hget
  rcases mem_uploadAll hmem with hnil | ⟨w, hw, -, heq⟩
  · exact absurd hnil List.not_mem_nil
  · obtain ⟨date, hdate⟩ := hdates w hw
    have hobject : object = ⟨w.data.length, w.lastModified⟩ := congrArg Prod.snd heq
    refine ⟨⟨v, client.uploadKey u.volumeIri u.snapshotTimestamp, object.size, date⟩,
      (mem_listed_iff hlist).mpr ⟨rfl, object, hmem, hstart, rfl, hobject ▸ hdate⟩, rfl, rfl, ?_⟩
    intro hlast
    have hlast := get_uploadAll_of_notOverwritten [] hstores hlast
    rw [hget, Option.some.injEq] at hlast
    rw [hlast]

/-- **A listing shows the volume's own backups exactly when no name goes on.** The listing of a volume
shows every upload of the volume and no upload of another one if and only if nothing has been stored
for another volume of the same product and type whose name the volume's name begins. -/
theorem listsOwn_iff (hv : IsVolumeIri iris v) (hslug : ∀ u ∈ uploads, IsVolumeIri iris u.volumeIri)
    (hdates : ∀ u ∈ uploads, ∃ date, client.parseFromRfc3339 u.lastModified = some date) :
    client.ListsOwn uploads v ↔
      ∀ u ∈ uploads, u.answer.stores → NameGoesOn iris v u.volumeIri → u.volumeIri = v := by
  constructor
  · rintro ⟨records, hlist, hown⟩ u hu hstores hgoesOn
    by_contra hne
    obtain ⟨r, hr, -, hkey, -⟩ := exists_record hdates hlist hu hstores
      ((isPrefix_uploadKey_iff hv (hslug u hu) _).mpr hgoesOn)
    exact hown.others u hu hstores hne r hr hkey
  · intro hapart
    refine ⟨_, rfl, ⟨fun u hu hstores hiri => ?_, fun u hu hstores hne r hr hkey => ?_⟩⟩
    · refine exists_record hdates rfl hu hstores ?_
      rw [uploadKey_toList, hiri]
      exact List.prefix_append _ _
    · obtain ⟨-, object, -, hstart, -⟩ := (mem_listed_iff rfl).mp hr
      rw [hkey, isPrefix_uploadKey_iff hv (hslug u hu)] at hstart
      exact hne (hapart u hu hstores hstart)

end Uploads

/-! ## Two volumes of a product -/

/-- A client that reads every date. -/
def sampleS3Client : S3BackupClient := ⟨"picloud", fun _ => some 0⟩

/-- An upload of a volume of the photo app. -/
def uploadOf (name : String) (data : Bytes) : SnapshotUpload where
  volumeIri := StorageState.sampleVolume "photo-app" name
  snapshotTimestamp := "2025-07-01T02-00-00.123456Z"
  data := data
  lastModified := "2025-07-01T02:00:05.000Z"
  now := 0
  answer := .success

/-- Photos and thumbnails are told apart. -/
theorem listsOwn_photosAndThumbnails :
    sampleS3Client.ListsOwn [uploadOf "photos" [1, 2], uploadOf "thumbnails" [3]]
      (StorageState.sampleVolume "photo-app" "photos") := by
  have hslug : ∀ s ∈ ["photo-app", "photos", "thumbnails"], Slug s := by
    unfold Slug
    decide
  have hphotos := StorageState.isVolumeIri_sampleVolume (hslug "photo-app" (by simp))
    (hslug "photos" (by simp))
  have hthumbnails := StorageState.isVolumeIri_sampleVolume (hslug "photo-app" (by simp))
    (hslug "thumbnails" (by simp))
  refine (listsOwn_iff hphotos ?_ fun u _ => ⟨0, rfl⟩).mpr ?_
  · rintro u hu
    rcases List.mem_pair.mp hu with rfl | rfl
    · exact hphotos
    · exact hthumbnails
  · rintro u hu - hgoesOn
    rcases List.mem_pair.mp hu with rfl | rfl
    · rfl
    · have hstart : (sampleS3Client.listStart _).toList <+: (sampleS3Client.uploadKey _ "").toList :=
        (isPrefix_uploadKey_iff hphotos hthumbnails "").mpr hgoesOn
      exact absurd hstart (by decide +kernel)

/-- The listing of the photos shows the backup of the volume they have been restored to. -/
theorem not_listsOwn_photosRestored :
    IsVolumeIri ⟨"picloud.local"⟩ (StorageState.sampleVolume "photo-app" "photos") ∧
    IsVolumeIri ⟨"picloud.local"⟩ (StorageState.sampleVolume "photo-app" "photos-restored") ∧
    sampleS3Client.listed (sampleS3Client.uploadAll []
        [uploadOf "photos" [1, 2], uploadOf "photos-restored" [3]])
      (StorageState.sampleVolume "photo-app" "photos") = .ok
      [⟨StorageState.sampleVolume "photo-app" "photos",
          "picloud/picloud.local/products/photo-app/volumes/photos-restored/" ++
            "2025-07-01T02-00-00.123456Z", 1, 0⟩,
        ⟨StorageState.sampleVolume "photo-app" "photos",
          "picloud/picloud.local/products/photo-app/volumes/photos/2025-07-01T02-00-00.123456Z",
          2, 0⟩] ∧
    ¬ sampleS3Client.ListsOwn [uploadOf "photos" [1, 2], uploadOf "photos-restored" [3]]
      (StorageState.sampleVolume "photo-app" "photos") := by
  have hlist : sampleS3Client.listed (sampleS3Client.uploadAll []
        [uploadOf "photos" [1, 2], uploadOf "photos-restored" [3]])
      (StorageState.sampleVolume "photo-app" "photos") = .ok
      [⟨StorageState.sampleVolume "photo-app" "photos",
          "picloud/picloud.local/products/photo-app/volumes/photos-restored/" ++
            "2025-07-01T02-00-00.123456Z", 1, 0⟩,
        ⟨StorageState.sampleVolume "photo-app" "photos",
          "picloud/picloud.local/products/photo-app/volumes/photos/2025-07-01T02-00-00.123456Z",
          2, 0⟩] := by
    decide +kernel
  have hslug : ∀ s ∈ ["photo-app", "photos", "photos-restored"], Slug s := by
    unfold Slug
    decide
  refine ⟨StorageState.isVolumeIri_sampleVolume (hslug "photo-app" (by simp))
      (hslug "photos" (by simp)),
    StorageState.isVolumeIri_sampleVolume (hslug "photo-app" (by simp))
      (hslug "photos-restored" (by simp)), hlist, ?_⟩
  rintro ⟨records, hrecords, hown⟩
  rw [hlist] at hrecords
  cases hrecords
  refine hown.others (uploadOf "photos-restored" [3]) (by simp) rfl ?_ _ List.mem_cons_self ?_
  · decide +kernel
  · decide +kernel

end S3BackupClient

end Picloud
