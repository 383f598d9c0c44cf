import Picloud.Registry.BlobWrites

/-!
# Content addressing

A read of a blob returns the data of its digest, and what has been stored is read until it is deleted.
This holds of a run in which nothing crashes in a write and nothing opens a file that is being written:
then every file that nobody writes to is whole (`BlobsSound`). `put` takes any file that exists for the
data, also one that a crash has left half written.
-/

namespace Picloud

open Lib

/-! ## What is claimed, and the condition -/

/-- What is stored under each hash, after an event. -/
def expectedAfter (expected : String → Option Bytes) : BlobEvent → String → Option Bytes
  | .stored digest data => Function.update expected (hashOf digest) (some data)
  | .deleted digest => Function.update expected (hashOf digest) none
  | .got _ _ => expected

/-- What was stored last under each hash and has not been deleted since. -/
def expected (log : List BlobEvent) : String → Option Bytes := log.foldl expectedAfter fun _ => none

theorem expected_concat (log : List BlobEvent) (event : BlobEvent) :
    expected (log ++ [event]) = expectedAfter (expected log) event := by
  rw [expected, List.foldl_append]
  rfl

theorem expected_got (log : List BlobEvent) (digest : String) (result : Option Bytes) :
    expected (log ++ [.got digest result]) = expected log := expected_concat log _

/-- What a read finds is the data of the digest; and if data has been stored and not deleted, it is this
data. -/
def RightRead (env : RegistryEnv) (log : List BlobEvent) (digest : String) (result : Option Bytes) :
    Prop :=
  (∀ data, result = some data → env.hexHash data = hashOf digest) ∧
    ∀ data, expected log (hashOf digest) = some data → result = some data

/-- Every read of a log is right. -/
def RightReads (env : RegistryEnv) (log : List BlobEvent) : Prop :=
  ∀ before digest result after, log = before ++ .got digest result :: after →
    RightRead env before digest result

/-- What is claimed of a schedule: in the run from a store without blobs every read is right. -/
def ContentAddressed (env : RegistryEnv) (start : FileTree DiskFile) (acts : List DiskAct) : Prop :=
  ∀ final, runSteps (diskNext env) ⟨⟨start, 0, []⟩, []⟩ acts = some final →
    RightReads env final.shared.log

/-- The hash whose file a task writes to. -/
def BlobTask.writes : BlobTask → Option String
  | .write digest .. => some (hashOf digest)
  | _ => none

/-- The hash whose file the next step of a task looks at or changes. -/
def BlobTask.opens : BlobTask → Option String
  | .put digest _ | .create digest _ | .get digest | .remove digest => some (hashOf digest)
  | _ => none

/-- The call names no path. -/
def BlobCall.Plain : BlobCall → Prop
  | .put _ _ => True
  | .get digest | .delete digest => '/' ∉ (hashOf digest).toList

instance (c : BlobCall) : Decidable c.Plain :=
  match c with
  | .put _ _ => isTrue trivial
  | .get digest => inferInstanceAs (Decidable ('/' ∉ (hashOf digest).toList))
  | .delete digest => inferInstanceAs (Decidable ('/' ∉ (hashOf digest).toList))

/-- Nothing crashes in a write, and nothing opens a file that is being written. -/
def Undisturbed (p : Pool BlobDisk BlobTask) : DiskAct → Prop
  | .crash => ∀ t ∈ p.tasks, t.writes = none
  | .act (.call c) => c.Plain
  | .act (.step i) => ∀ h ∈ (p.tasks[i]?.bind BlobTask.opens).toList, ∀ t ∈ p.tasks,
      t.writes ≠ some h

instance (p : Pool BlobDisk BlobTask) (a : DiskAct) : Decidable (Undisturbed p a) :=
  match a with
  | .crash => inferInstanceAs (Decidable (∀ t ∈ p.tasks, t.writes = none))
  | .act (.call c) => inferInstanceAs (Decidable c.Plain)
  | .act (.step i) => inferInstanceAs (Decidable (∀ h ∈ (p.tasks[i]?.bind BlobTask.opens).toList,
      ∀ t ∈ p.tasks, t.writes ≠ some h))

/-- The data that is put. -/
def putData (acts : List DiskAct) : List Bytes :=
  acts.filterMap fun
    | .act (.call (.put _ data)) => some data
    | _ => none

/-- A store that has been made, without blobs. -/
structure FreshStore (env : RegistryEnv) (start : FileTree DiskFile) : Prop where
  closed : start.Closed
  dir : start.get env.blobsDir = some .dir
  empty : ∀ name, start.get (env.blobsDir ++ [name]) = none

/-! ## The invariant -/

/-- What a task relies on; `D` is the data that is put. -/
def BlobTask.Sound (env : RegistryEnv) (D : List Bytes) (tree : FileTree DiskFile) :
    BlobTask → Prop
  | .put _ data => data ∈ D
  | .create digest data => data ∈ D ∧ hashOf digest = env.hexHash data
  | .write digest data path inode written => data ∈ D ∧ hashOf digest = env.hexHash data ∧
      path = env.blobsDir ++ [hashOf digest] ∧ written ≤ data.length ∧
      tree.get path = some (.file ⟨inode, data.take written⟩)
  | .get digest | .delete digest | .remove digest => '/' ∉ (hashOf digest).toList
  | .done _ => True

/-- No two tasks write to one file. -/
def OneWriter (tasks : List BlobTask) : Prop :=
  ∀ (i j : ℕ) (t t' : BlobTask) h, tasks[i]? = some t → tasks[j]? = some t' → t.writes = some h →
    t'.writes = some h → i = j

/-- The files that nobody writes to hold data under its hash, what is expected is there, and all reads
were right. -/
structure BlobsSound (env : RegistryEnv) (D : List Bytes) (p : Pool BlobDisk BlobTask) : Prop where
  closed : p.shared.tree.Closed
  dir : p.shared.tree.get env.blobsDir = some .dir
  files : ∀ h, p.shared.tree.get (env.blobsDir ++ [h]) ≠ some .dir
  whole : ∀ h f, p.shared.tree.get (env.blobsDir ++ [h]) = some (.file f) →
    (∀ t ∈ p.tasks, t.writes ≠ some h) → f.content ∈ D ∧ env.hexHash f.content = h
  tasks : ∀ t ∈ p.tasks, t.Sound env D p.shared.tree
  oneWriter : OneWriter p.tasks
  kept : ∀ h data, expected p.shared.log h = some data → data ∈ D ∧ env.hexHash data = h ∧
    ∃ f, p.shared.tree.get (env.blobsDir ++ [h]) = some (.file f)
  right : RightReads env p.shared.log

section Lemmas

variable {env : RegistryEnv} {D : List Bytes} {tree tree' : FileTree DiskFile}
  {p : Pool BlobDisk BlobTask} {log : List BlobEvent}

theorem isName_hexHash (hsha : ∀ data, (env.sha256 data).length = 32) (data : Bytes) :
    IsName (env.hexHash data) := by
  have hlength : (env.hexHash data).toList.length = 64 := by
    rw [RegistryEnv.hexHash, String.toList_ofList, length_hexLower, hsha]
  refine ⟨?_, ?_, ?_⟩ <;> (intro heq; rw [heq] at hlength; exact absurd hlength (by decide))

theorem rightReads_concat {event : BlobEvent} (h : RightReads env log)
    (hevent : ∀ digest result, event = .got digest result → RightRead env log digest result) :
    RightReads env (log ++ [event]) := by
  intro before digest result after heq
  rcases List.eq_nil_or_concat' after with rfl | ⟨after, last, rfl⟩
  · obtain ⟨rfl, hlast⟩ := List.append_inj' heq rfl
    exact hevent digest result (List.head_eq_of_cons_eq hlast)
  · rw [← List.cons_append, ← List.append_assoc] at heq
    obtain ⟨hlog, -⟩ := List.append_inj' heq rfl
    exact h before digest result after hlog

variable {t t' : BlobTask} {data : Bytes} {inode i : ℕ} {f : DiskFile} {s' : BlobDisk}

/-- What a task relies on is not changed elsewhere. -/
theorem BlobTask.Sound.frame (ht : t.Sound env D tree) (hsame : ∀ h, t.writes = some h →
      tree'.get (env.blobsDir ++ [h]) = tree.get (env.blobsDir ++ [h])) :
    t.Sound env D tree' := by
  cases t with
  | write digest data path inode written =>
    obtain ⟨hdata, hhash, rfl, hle, hget⟩ := ht
    exact ⟨hdata, hhash, rfl, hle, (hsame _ rfl).trans hget⟩
  | _ => exact ht

theorem overwrite_take {written : ℕ} {byte : UInt8} (h : data[written]? = some byte) :
    BlobDisk.overwrite (data.take written) written byte = data.take (written + 1) := by
  have hlt : written < data.length := (List.getElem?_eq_some_iff.mp h).1
  have hlength : (data.take written).length = written := by
    rw [List.length_take]
    omega
  rw [BlobDisk.overwrite, hlength, Nat.sub_self, List.take_take, Nat.min_self,
    List.drop_of_length_le (by omega), List.take_add_one, h]
  simp

/-- Writing to a file that is still there. -/
theorem writeByte_eq {s : BlobDisk} {path : Path} {position : ℕ} {byte : UInt8} {content : Bytes}
    (h : s.tree.get path = some (.file ⟨inode, content⟩)) :
    s.writeByte path inode position byte =
      ⟨s.tree.put path (.file ⟨inode, BlobDisk.overwrite content position byte⟩), s.nextInode,
        s.log⟩ := by
  rw [BlobDisk.writeByte, h]
  exact if_pos rfl

/-! ## Paths of blobs -/

variable (hnames : ∀ name ∈ env.blobsDir, IsName name) {digest : String}

include hnames

theorem isName_of_mem_blob {hash : String} (hhash : IsName hash) :
    ∀ name ∈ env.blobsDir ++ [hash], IsName name := by
  intro name hname
  rcases List.mem_append.mp hname with hold | hlast
  · exact hnames name hold
  · rw [List.mem_singleton.mp hlast]
    exact hhash

theorem get_of_readAt (hclosed : tree.Closed) (hdir : tree.get env.blobsDir = some .dir)
    (hplain : '/' ∉ (hashOf digest).toList) (h : tree.readAt (env.blobPath digest) = some f) :
    tree.get (env.blobsDir ++ [hashOf digest]) = some (.file f) := by
  rw [blobPath_of_notMem hplain] at h
  by_cases hname : IsName (hashOf digest)
  · rw [hclosed.readAt_of_names (isName_of_mem_blob hnames hname)] at h
    split at h
    · next hget => rw [hget, Option.some.inj h]
    · cases h
  · rw [hclosed.readAt_of_not_isName hnames hdir hname] at h
    cases h

theorem readAt_of_get (hclosed : tree.Closed) (hplain : '/' ∉ (hashOf digest).toList)
    (hname : IsName (hashOf digest))
    (h : tree.get (env.blobsDir ++ [hashOf digest]) = some (.file f)) :
    tree.readAt (env.blobPath digest) = some f := by
  rw [blobPath_of_notMem hplain, hclosed.readAt_of_names (isName_of_mem_blob hnames hname), h]

theorem removeAt_eq (hclosed : tree.Closed) (hdir : tree.get env.blobsDir = some .dir)
    (hplain : '/' ∉ (hashOf digest).toList) (h : tree.removeAt (env.blobPath digest) = some tree') :
    ∃ f, tree.get (env.blobsDir ++ [hashOf digest]) = some (.file f) ∧
      tree' = tree.erase (env.blobsDir ++ [hashOf digest]) := by
  rw [blobPath_of_notMem hplain] at h
  by_cases hname : IsName (hashOf digest)
  · rw [hclosed.removeAt_of_names (isName_of_mem_blob hnames hname)] at h
    split at h
    · next f hget => exact ⟨f, hget, (Option.some.inj h).symm⟩
    · cases h
  · rw [hclosed.removeAt_of_not_isName hnames hdir hname] at h
    cases h

/-- Opening the store again leaves the blobs. -/
theorem reopen_get (s : BlobDisk) (hclosed : s.tree.Closed) (hash : String) :
    (reopen env s).tree.get (env.blobsDir ++ [hash]) = s.tree.get (env.blobsDir ++ [hash]) ∧
      (reopen env s).tree.Closed ∧ (s.tree.get env.blobsDir = some .dir →
        (reopen env s).tree.get env.blobsDir = some .dir) := by
  rw [reopen]
  cases hmk : s.tree.makeDirs [] env.blobsDir with
  | none => exact ⟨rfl, hclosed, id⟩
  | some tree =>
    have hadded := FileTree.makeDirs_added hclosed hclosed.root hnames hmk
    rw [List.nil_append] at hadded
    refine ⟨?_, hadded.closed, fun _ => hadded.dir⟩
    cases hget : s.tree.get (env.blobsDir ++ [hash]) with
    | some n => exact hadded.kept _ n hget
    | none =>
      refine (hadded.added _ hget).resolve_right fun hnew => ?_
      have hlength := hnew.2.length_le
      simp at hlength

/-- A file that is created is empty and lies under the hash. -/
theorem createFile_eq {s : BlobDisk} {path : Path} (hclosed : s.tree.Closed)
    (hdir : s.tree.get env.blobsDir = some .dir) (hplain : '/' ∉ (hashOf digest).toList)
    (hname : IsName (hashOf digest))
    (h : s.createFile (env.blobPath digest) = some (s', path, inode)) :
    path = env.blobsDir ++ [hashOf digest] ∧
      s'.tree = s.tree.put path (.file ⟨inode, []⟩) ∧ s'.log = s.log := by
  have htarget : s.tree.target (env.blobPath digest) = some (env.blobsDir ++ [hashOf digest]) := by
    rw [blobPath_of_notMem hplain, hclosed.target_of_names (isName_of_mem_blob hnames hname) hdir]
  rw [BlobDisk.createFile, htarget, Option.bind_some] at h
  split at h
  · cases h
  · cases h
    exact ⟨rfl, rfl, rfl⟩
  · cases h
    exact ⟨rfl, rfl, rfl⟩

omit hnames

/-! ## Steps -/

variable (hD : ∀ a ∈ D, ∀ b ∈ D, env.sha256 a = env.sha256 b → a = b)

include hD in
/-- Data with the same hash is the same. -/
theorem eq_of_hexHash {a b : Bytes} (ha : a ∈ D) (hb : b ∈ D)
    (h : env.hexHash a = env.hexHash b) : a = b :=
  hD a ha b hb (hexLower_injective (String.ofList_injective h))

/-- A step that leaves the files as they are and does not go on writing. -/
theorem BlobsSound.quiet (hs : BlobsSound env D p) (ht : p.tasks[i]? = some t)
    (hwrites : t'.writes = none) (hsound : t'.Sound env D p.shared.tree)
    (hfinished : ∀ h f, t.writes = some h →
      p.shared.tree.get (env.blobsDir ++ [h]) = some (.file f) →
      f.content ∈ D ∧ env.hexHash f.content = h)
    (hkept : ∀ h data, expected log h = some data → data ∈ D ∧ env.hexHash data = h ∧
      ∃ f, p.shared.tree.get (env.blobsDir ++ [h]) = some (.file f)) (hright : RightReads env log) :
    BlobsSound env D ⟨{ p.shared with log := log }, p.tasks.set i t'⟩ where
  closed := hs.closed
  dir := hs.dir
  files := hs.files
  whole h f hget hothers := by
    by_cases hi : t.writes = some h
    · exact hfinished h f hi hget
    · refine hs.whole h f hget fun m hm hmwrites => ?_
      obtain ⟨j, hj⟩ := List.mem_iff_getElem?.mp hm
      by_cases hij : i = j
      · subst hij
        rw [Option.some.inj (hj.symm.trans ht)] at hmwrites
        exact hi hmwrites
      · exact hothers m (List.mem_of_getElem? ((List.getElem?_set_ne hij).trans hj)) hmwrites
  tasks m hm := by
    rcases Pool.mem_set_imp hm with rfl | hold
    · exact hsound
    · exact hs.tasks m hold
  oneWriter := by
    intro j k m m' h hj hk hm hm'
    rcases Pool.getElem?_set_cases hj with ⟨-, rfl⟩ | ⟨-, hj⟩
    · rw [hwrites] at hm
      cases hm
    · rcases Pool.getElem?_set_cases hk with ⟨-, rfl⟩ | ⟨-, hk⟩
      · rw [hwrites] at hm'
        cases hm'
      · exact hs.oneWriter j k m m' h hj hk hm hm'
  kept := hkept
  right := hright

/-- A step that changes one file, to which no other task writes. -/
theorem BlobsSound.setFile (hs : BlobsSound env D p) {hash : String} (ht : p.tasks[i]? = some t)
    (hclosed : s'.tree.Closed)
    (hsame : ∀ q, q ≠ env.blobsDir ++ [hash] → s'.tree.get q = p.shared.tree.get q)
    (hfile : s'.tree.get (env.blobsDir ++ [hash]) ≠ some .dir)
    (hothers : ∀ j m, j ≠ i → p.tasks[j]? = some m → m.writes ≠ some hash)
    (hwrites : ∀ h, t.writes = some h ∨ t'.writes = some h → h = hash)
    (hwhole : t'.writes = none → ∀ f, s'.tree.get (env.blobsDir ++ [hash]) ≠ some (.file f))
    (hsound : t'.Sound env D s'.tree)
    (hkept : ∀ h data, expected s'.log h = some data → data ∈ D ∧ env.hexHash data = h ∧
      ∃ f, s'.tree.get (env.blobsDir ++ [h]) = some (.file f)) (hright : RightReads env s'.log) :
    BlobsSound env D ⟨s', p.tasks.set i t'⟩ where
  closed := hclosed
  dir := by
    rw [hsame _ fun heq => by simpa using congrArg List.length heq]
    exact hs.dir
  files h := by
    by_cases hh : h = hash
    · rw [hh]
      exact hfile
    · rw [hsame _ fun heq => hh (by simpa using heq)]
      exact hs.files h
  whole h f hget hnone := by
    by_cases hh : h = hash
    · subst hh
      cases hw : t'.writes with
      | none => exact absurd hget (hwhole hw f)
      | some h' =>
        obtain rfl := hwrites h' (Or.inr hw)
        have hlt := (List.getElem?_eq_some_iff.mp ht).1
        have hmem : t' ∈ p.tasks.set i t' := List.mem_of_getElem? (List.getElem?_set_self hlt)
        exact absurd hw (hnone t' hmem)
    · rw [hsame _ fun heq => hh (by simpa using heq)] at hget
      refine hs.whole h f hget fun m hm hmwrites => ?_
      obtain ⟨j, hj⟩ := List.mem_iff_getElem?.mp hm
      by_cases hij : i = j
      · subst hij
        obtain rfl : m = t := Option.some.inj (hj.symm.trans ht)
        exact hh (hwrites h (Or.inl hmwrites))
      · exact hnone m (List.mem_of_getElem? ((List.getElem?_set_ne hij).trans hj)) hmwrites
  tasks m hm := by
    obtain ⟨j, hj⟩ := List.mem_iff_getElem?.mp hm
    rcases Pool.getElem?_set_cases hj with ⟨-, rfl⟩ | ⟨hij, hj⟩
    · exact hsound
    · refine (hs.tasks m (List.mem_of_getElem? hj)).frame fun h hm => hsame _ fun heq => ?_
      obtain rfl : h = hash := by simpa using heq
      exact hothers j m hij hj hm
  oneWriter := by
    intro j k m m' h hj hk hm hm'
    rcases Pool.getElem?_set_cases hj with ⟨hji, rfl⟩ | ⟨hji, hold⟩
    · rcases Pool.getElem?_set_cases hk with ⟨hki, -⟩ | ⟨hki, hold'⟩
      · rw [hji, hki]
      · obtain rfl := hwrites h (Or.inr hm)
        exact absurd hm' (hothers k m' hki hold')
    · rcases Pool.getElem?_set_cases hk with ⟨-, rfl⟩ | ⟨-, hold'⟩
      · obtain rfl := hwrites h (Or.inr hm')
        exact absurd hm (hothers j m hji hold)
      · exact hs.oneWriter j k m m' h hold hold' hm hm'
  kept := hkept
  right := hright

/-- A step that writes to the file of a hash, to which no other task writes. -/
theorem BlobsSound.setContent (hs : BlobsSound env D p) {written : ℕ} (ht : p.tasks[i]? = some t)
    (hdata : data ∈ D) (hhash : hashOf digest = env.hexHash data) (hle : written ≤ data.length)
    (htree : s'.tree = p.shared.tree.put (env.blobsDir ++ [hashOf digest])
      (.file ⟨inode, data.take written⟩)) (hlog : s'.log = p.shared.log)
    (hothers : ∀ j m, j ≠ i → p.tasks[j]? = some m → m.writes ≠ some (hashOf digest))
    (hwrites : ∀ h, t.writes = some h → h = hashOf digest) :
    BlobsSound env D ⟨s', p.tasks.set i
      (.write digest data (env.blobsDir ++ [hashOf digest]) inode written)⟩ := by
  have hnew : s'.tree.get (env.blobsDir ++ [hashOf digest]) =
      some (.file ⟨inode, data.take written⟩) := by rw [htree, FileTree.get_put, if_pos rfl]
  have hsame : ∀ q, q ≠ env.blobsDir ++ [hashOf digest] →
      s'.tree.get q = p.shared.tree.get q := fun q hq => by
    rw [htree, FileTree.get_put, if_neg hq]
  have hclosed : s'.tree.Closed := htree ▸ hs.closed.put hs.dir (Or.inl (hs.files _))
  refine hs.setFile ht hclosed hsame ?_ hothers ?_ (fun h => nomatch h)
    ⟨hdata, hhash, rfl, hle, hnew⟩ ?_ (hlog ▸ hs.right)
  · rw [hnew]
    exact fun h => nomatch h
  · rintro h (hw | hw)
    · exact hwrites h hw
    · exact (Option.some.inj hw).symm
  · intro h data' hexpected
    rw [hlog] at hexpected
    obtain ⟨hmem, hhash', f, hget⟩ := hs.kept h data' hexpected
    refine ⟨hmem, hhash', ?_⟩
    by_cases hh : h = hashOf digest
    · rw [hh]
      exact ⟨_, hnew⟩
    · exact ⟨f, (hsame _ fun heq => hh (by simpa using heq)).trans hget⟩

/-- What is expected after an event that stores what is there. -/
theorem kept_stored (hs : BlobsSound env D p) (hdata : data ∈ D)
    (hhash : hashOf digest = env.hexHash data)
    (hget : p.shared.tree.get (env.blobsDir ++ [hashOf digest]) = some (.file f)) :
    ∀ h data', expected (p.shared.log ++ [.stored digest data]) h = some data' →
      data' ∈ D ∧ env.hexHash data' = h ∧
        ∃ f, p.shared.tree.get (env.blobsDir ++ [h]) = some (.file f) := by
  intro h data' hexpected
  rw [expected_concat, expectedAfter] at hexpected
  by_cases hh : h = hashOf digest
  · subst hh
    rw [Function.update_self] at hexpected
    obtain rfl := Option.some.inj hexpected
    exact ⟨hdata, hhash.symm, f, hget⟩
  · rw [Function.update_of_ne hh] at hexpected
    exact hs.kept h data' hexpected

/-- What is expected after an event that deletes, in a tree that is the same elsewhere. -/
theorem kept_deleted (hs : BlobsSound env D p)
    (hsame : ∀ q, q ≠ env.blobsDir ++ [hashOf digest] → tree'.get q = p.shared.tree.get q) :
    ∀ h data, expected (p.shared.log ++ [.deleted digest]) h = some data →
      data ∈ D ∧ env.hexHash data = h ∧ ∃ f, tree'.get (env.blobsDir ++ [h]) = some (.file f) := by
  intro h data hexpected
  rw [expected_concat, expectedAfter] at hexpected
  by_cases hh : h = hashOf digest
  · rw [hh, Function.update_self] at hexpected
    cases hexpected
  · rw [Function.update_of_ne hh] at hexpected
    rw [hsame _ fun heq => hh (by simpa using heq)]
    exact hs.kept h data hexpected

/-- A step of a call keeps the blobs sound, if nothing opens a file that is being written. -/
theorem blobsSound_step (hnames : ∀ name ∈ env.blobsDir, IsName name)
    (hsha : ∀ data, (env.sha256 data).length = 32)
    (hD : ∀ a ∈ D, ∀ b ∈ D, env.sha256 a = env.sha256 b → a = b) (hs : BlobsSound env D p)
    (ht : p.tasks[i]? = some t) (hstep : blobStep env p.shared t = some (s', t'))
    (hfree : ∀ h, t.opens = some h → ∀ m ∈ p.tasks, m.writes ≠ some h) :
    BlobsSound env D ⟨s', p.tasks.set i t'⟩ := by
  have hsound := hs.tasks t (List.mem_of_getElem? ht)
  cases t with
  | put digest data =>
    replace hstep := Option.some.inj hstep
    unfold startPut at hstep
    split at hstep
    · cases hstep
      exact hs.quiet ht rfl trivial (fun _ _ h => by cases h) hs.kept hs.right
    · next hverify =>
      have hhash := hashOf_of_verify hverify
      have hname : IsName (hashOf digest) := hhash ▸ isName_hexHash hsha data
      split at hstep
      · next hexists =>
        cases hstep
        have hpath : env.blobPath digest = env.blobsDir ++ [hashOf digest] :=
          blobPath_of_notMem (hhash ▸ slash_notMem_hexHash data)
        rw [hpath, hs.closed.existsAt_of_names (isName_of_mem_blob hnames hname)] at hexists
        obtain ⟨n, hn⟩ := Option.isSome_iff_exists.mp hexists
        cases n with
        | dir => exact absurd hn (hs.files _)
        | file f =>
          exact hs.quiet ht rfl trivial (fun _ _ h => by cases h) (kept_stored hs hsound hhash hn)
            (rightReads_concat hs.right fun _ _ h => by cases h)
      · cases hstep
        exact hs.quiet ht rfl ⟨hsound, hhash⟩ (fun _ _ h => by cases h) hs.kept hs.right
  | create digest data =>
    obtain ⟨hdata, hhash⟩ := hsound
    have hname : IsName (hashOf digest) := hhash ▸ isName_hexHash hsha data
    have hplain : '/' ∉ (hashOf digest).toList := hhash ▸ slash_notMem_hexHash data
    replace hstep := Option.some.inj hstep
    unfold startWrite at hstep
    split at hstep
    · next s₁ path inode hcreate =>
      cases hstep
      obtain ⟨rfl, htree, hlog⟩ := createFile_eq hnames hs.closed hs.dir hplain hname hcreate
      exact hs.setContent ht hdata hhash (Nat.zero_le _) htree hlog
        (fun j m _ hm => hfree _ rfl m (List.mem_of_getElem? hm)) fun _ hw => by cases hw
    · cases hstep
      exact hs.quiet ht rfl trivial (fun _ _ h => by cases h) hs.kept hs.right
  | write digest data path inode written =>
    obtain ⟨hdata, hhash, rfl, hle, hget⟩ := hsound
    replace hstep := Option.some.inj hstep
    rw [goOnWriting] at hstep
    split at hstep
    · next byte hbyte =>
      cases hstep
      rw [writeByte_eq hget, overwrite_take hbyte]
      exact hs.setContent ht hdata hhash (List.getElem?_eq_some_iff.mp hbyte).1 rfl rfl
        (fun j m hji hm hw => hji (hs.oneWriter j i m _ _ hm ht hw rfl))
        fun _ hw => (Option.some.inj hw).symm
    · next hend =>
      cases hstep
      -- everything has been written
      have hall : data.take written = data :=
        List.take_of_length_le (List.getElem?_eq_none_iff.mp hend)
      rw [hall] at hget
      refine hs.quiet ht rfl trivial (fun h f hw hf => ?_) (kept_stored hs hdata hhash hget)
        (rightReads_concat hs.right fun _ _ h => by cases h)
      obtain rfl : hashOf digest = h := Option.some.inj hw
      rw [hget] at hf
      cases hf
      exact ⟨hdata, hhash.symm⟩
  | get digest =>
    have hnone := hfree _ rfl
    replace hstep := Option.some.inj hstep
    unfold readBlob at hstep
    split at hstep
    · next f hread =>
      cases hstep
      have hget := get_of_readAt hnames hs.closed hs.dir hsound hread
      obtain ⟨hmem, hhash⟩ := hs.whole _ f hget hnone
      refine hs.quiet ht rfl trivial (fun _ _ h => by cases h)
        (by rw [expected_got]; exact hs.kept) (rightReads_concat hs.right fun _ _ h => ?_)
      cases h
      refine ⟨fun data hdata => Option.some.inj hdata ▸ hhash, fun data hdata => ?_⟩
      obtain ⟨hdmem, hdhash, -⟩ := hs.kept _ data hdata
      rw [eq_of_hexHash hD hmem hdmem (hhash.trans hdhash.symm)]
    · next hread =>
      cases hstep
      refine hs.quiet ht rfl trivial (fun _ _ h => by cases h)
        (by rw [expected_got]; exact hs.kept) (rightReads_concat hs.right fun _ _ h => ?_)
      cases h
      refine ⟨fun data hdata => (by cases hdata), fun data hdata => ?_⟩
      obtain ⟨-, hdhash, f, hget⟩ := hs.kept _ data hdata
      have hname : IsName (hashOf digest) := hdhash ▸ isName_hexHash hsha data
      rw [readAt_of_get hnames hs.closed hsound hname hget] at hread
      cases hread
  | delete digest =>
    replace hstep := Option.some.inj hstep
    rw [startDelete] at hstep
    split at hstep
    · cases hstep
      exact hs.quiet ht rfl hsound (fun _ _ h => by cases h) hs.kept hs.right
    · cases hstep
      exact hs.quiet ht rfl trivial (fun _ _ h => by cases h) (kept_deleted hs fun _ _ => rfl)
        (rightReads_concat hs.right fun _ _ h => by cases h)
  | remove digest =>
    replace hstep := Option.some.inj hstep
    unfold removeBlob at hstep
    split at hstep
    · next tree hremove =>
      cases hstep
      obtain ⟨f, hget, rfl⟩ := removeAt_eq hnames hs.closed hs.dir hsound hremove
      have hsame : ∀ q, q ≠ env.blobsDir ++ [hashOf digest] →
          (p.shared.tree.erase (env.blobsDir ++ [hashOf digest])).get q = p.shared.tree.get q :=
        fun q hq => by rw [FileTree.get_erase, if_neg hq]
      have hnone : (p.shared.tree.erase (env.blobsDir ++ [hashOf digest])).get
          (env.blobsDir ++ [hashOf digest]) = none := by rw [FileTree.get_erase, if_pos rfl]
      refine hs.setFile ht (hs.closed.erase hget) hsame ?_ ?_ ?_ ?_ trivial (kept_deleted hs hsame)
        (rightReads_concat hs.right fun _ _ h => by cases h)
      · change (p.shared.tree.erase _).get _ ≠ _
        rw [hnone]
        exact fun h => by cases h
      · exact fun j m _ hm => hfree _ rfl m (List.mem_of_getElem? hm)
      · rintro h (hw | hw) <;> cases hw
      · intro _ f'
        change (p.shared.tree.erase _).get _ ≠ _
        rw [hnone]
        exact fun h => by cases h
    · cases hstep
      exact hs.quiet ht rfl trivial (fun _ _ h => by cases h) hs.kept hs.right
  | done reply => cases hstep

end Lemmas

/-! ## Runs -/

/-- What is put by an action is data of the schedule. -/
def PutsFrom (D : List Bytes) : DiskAct → Prop
  | .act (.call (.put _ data)) => data ∈ D
  | _ => True

theorem putsFrom_putData {acts : List DiskAct} : ∀ a ∈ acts, PutsFrom (putData acts) a := by
  intro a ha
  match a with
  | .act (.call (.put digest data)) => exact List.mem_filterMap.mpr ⟨_, ha, rfl⟩
  | .act (.call (.get _)) | .act (.call (.delete _)) | .act (.step _) | .crash => trivial

/-- An action that meets the condition keeps the blobs sound. -/
theorem blobsSound_next {env : RegistryEnv} {D : List Bytes}
    (hnames : ∀ name ∈ env.blobsDir, IsName name) (hsha : ∀ data, (env.sha256 data).length = 32)
    (hD : ∀ a ∈ D, ∀ b ∈ D, env.sha256 a = env.sha256 b → a = b) {p p' : Pool BlobDisk BlobTask}
    {a : DiskAct} (hs : BlobsSound env D p) (hfree : Undisturbed p a) (hputs : PutsFrom D a)
    (h : diskNext env p a = some p') : BlobsSound env D p' := by
  cases a with
  | crash =>
    cases h
    have hreopen := fun hash => reopen_get hnames p.shared hs.closed hash
    refine ⟨(hreopen "").2.1, (hreopen "").2.2 hs.dir, fun hash => ?_, fun hash f hget _ => ?_, ?_, ?_,
      fun hash data hexpected => ?_, hs.right⟩
    · rw [(hreopen hash).1]
      exact hs.files hash
    · rw [(hreopen hash).1] at hget
      refine hs.whole hash f hget fun t ht => ?_
      rw [hfree t ht]
      exact fun heq => nomatch heq
    · exact fun t ht => absurd ht List.not_mem_nil
    · exact fun i j t t' hash hi => by simp at hi
    · obtain ⟨hmem, hhash, f, hget⟩ := hs.kept hash data hexpected
      exact ⟨hmem, hhash, f, (hreopen hash).1.trans hget⟩
  | act a =>
    rcases Pool.next_cases h with ⟨c, rfl, rfl⟩ | ⟨i, t, s', t', rfl, ht, hstep, rfl⟩
    · have hwrites : c.enter.writes = none := by cases c <;> rfl
      have hsound : c.enter.Sound env D p.shared.tree := by
        cases c with
        | put digest data => exact hputs
        | get digest => exact hfree
        | delete digest => exact hfree
      refine ⟨hs.closed, hs.dir, hs.files, fun hash f hget hnone => ?_, fun t ht => ?_, ?_, hs.kept,
        hs.right⟩
      · exact hs.whole hash f hget fun t ht => hnone t (List.mem_append_left _ ht)
      · rcases List.mem_append.mp ht with hold | hnew
        · exact hs.tasks t hold
        · rw [List.mem_singleton.mp hnew]
          exact hsound
      · intro i j t t' hash hi hj hw hw'
        have hold : ∀ (k : ℕ) (m : BlobTask), (p.tasks ++ [c.enter])[k]? = some m →
            m.writes = some hash → p.tasks[k]? = some m := by
          intro k m hk hm
          rw [List.getElem?_append] at hk
          split_ifs at hk with hlt
          · exact hk
          · have hmem := List.mem_singleton.mp (List.mem_of_getElem? hk)
            rw [hmem, hwrites] at hm
            cases hm
        exact hs.oneWriter i j t t' hash (hold i t hi hw) (hold j t' hj hw') hw hw'
    · refine blobsSound_step hnames hsha hD hs ht hstep fun hash hopens m hm => ?_
      refine hfree hash ?_ m hm
      rw [ht, Option.bind_some, hopens]
      exact List.mem_singleton_self hash

theorem blobsSound_start {env : RegistryEnv} {D : List Bytes} {start : FileTree DiskFile}
    (hstart : FreshStore env start) : BlobsSound env D ⟨⟨start, 0, []⟩, []⟩ where
  closed := hstart.closed
  dir := hstart.dir
  files h := by
    rw [hstart.empty h]
    exact fun heq => nomatch heq
  whole h f hget := by
    rw [hstart.empty h] at hget
    cases hget
  tasks t ht := absurd ht List.not_mem_nil
  oneWriter := fun i j t t' h hi => by simp at hi
  kept h data hexpected := nomatch hexpected
  right := fun before digest result after heq => by simp at heq

/-- **In a run that disturbs no write the blobs are content addressed.** SHA-256 has 32 bytes, and no
two data that are put collide. -/
theorem content_addressed (env : RegistryEnv) (hroot : ∀ name ∈ env.root, IsName name)
    (hsha : ∀ data, (env.sha256 data).length = 32) (start : FileTree DiskFile)
    (hstart : FreshStore env start) (acts : List DiskAct)
    (hapart : ∀ a ∈ putData acts, ∀ b ∈ putData acts, env.sha256 a = env.sha256 b → a = b)
    (hmeet : StepsMeet (diskNext env) Undisturbed ⟨⟨start, 0, []⟩, []⟩ acts) :
    ContentAddressed env start acts := by
  intro final hrun
  have hnames : ∀ name ∈ env.blobsDir, IsName name := by
    intro name hname
    rcases List.mem_append.mp hname with hold | hnew
    · exact hroot name hold
    · rcases List.mem_pair.mp hnew with rfl | rfl <;> decide
  have hputs := stepsMeet_of_forall (diskNext env) (C := fun _ a => PutsFrom (putData acts) a)
    (fun a ha _ => putsFrom_putData a ha) ⟨⟨start, 0, []⟩, []⟩
  have hfinal := runSteps_invariant (diskNext env)
    (I := BlobsSound env (putData acts))
    (fun p a p' hs hcond h => blobsSound_next hnames hsha hapart hs hcond.1 hcond.2 h)
    acts _ final (blobsSound_start hstart) (StepsMeet.and _ hmeet hputs) hrun
  exact hfinal.right

/-! ## A run that is not disturbed, and two that are -/

/-- The text `hi`. -/
def hiData : Bytes := [104, 105]

/-- A registry whose SHA-256 is the real one of that text. -/
def registryEnv : RegistryEnv where
  root := ["var", "lib", "picloud", "registry"]
  sha256 data := if data = hiData then [143, 67, 67, 70, 100, 143, 107, 150, 223, 137, 221, 169, 1, 197,
    23, 107, 16, 166, 216, 57, 97, 221, 60, 26, 200, 139, 89, 178, 220, 50, 122, 164]
    else List.replicate 32 0
  osError := "I/O error"

/-- A disk with the directories of the registry. -/
def madeStore : FileTree DiskFile :=
  (FileTree.makeDirs [([], .dir)] [] registryEnv.blobsDir).getD []

/-- Put the text, under its digest. -/
def putHi : DiskAct := .act (.call (.put (registryEnv.digest hiData) hiData))

/-- Put, read, delete and read. -/
def quietRun : List DiskAct :=
  [putHi, .act (.step 0), .act (.step 0), .act (.step 0), .act (.step 0), .act (.step 0),
    .act (.call (.get (registryEnv.digest hiData))), .act (.step 1),
    .act (.call (.delete (registryEnv.digest hiData))), .act (.step 2), .act (.step 2), .crash,
    .act (.call (.get (registryEnv.digest hiData))), .act (.step 0)]

theorem freshStore_madeStore : FreshStore registryEnv madeStore := by
  have hclosed : FileTree.Closed (β := DiskFile) [([], .dir)] := by
    refine ⟨rfl, fun p name hget => ?_⟩
    exact absurd (by simp [FileTree.get, Assoc.get]) hget
  have hmade : FileTree.makeDirs [([], .dir)] [] registryEnv.blobsDir = some madeStore := by
    decide +kernel
  have hadded := FileTree.makeDirs_added hclosed rfl (by decide) hmade
  rw [List.nil_append] at hadded
  refine ⟨hadded.closed, hadded.dir, fun name => ?_⟩
  refine (hadded.added _ ?_).resolve_right fun hnew => ?_
  · rfl
  · have hlength := hnew.2.length_le
    simp at hlength

/-- The text is read until it is deleted. -/
theorem content_addressed_quiet : ContentAddressed registryEnv madeStore quietRun ∧
    ((runSteps (diskNext registryEnv) ⟨⟨madeStore, 0, []⟩, []⟩ quietRun).map (·.shared.log)) =
      some [.stored (registryEnv.digest hiData) hiData,
        .got (registryEnv.digest hiData) (some hiData), .deleted (registryEnv.digest hiData),
        .got (registryEnv.digest hiData) none] := by
  refine ⟨content_addressed registryEnv (by decide) (fun data => ?_) madeStore freshStore_madeStore
    quietRun ?_ ?_, by decide +kernel⟩
  · simp only [registryEnv]
    split_ifs <;> rfl
  · decide +kernel
  · decide +kernel

/-- A crash in the write, and a second `put`. -/
def crashRun : List DiskAct :=
  [putHi, .act (.step 0), .act (.step 0), .act (.step 0), .crash, putHi, .act (.step 0),
    .act (.call (.get (registryEnv.digest hiData))), .act (.step 1)]

/-- A digest that is a path. -/
def pathRun : List DiskAct :=
  [putHi, .act (.step 0), .act (.step 0), .act (.step 0), .act (.step 0), .act (.step 0),
    .act (.call (.get ("sha256:./" ++ registryEnv.hexHash hiData))), .act (.step 1)]

/-- **After a crash in a write `put` succeeds and the half of the data is read; and a digest that is a
path finds data that is not its own.** -/
theorem not_content_addressed : ¬ ContentAddressed registryEnv madeStore crashRun ∧
    ¬ ContentAddressed registryEnv madeStore pathRun := by
  constructor
  · intro hall
    -- the second `put` has returned `Ok`, and one byte is read
    have hlog : (runSteps (diskNext registryEnv) ⟨⟨madeStore, 0, []⟩, []⟩ crashRun).map
        (·.shared.log) = some ([.stored (registryEnv.digest hiData) hiData] ++
          [.got (registryEnv.digest hiData) (some [104])]) := by decide +kernel
    obtain ⟨final, hrun, heq⟩ := Option.map_eq_some_iff.mp hlog
    have hread := hall final hrun _ _ _ [] heq
    exact absurd (hread.2 hiData (by decide +kernel)) (by decide)
  · intro hall
    have hlog : (runSteps (diskNext registryEnv) ⟨⟨madeStore, 0, []⟩, []⟩ pathRun).map
        (·.shared.log) = some ([.stored (registryEnv.digest hiData) hiData] ++
          [.got ("sha256:./" ++ registryEnv.hexHash hiData) (some hiData)]) := by decide +kernel
    obtain ⟨final, hrun, heq⟩ := Option.map_eq_some_iff.mp hlog
    have hread := hall final hrun _ _ _ [] heq
    exact absurd (hread.1 hiData rfl) (by decide +kernel)

end Picloud
