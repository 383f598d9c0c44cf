import Picloud.Storage.FileSync

/-!
# The newest write is kept

A copy is stamped with the time at which the peer writes it, and not with that of the client write.
So an outdated copy can look newer than the last client write, and then replaces it everywhere. If no
outdated copy is written, every node that has the last client write of a file got it in a later second
than the version of any node that has not, and one cycle brings it to a peer.
-/

namespace Picloud

open Lib

/-! ## Last writes -/

section Latest

variable {writes : List ClientWrite} {key : FileKey} {number number' : ℕ} {w : ClientWrite}

theorem Latest.le (h : Latest writes key number) (hw : writes[number']? = some w)
    (hkey : w.key = key) : number' ≤ number := by
  by_contra hlt
  have hmem : w ∈ writes.drop (number + 1) := by
    rw [List.mem_iff_getElem?]
    refine ⟨number' - (number + 1), ?_⟩
    rw [List.getElem?_drop, Nat.add_sub_cancel' (by omega)]
    exact hw
  exact h.2 w hmem hkey

theorem Latest.unique (h : Latest writes key number) (h' : Latest writes key number') :
    number = number' := by
  obtain ⟨w, hw, hkey⟩ := h.1
  obtain ⟨w', hw', hkey'⟩ := h'.1
  exact Nat.le_antisymm (h'.le hw hkey) (h.le hw' hkey')

theorem latest_append_self (writes : List ClientWrite) (w : ClientWrite) :
    Latest (writes ++ [w]) w.key writes.length := by
  refine ⟨⟨w, by simp, rfl⟩, ?_⟩
  rw [List.drop_eq_nil_of_le (by simp)]
  simp

theorem latest_append_ne (hkey : w.key ≠ key) :
    Latest (writes ++ [w]) key number ↔ Latest writes key number := by
  constructor
  · rintro ⟨⟨x, hx, hxkey⟩, hlater⟩
    have hlt : number < writes.length := by
      by_contra hge
      have hnumber : number < (writes ++ [w]).length := (List.getElem?_eq_some_iff.mp hx).1
      rw [List.length_append, List.length_singleton] at hnumber
      obtain rfl : number = writes.length := by omega
      have hxw : w = x := by simpa using hx
      exact hkey (hxw ▸ hxkey)
    rw [List.getElem?_append_left hlt] at hx
    refine ⟨⟨x, hx, hxkey⟩, fun y hy => hlater y ?_⟩
    rw [List.drop_append_of_le_length (by omega)]
    exact List.mem_append_left _ hy
  · rintro ⟨⟨x, hx, hxkey⟩, hlater⟩
    have hlt : number < writes.length := (List.getElem?_eq_some_iff.mp hx).1
    refine ⟨⟨x, ?_, hxkey⟩, fun y hy => ?_⟩
    · rwa [List.getElem?_append_left hlt]
    · rw [List.drop_append_of_le_length (by omega)] at hy
      rcases List.mem_append.mp hy with hy | hy
      · exact hlater y hy
      · rw [List.mem_singleton.mp hy]
        exact hkey

end Latest

/-! ## What the nodes hold -/

section Held

variable {s : Replicas} {i j j' : ℕ} {key key' : FileKey} {e : SyncEffect} {f : FileVersion}

theorem held_modify {nodes : List SyncNode} (g : SyncNode → SyncNode)
    (hfiles : ∀ n, (g n).files = n.files) :
    (((nodes.modify i g)[j]?).bind fun n => n.files.get key) =
      (nodes[j]?).bind fun n => n.files.get key := by
  rw [List.getElem?_modify]
  cases nodes[j]? with
  | none => rfl
  | some n =>
    by_cases hij : i = j
    · simp [hij, hfiles]
    · simp [hij]

theorem held_put {nodes : List SyncNode} (hi : i < nodes.length) :
    (((nodes.modify i (SyncNode.put key f))[j]?).bind fun n => n.files.get key') =
      if j = i ∧ key' = key then some f else (nodes[j]?).bind fun n => n.files.get key' := by
  rw [List.getElem?_modify]
  by_cases hij : i = j
  · subst hij
    rw [List.getElem?_eq_getElem hi]
    by_cases hkey : key' = key
    · subst hkey
      simp [SyncNode.put]
    · simp [SyncNode.put, hkey, Assoc.get_set_of_ne]
  · rw [if_neg (fun h => hij h.1.symm)]
    simp [hij]

theorem held_apply (hdelivered : e.delivered = none) : (s.apply i e).held j key = s.held j key := by
  unfold Replicas.apply Replicas.held
  rw [hdelivered]
  exact held_modify _ fun _ => rfl

theorem held_apply_delivered (hdelivered : e.delivered = some (j', key', f))
    (hj : j' < s.nodes.length) : (s.apply i e).held j key =
      if j = j' ∧ key = key' then some f else s.held j key := by
  unfold Replicas.apply Replicas.held
  rw [hdelivered]
  dsimp only
  rw [held_put (by rwa [List.length_modify]), held_modify]
  exact fun _ => rfl

theorem length_apply : (s.apply i e).nodes.length = s.nodes.length := by
  unfold Replicas.apply
  cases e.delivered with
  | none => exact List.length_modify ..
  | some d => exact (List.length_modify ..).trans (List.length_modify ..)

/-- The cycle of a node after a step of the replicator of one of them. -/
theorem cycle_apply {n : SyncNode} (hn : (s.apply i e).nodes[j]? = some n) :
    (j = i ∧ n.cycle = e.cycle) ∨ ∃ n', s.nodes[j]? = some n' ∧ n.cycle = n'.cycle := by
  have hmodify : ∀ (nodes : List SyncNode) (a : ℕ) (key : FileKey) (f : FileVersion) (n : SyncNode),
      (nodes.modify a (SyncNode.put key f))[j]? = some n →
        ∃ n', nodes[j]? = some n' ∧ n.cycle = n'.cycle := by
    intro nodes a key f n hn
    rw [List.getElem?_modify] at hn
    obtain ⟨n', hn', heq⟩ := Option.map_eq_some_iff.mp hn
    refine ⟨n', hn', ?_⟩
    rw [← heq]
    split <;> rfl
  have hset : ∀ n, (s.nodes.modify i fun n => { n with cycle := e.cycle })[j]? = some n →
      (j = i ∧ n.cycle = e.cycle) ∨ ∃ n', s.nodes[j]? = some n' ∧ n.cycle = n'.cycle := by
    intro n hn
    rw [List.getElem?_modify] at hn
    obtain ⟨n', hn', heq⟩ := Option.map_eq_some_iff.mp hn
    by_cases hij : i = j
    · rw [if_pos hij] at heq
      exact Or.inl ⟨hij.symm, by rw [← heq]⟩
    · rw [if_neg hij] at heq
      exact Or.inr ⟨n', hn', by rw [← heq]⟩
  unfold Replicas.apply at hn
  cases hdelivered : e.delivered with
  | none =>
    rw [hdelivered] at hn
    exact hset n hn
  | some d =>
    rw [hdelivered] at hn
    obtain ⟨n', hn', hcycle⟩ := hmodify _ _ _ _ _ hn
    rcases hset n' hn' with ⟨hj, h⟩ | ⟨n₀, hn₀, h⟩
    · exact Or.inl ⟨hj, hcycle.trans h⟩
    · exact Or.inr ⟨n₀, hn₀, hcycle.trans h⟩

end Held

/-! ## The invariant -/

/-- The node has the client write of the file. -/
def Replicas.Holds (s : Replicas) (j : ℕ) (key : FileKey) (number : ℕ) : Prop :=
  ∃ f, s.held j key = some f ∧ f.write = number

/-- A version is a copy of a client write, and only a copy of the last one is stamped with the second
of that write, or a later one. -/
structure VersionSound (writes : List ClientWrite) (now : ℕ) (key : FileKey) (f : FileVersion) :
    Prop where
  origin : ∃ w, writes[f.write]? = some w ∧ w.key = key ∧ w.content = f.content
  stamp : f.mtime ≤ now
  newer : ∀ w, Latest writes key f.write → writes[f.write]? = some w →
    asSecs w.time ≤ asSecs f.mtime
  older : ∀ number w, Latest writes key number → writes[number]? = some w → f.write ≠ number →
    asSecs f.mtime < asSecs w.time

/-- A file that was read is a copy of a client write. -/
def TransferSound (writes : List ClientWrite) (volume : String) (f : SyncFile) :
    Prop :=
  ∃ w, writes[f.write]? = some w ∧ w.key = (volume, f.entry.path) ∧
    Base64.decode f.entry.data = some w.content

/-- The files that were read for a peer. -/
def PeerWork.files : PeerWork → List SyncFile
  | .fetch => []
  | .reading _ _ files => files
  | .posting _ files => files

/-- The peer that is being worked for. -/
def PeerWork.target : PeerWork → Option ℕ
  | .fetch => none
  | .reading j _ _ => some j
  | .posting j _ => some j

/-- The file is still to be read, or its client write has been read. -/
def PeerWork.Pending (path : String) (number : ℕ) : PeerWork → Prop
  | .fetch => False
  | .reading _ paths files => path ∈ paths ∨ ∃ f ∈ files, f.entry.path = path ∧ f.write = number
  | .posting _ files => ∃ f ∈ files, f.entry.path = path ∧ f.write = number

/-- The local manifest shows the file with the second, or a later one. -/
def Shows (manifest : List ManifestEntry) (path : String) (second : ℕ) : Prop :=
  ∃ e ∈ manifest, e.path = path ∧ second ≤ e.mtime

/-- The client write is still to be brought to the peer. -/
def VolumeWork.Pending (w : VolumeWork) (j : ℕ) (key : FileKey) (number second : ℕ) : Prop :=
  key.1 = w.volume ∧ (j ∈ w.left ∧ Shows w.manifest key.2 second ∨
    w.peer.target = some j ∧ w.peer.Pending key.2 number)

/-- The client write is still to be brought to the peer in this cycle. -/
def SyncCycle.Pending (c : SyncCycle) (j : ℕ) (key : FileKey) (number second : ℕ) : Prop :=
  key.1 ∈ c.volumes ∨ ∃ w ∈ c.current, w.Pending j key number second

/-- A cycle that began after the last client write brings its node's last client writes to every peer
for which nothing fails. -/
structure CycleSound (writes : List ClientWrite) (count : ℕ)
    (holds : ℕ → FileKey → ℕ → Prop) (i : ℕ) (c : SyncCycle) : Prop where
  since : c.since ≤ writes.length
  targets : ∀ w ∈ c.current, ∀ j ∈ w.peer.target, j < count
  transfers : ∀ w ∈ c.current, ∀ f ∈ w.peer.files, TransferSound writes w.volume f
  covered : c.since = writes.length → ∀ j ∈ c.peers, j ∉ c.failed → ∀ key number w,
    Latest writes key number → writes[number]? = some w → w.node = i →
      c.Pending j key number (asSecs w.time) ∨ holds j key number

/-- The invariant of a run. -/
structure Replicated (s : Replicas) : Prop where
  times : ∀ w ∈ s.writes, w.time ≤ s.now
  versions : ∀ j key f, s.held j key = some f → VersionSound s.writes s.now key f
  /-- The node on which the last client write was made has it still. -/
  owners : ∀ key number w, Latest s.writes key number → s.writes[number]? = some w →
    w.node < s.nodes.length ∧ s.Holds w.node key number
  cycles : ∀ i n c, s.nodes[i]? = some n → n.cycle = some c →
    CycleSound s.writes s.nodes.length s.Holds i c
  since : ∀ e ∈ s.completed, e.2.2 ≤ s.writes.length
  completed : ∀ i j, (i, j, s.writes.length) ∈ s.completed → ∀ key number w,
    Latest s.writes key number → s.writes[number]? = some w → w.node = i → s.Holds j key number

/-! ### One step of a cycle -/

section Cycle

variable {writes : List ClientWrite} {count i : ℕ}
  {holds holds' : ℕ → FileKey → ℕ → Prop} {c c' : SyncCycle} {w w' : VolumeWork}

theorem CycleSound.mono (h : CycleSound writes count holds i c)
    (hmono : ∀ j key number, Latest writes key number → holds j key number →
      holds' j key number) : CycleSound writes count holds' i c where
  since := h.since
  targets := h.targets
  transfers := h.transfers
  covered hsince j hj hfailed key number w hlatest hw hnode :=
    (h.covered hsince j hj hfailed key number w hlatest hw hnode).imp_right
      (hmono j key number hlatest)

/-- What is pending before a step is pending or done afterwards, for every peer for which nothing has
failed. -/
theorem CycleSound.step (h : CycleSound writes count holds i c) (hsince : c'.since = c.since)
    (hpeers : c'.peers = c.peers) (hfailed : ∀ j ∈ c.failed, j ∈ c'.failed)
    (htargets : ∀ w ∈ c'.current, ∀ j ∈ w.peer.target, j < count)
    (htransfers : ∀ w ∈ c'.current, ∀ f ∈ w.peer.files, TransferSound writes w.volume f)
    (hpending : ∀ j ∈ c.peers, j ∉ c'.failed → ∀ key number w, Latest writes key number →
      writes[number]? = some w → w.node = i → c.Pending j key number (asSecs w.time) →
        c'.Pending j key number (asSecs w.time) ∨ holds j key number) :
    CycleSound writes count holds i c' where
  since := by rw [hsince]; exact h.since
  targets := htargets
  transfers := htransfers
  covered hlength j hj hnotFailed key number w hlatest hw hnode := by
    rw [hpeers] at hj
    rw [hsince] at hlength
    rcases h.covered hlength j hj (fun hmem => hnotFailed (hfailed j hmem)) key number w hlatest hw
      hnode with hbefore | hholds
    · exact hpending j hj hnotFailed key number w hlatest hw hnode hbefore
    · exact Or.inr hholds

/-- Going on with the current volume. -/
theorem CycleSound.goOn (h : CycleSound writes count holds i c) (hcurrent : c.current = some w)
    (hsince : c'.since = c.since) (hpeers : c'.peers = c.peers)
    (hfailed : ∀ j ∈ c.failed, j ∈ c'.failed) (hvolumes : c'.volumes = c.volumes)
    (hcurrent' : c'.current = some w') (htargets : ∀ j ∈ w'.peer.target, j < count)
    (htransfers : ∀ f ∈ w'.peer.files, TransferSound writes w'.volume f)
    (hpending : ∀ j ∉ c'.failed, ∀ key number x, Latest writes key number →
      writes[number]? = some x → x.node = i → w.Pending j key number (asSecs x.time) →
        w'.Pending j key number (asSecs x.time) ∨ holds j key number) :
    CycleSound writes count holds i c' := by
  refine h.step hsince hpeers hfailed ?_ ?_ fun j _ hnotFailed key number x hlatest hx hnode => ?_
  · rw [hcurrent']
    simpa using htargets
  · rw [hcurrent']
    simpa using htransfers
  · rw [SyncCycle.Pending, SyncCycle.Pending, hvolumes, hcurrent, hcurrent']
    simp only [Option.mem_def, Option.some.injEq, exists_eq_left']
    rintro (hvolume | hwork)
    · exact Or.inl (Or.inl hvolume)
    · exact (hpending j hnotFailed key number x hlatest hx hnode hwork).imp_left Or.inr

/-- The local manifest is built. -/
theorem CycleSound.build {files : Assoc FileKey FileVersion} {volume : String}
    {volumes listing : List String} {failed : List ℕ}
    (h : CycleSound writes count holds i c) (hcurrent : c.current = none)
    (hvolumes : c.volumes = volume :: volumes)
    (hversions : ∀ key f, files.get key = some f → ∃ now, VersionSound writes now key f)
    (howner : ∀ key number w, Latest writes key number → writes[number]? = some w → w.node = i →
      ∃ f, files.get key = some f ∧ f.write = number)
    (hfailed : failed = if files.keys.all (fun k => k.1 ≠ volume || k.2 ∈ listing) then c.failed
      else c.peers ++ c.failed) :
    CycleSound writes count holds i { c with
      failed := failed, volumes := volumes
      current := some ⟨volume, buildManifest files volume listing, c.peers, .fetch⟩ } := by
  refine h.step rfl rfl ?_ ?_ ?_ fun j hj hnotFailed key number w hlatest hw hnode hbefore => ?_
  · intro j hj
    change j ∈ failed
    rw [hfailed]
    split
    · exact hj
    · exact List.mem_append_right _ hj
  · simp [PeerWork.target]
  · simp [PeerWork.files]
  · left
    have hkey : key.1 ∈ volume :: volumes := by
      rcases hbefore with hvolume | ⟨w, hw, -⟩
      · rwa [hvolumes] at hvolume
      · rw [hcurrent] at hw
        cases hw
    rcases List.mem_cons.mp hkey with hkey | hkey
    · refine Or.inr ⟨_, rfl, hkey, Or.inl ⟨hj, ?_⟩⟩
      obtain ⟨f, hf, hwrite⟩ := howner key number w hlatest hw hnode
      obtain ⟨now, hsound⟩ := hversions key f hf
      have hseen : files.keys.all (fun k => k.1 ≠ volume || k.2 ∈ listing) = true := by
        by_contra hnot
        change j ∉ failed at hnotFailed
        rw [hfailed, if_neg hnot] at hnotFailed
        exact hnotFailed (List.mem_append_left _ hj)
      have hmem : key ∈ files.keys := List.mem_map_of_mem (Assoc.mem_of_get hf)
      have hlisted : key.2 ∈ listing := by
        simpa [hkey] using List.all_eq_true.mp hseen key hmem
      have hfile : files.get (volume, key.2) = some f := by rw [← hkey]; exact hf
      refine ⟨⟨key.2, f.content.length, asSecs f.mtime⟩, ?_, rfl, ?_⟩
      · exact List.mem_filterMap.mpr ⟨key.2, hlisted, by rw [hfile]; rfl⟩
      · exact hsound.newer w (hwrite ▸ hlatest) (hwrite ▸ hw)
    · exact Or.inl hkey

/-- All peers are served. -/
theorem CycleSound.finishVolume (h : CycleSound writes count holds i c)
    (hcurrent : c.current = some w) (hleft : w.left = []) (hfetch : w.peer = .fetch) :
    CycleSound writes count holds i { c with current := none } := by
  refine h.step rfl rfl (fun _ hj => hj) ?_ ?_ fun j _ _ key number x _ _ _ hbefore => ?_
  · simp
  · simp
  · rcases hbefore with hvolume | ⟨w', hw', hwork⟩
    · exact Or.inl (Or.inl hvolume)
    · obtain rfl : w = w' := Option.some.inj (hcurrent.symm.trans hw')
      obtain ⟨-, ⟨hj, -⟩ | ⟨hj, -⟩⟩ := hwork
      · rw [hleft] at hj
        cases hj
      · rw [hfetch] at hj
        cases hj

/-- The manifest of the peer shows no version of the file that is as new. -/
theorem needsSync_of_older {files : Assoc FileKey FileVersion} {volume : String}
    {listing : List String} {e : ManifestEntry}
    (hold : ∀ f, files.get (volume, e.path) = some f → asSecs f.mtime < e.mtime) :
    needsSync (buildManifest files volume listing) e = true := by
  unfold needsSync
  cases hfind : (buildManifest files volume listing).reverse.find? (·.path = e.path) with
  | none => rfl
  | some r =>
    have hpath : r.path = e.path := by simpa using List.find?_some hfind
    obtain ⟨path, -, hr⟩ := List.mem_filterMap.mp
      (List.mem_reverse.mp (List.mem_of_find?_eq_some hfind))
    obtain ⟨f, hf, rfl⟩ := Option.map_eq_some_iff.mp hr
    obtain rfl : path = e.path := hpath
    exact decide_eq_true (hold f hf)

/-- The manifest of the next peer is fetched. -/
theorem CycleSound.fetch {j : ℕ} {left : List ℕ} {files : Assoc FileKey FileVersion}
    {listing : List String} (h : CycleSound writes count holds i c)
    (hcurrent : c.current = some w) (hleft : w.left = j :: left) (hfetch : w.peer = .fetch)
    (hcount : j < count)
    (hversions : ∀ key f, files.get key = some f → ∃ now, VersionSound writes now key f)
    (hholds : ∀ key f, files.get key = some f → holds j key f.write) :
    CycleSound writes count holds i { c with current := some { w with
      left := left
      peer := .reading j ((w.manifest.filter
        (needsSync (buildManifest files w.volume listing))).map (·.path)) [] } } := by
  refine h.goOn hcurrent rfl rfl (fun _ hj => hj) rfl rfl ?_ ?_
    fun j' _ key number x hlatest hx _ hbefore => ?_
  · intro j' hj'
    cases hj'
    exact hcount
  · simp [PeerWork.files]
  · obtain ⟨hvolume, ⟨hj', e, he, hpath, hsecond⟩ | ⟨hj', -⟩⟩ := hbefore
    · rw [hleft] at hj'
      rcases List.mem_cons.mp hj' with rfl | hj'
      · by_cases hhas : ∃ f, files.get key = some f ∧ f.write = number
        · obtain ⟨f, hf, rfl⟩ := hhas
          exact Or.inr (hholds key f hf)
        · refine Or.inl ⟨hvolume, Or.inr ⟨rfl, Or.inl ?_⟩⟩
          refine List.mem_map.mpr ⟨e, List.mem_filter.mpr ⟨he, needsSync_of_older ?_⟩, hpath⟩
          intro f hf
          have hkey : key = (w.volume, e.path) := by rw [← hvolume, hpath]
          rw [← hkey] at hf
          obtain ⟨now, hsound⟩ := hversions key f hf
          exact Nat.lt_of_lt_of_le
            (hsound.older number x hlatest hx fun heq => hhas ⟨f, hf, heq⟩) hsecond
      · exact Or.inl ⟨hvolume, Or.inl ⟨hj', e, he, hpath, hsecond⟩⟩
    · rw [hfetch] at hj'
      cases hj'

/-- Something fails for a peer. -/
theorem CycleSound.failing {j : ℕ} {left : List ℕ} {peer : PeerWork}
    (h : CycleSound writes count holds i c) (hcurrent : c.current = some w)
    (hleft : ∀ j' ∈ w.left, j' = j ∨ j' ∈ left) (htarget : ∀ j' ∈ w.peer.target, j' = j)
    (htargets : ∀ j' ∈ peer.target, j' < count)
    (htransfers : ∀ f ∈ peer.files, TransferSound writes w.volume f) :
    CycleSound writes count holds i { c.fail j with
      current := some { w with left := left, peer := peer } } := by
  refine h.goOn hcurrent rfl rfl (fun _ hj => List.mem_cons_of_mem _ hj) rfl rfl htargets htransfers
    fun j' hnotFailed key number x _ _ _ hbefore => ?_
  have hne : j' ≠ j := fun heq => hnotFailed (heq ▸ List.mem_cons_self)
  obtain ⟨hvolume, ⟨hj', hshows⟩ | ⟨hj', -⟩⟩ := hbefore
  · exact Or.inl ⟨hvolume, Or.inl ⟨(hleft j' hj').resolve_left hne, hshows⟩⟩
  · exact absurd (htarget j' hj') hne

/-- The work for a peer goes on. -/
theorem CycleSound.work {j : ℕ} {peer : PeerWork}
    (h : CycleSound writes count holds i c) (hcurrent : c.current = some w)
    (htarget : w.peer.target = some j) (htarget' : ∀ j' ∈ peer.target, j' = j)
    (htransfers : ∀ f ∈ peer.files, TransferSound writes w.volume f)
    (hpending : ∀ path number x, Latest writes (w.volume, path) number →
      writes[number]? = some x → x.node = i → w.peer.Pending path number →
        (peer.target = some j ∧ peer.Pending path number) ∨ holds j (w.volume, path) number) :
    CycleSound writes count holds i { c with current := some { w with peer := peer } } := by
  refine h.goOn hcurrent rfl rfl (fun _ hj => hj) rfl rfl ?_ htransfers
    fun j' _ key number x hlatest hx hnode hbefore => ?_
  · intro j' hj'
    rw [htarget' j' hj']
    exact h.targets w hcurrent j htarget
  · obtain ⟨hvolume, hleft | ⟨hj', hwork⟩⟩ := hbefore
    · exact Or.inl ⟨hvolume, Or.inl hleft⟩
    · obtain rfl : j = j' := Option.some.inj (htarget.symm.trans hj')
      have hkey : key = (w.volume, key.2) := by rw [← hvolume]
      rw [hkey] at hlatest
      rcases hpending key.2 number x hlatest hx hnode hwork with hafter | hholds
      · exact Or.inl ⟨hvolume, Or.inr hafter⟩
      · rw [hkey]
        exact Or.inr hholds

/-- A file is read. -/
theorem CycleSound.read {j : ℕ} {path : String} {paths : List String} {files : List SyncFile}
    {f : FileVersion} (h : CycleSound writes count holds i c) (hcurrent : c.current = some w)
    (hwork : w.peer = .reading j (path :: paths) files)
    (hsound : ∃ x, writes[f.write]? = some x ∧ x.key = (w.volume, path) ∧ x.content = f.content)
    (howner : ∀ number x, Latest writes (w.volume, path) number → writes[number]? = some x →
      x.node = i → f.write = number) :
    CycleSound writes count holds i { c with current := some { w with
      peer := .reading j paths (files ++ [⟨⟨path, Base64.encode f.content⟩, f.write⟩]) } } := by
  refine h.work hcurrent (by rw [hwork]; rfl) (fun j' hj' => (Option.some.inj hj').symm) ?_ ?_
  · intro g hg
    rcases List.mem_append.mp hg with hg | hg
    · exact h.transfers w hcurrent g (by rw [hwork]; exact hg)
    · obtain ⟨x, hx, hkey, hcontent⟩ := hsound
      rw [List.mem_singleton.mp hg]
      exact ⟨x, hx, hkey, by rw [hcontent]; exact Base64.decode_encode _⟩
  · intro path' number x hlatest hx hnode hbefore
    rw [hwork] at hbefore
    refine Or.inl ⟨rfl, ?_⟩
    rcases hbefore with hpath | ⟨g, hg, hread⟩
    · rcases List.mem_cons.mp hpath with rfl | hpath
      · exact Or.inr ⟨_, List.mem_append_right _ (List.mem_singleton_self _), rfl,
          howner number x hlatest hx hnode⟩
      · exact Or.inl hpath
    · exact Or.inr ⟨g, List.mem_append_left _ hg, hread⟩

/-- All files are read, and there are some. -/
theorem CycleSound.post {j : ℕ} {files : List SyncFile}
    (h : CycleSound writes count holds i c) (hcurrent : c.current = some w)
    (hwork : w.peer = .reading j [] files) :
    CycleSound writes count holds i { c with current := some { w with
      peer := .posting j files } } := by
  refine h.work hcurrent (by rw [hwork]; rfl) (fun j' hj' => (Option.some.inj hj').symm) ?_ ?_
  · intro g hg
    exact h.transfers w hcurrent g (by rw [hwork]; exact hg)
  · intro path number x _ _ _ hbefore
    rw [hwork] at hbefore
    exact Or.inl ⟨rfl, hbefore.resolve_left (by simp)⟩

/-- No file is left for the peer. -/
theorem CycleSound.served {j : ℕ} (h : CycleSound writes count holds i c)
    (hcurrent : c.current = some w) (hwork : w.peer = .reading j [] [] ∨ w.peer = .posting j []) :
    CycleSound writes count holds i { c with current := some { w with peer := .fetch } } := by
  refine h.work (j := j) hcurrent ?_ (by simp [PeerWork.target]) (by simp [PeerWork.files]) ?_
  · rcases hwork with hwork | hwork <;> rw [hwork] <;> rfl
  · intro path number x _ _ _ hbefore
    rcases hwork with hwork | hwork <;> rw [hwork] at hbefore <;> simp [PeerWork.Pending] at hbefore

/-- The peer writes a file. -/
theorem CycleSound.deliver {j : ℕ} {f : SyncFile} {files : List SyncFile}
    (h : CycleSound writes count holds i c) (hcurrent : c.current = some w)
    (hwork : w.peer = .posting j (f :: files))
    (hholds : holds j (w.volume, f.entry.path) f.write) :
    CycleSound writes count holds i { c with current := some { w with
      peer := .posting j files } } := by
  refine h.work hcurrent (by rw [hwork]; rfl) (fun j' hj' => (Option.some.inj hj').symm) ?_ ?_
  · intro g hg
    exact h.transfers w hcurrent g (by rw [hwork]; exact List.mem_cons_of_mem _ hg)
  · intro path number x _ _ _ hbefore
    rw [hwork] at hbefore
    obtain ⟨g, hg, hpath, hnumber⟩ := hbefore
    rcases List.mem_cons.mp hg with rfl | hg
    · exact Or.inr (hpath ▸ hnumber ▸ hholds)
    · exact Or.inl ⟨rfl, g, hg, hpath, hnumber⟩

end Cycle

/-! ### The effect of a step -/

/-- What a step does in a sound state: a peer writes only last client writes, and a cycle is counted
only if it brought its node's last client writes to the peer. -/
structure EffectSound (s : Replicas) (i : ℕ) (e : SyncEffect) : Prop where
  cycle : ∀ c ∈ e.cycle, CycleSound s.writes s.nodes.length
    (fun j key number => s.Holds j key number ∨
      ∃ d ∈ e.delivered, d.1 = j ∧ d.2.1 = key ∧ d.2.2.write = number) i c
  delivered : ∀ d ∈ e.delivered, d.1 < s.nodes.length ∧ Latest s.writes d.2.1 d.2.2.write ∧
    d.2.2.mtime = s.now ∧
      ∃ w, s.writes[d.2.2.write]? = some w ∧ w.key = d.2.1 ∧ w.content = d.2.2.content
  completed : ∀ x ∈ e.completed, x.2.2 ≤ s.writes.length ∧ (x.2.2 = s.writes.length →
    ∀ key number w, Latest s.writes key number → s.writes[number]? = some w → w.node = x.1 →
      s.Holds x.2.1 key number)

section Effect

variable {s : Replicas} {i : ℕ} {n : SyncNode} {c : SyncCycle} {o : SyncOutcome}

theorem effectSound_of_cycle (h : CycleSound s.writes s.nodes.length s.Holds i c) :
    EffectSound s i ⟨some c, none, []⟩ where
  cycle c' hc' := by
    cases hc'
    exact h.mono fun _ _ _ _ => Or.inl
  delivered d hd := by cases hd
  completed x hx := by cases hx

theorem effectSound_nothing : EffectSound s i ⟨none, none, []⟩ where
  cycle c hc := by cases hc
  delivered d hd := by cases hd
  completed x hx := by cases hx

/-- The files of a node are those that it holds. -/
theorem Replicas.held_of_getElem? {j : ℕ} (hn : s.nodes[j]? = some n) (key : FileKey) :
    s.held j key = n.files.get key := by
  unfold Replicas.held
  rw [hn]
  rfl

/-- The node on which a last client write was made. -/
theorem Replicated.owner (h : Replicated s) (hn : s.nodes[i]? = some n) {key : FileKey}
    {number : ℕ} {w : ClientWrite} (hlatest : Latest s.writes key number)
    (hw : s.writes[number]? = some w) (hnode : w.node = i) :
    ∃ f, n.files.get key = some f ∧ f.write = number := by
  obtain ⟨-, f, hf, hwrite⟩ := h.owners key number w hlatest hw
  rw [hnode, Replicas.held_of_getElem? hn] at hf
  exact ⟨f, hf, hwrite⟩

/-- The start of a cycle. -/
theorem Replicated.start (h : Replicated s) (hn : s.nodes[i]? = some n) :
    EffectSound s i (startCycle s i n o) := by
  unfold startCycle
  split
  case h_1 => exact effectSound_nothing
  case h_2 =>
    refine ⟨by simp, by simp, fun x hx => ?_⟩
    dsimp only at hx
    split at hx
    case isTrue hfiles =>
      obtain ⟨j, -, rfl⟩ := List.mem_map.mp hx
      refine ⟨Nat.le_refl _, fun _ key number w hlatest hw hnode => ?_⟩
      obtain ⟨f, hf, -⟩ := h.owner hn hlatest hw hnode
      rw [hfiles] at hf
      cases hf
    case isFalse => cases hx
  case h_3 volumes hvolumes hlisting =>
    split
    case h_1 => exact effectSound_nothing
    case h_2 members hmembers =>
      dsimp only
      split
      case isTrue => exact effectSound_nothing
      case isFalse =>
        apply effectSound_of_cycle
        refine ⟨Nat.le_refl _, by simp, by simp, ?_⟩
        intro _ j hj hnotFailed key number w hlatest hw hnode
        obtain ⟨f, hf, -⟩ := h.owner hn hlatest hw hnode
        have hmem : key ∈ n.files.keys := List.mem_map_of_mem (Assoc.mem_of_get hf)
        dsimp only at hj hnotFailed
        split at hnotFailed
        case isTrue hall =>
          exact Or.inl (Or.inl (by simpa using List.all_eq_true.mp hall key hmem))
        case isFalse => exact absurd hj hnotFailed

/-- The end of a cycle. -/
theorem CycleSound.finish (h : CycleSound s.writes s.nodes.length s.Holds i c)
    (hcurrent : c.current = none) (hvolumes : c.volumes = []) :
    EffectSound s i
      ⟨none, none, (c.peers.filter (· ∉ c.failed)).map fun j => (i, j, c.since)⟩ := by
  refine ⟨by simp, by simp, fun x hx => ?_⟩
  obtain ⟨j, hj, rfl⟩ := List.mem_map.mp hx
  obtain ⟨hj, hnotFailed⟩ := List.mem_filter.mp hj
  refine ⟨h.since, fun hsince key number w hlatest hw hnode => ?_⟩
  rcases h.covered hsince j hj (by simpa using hnotFailed) key number w hlatest hw hnode with
    hpending | hholds
  · rcases hpending with hvolume | ⟨w, hw, -⟩
    · rw [hvolumes] at hvolume
      cases hvolume
    · rw [hcurrent] at hw
      cases hw
  · exact hholds

theorem Replicated.version (h : Replicated s) {j : ℕ} (hn : s.nodes[j]? = some n)
    {key : FileKey} {f : FileVersion} (hf : n.files.get key = some f) :
    VersionSound s.writes s.now key f :=
  h.versions j key f (by rw [Replicas.held_of_getElem? hn]; exact hf)

/-- Every step of a cycle. -/
theorem Replicated.cycleNext (h : Replicated s) (hn : s.nodes[i]? = some n)
    (hcycle : n.cycle = some c)
    (htimely : ∀ d ∈ c.delivery, o.ok = true → Latest s.writes d.1 d.2) :
    EffectSound s i (c.next s i n o) := by
  have hc := h.cycles i n c hn hcycle
  have hversions : ∀ {j} {m : SyncNode}, s.nodes[j]? = some m → ∀ key f,
      m.files.get key = some f → ∃ now, VersionSound s.writes now key f :=
    fun hm key f hf => ⟨s.now, h.version hm hf⟩
  unfold SyncCycle.next
  split
  case h_1 hcurrent =>
    split
    case h_1 hvolumes => exact hc.finish hcurrent hvolumes
    case h_2 volume volumes hvolumes =>
      exact effectSound_of_cycle (hc.build hcurrent hvolumes (hversions hn)
        (fun key number w => h.owner hn) rfl)
  case h_2 w hcurrent =>
    split
    case h_1 hfetch =>
      split
      case h_1 hleft => exact effectSound_of_cycle (hc.finishVolume hcurrent hleft hfetch)
      case h_2 j left hleft =>
        dsimp only
        split
        case h_1 listing peer _ hpeer =>
          have hholds : ∀ key f, peer.files.get key = some f → s.Holds j key f.write :=
            fun key f hf => ⟨f, by rw [Replicas.held_of_getElem? hpeer]; exact hf, rfl⟩
          have hfetched : CycleSound s.writes s.nodes.length s.Holds i { c with
              current := some { w with
                left := left
                peer := .reading j ((w.manifest.filter
                  (needsSync (buildManifest peer.files w.volume listing))).map (·.path)) [] } } :=
            hc.fetch hcurrent hleft hfetch (List.getElem?_eq_some_iff.mp hpeer).1
              (hversions hpeer) hholds
          exact effectSound_of_cycle hfetched
        case h_2 =>
          have hfailed : CycleSound s.writes s.nodes.length s.Holds i { c.fail j with
              current := some { w with left := left, peer := .fetch } } :=
            hc.failing hcurrent (fun j' hj' => by rw [hleft] at hj'; exact List.mem_cons.mp hj')
              (by rw [hfetch]; simp [PeerWork.target]) (by simp [PeerWork.target])
              (by simp [PeerWork.files])
          exact effectSound_of_cycle hfailed
    case h_2 j files hwork =>
      have htarget : ∀ j' ∈ w.peer.target, j' = j := by
        rw [hwork]
        exact fun j' hj' => (Option.some.inj hj').symm
      split
      case isTrue hfiles =>
        subst hfiles
        exact effectSound_of_cycle (hc.served hcurrent (Or.inl hwork))
      case isFalse =>
        split
        case isTrue => exact effectSound_of_cycle (hc.post hcurrent hwork)
        case isFalse =>
          exact effectSound_of_cycle (hc.failing hcurrent (fun _ hj' => Or.inr hj') htarget
            (by simp [PeerWork.target]) (by simp [PeerWork.files]))
    case h_3 j path paths files hwork =>
      have htarget : w.peer.target = some j := by rw [hwork]; rfl
      split
      case h_1 f hf _ =>
        refine effectSound_of_cycle (hc.read hcurrent hwork (h.version hn hf).origin
          fun number x hlatest hx hnode => ?_)
        obtain ⟨g, hg, hwrite⟩ := h.owner hn hlatest hx hnode
        obtain rfl : f = g := Option.some.inj (hf.symm.trans hg)
        exact hwrite
      case h_2 =>
        refine effectSound_of_cycle (hc.failing hcurrent (fun _ hj' => Or.inr hj')
          (fun j' hj' => Option.some.inj (hj'.symm.trans htarget)) ?_ ?_)
        · rintro j' ⟨⟩
          exact hc.targets w hcurrent j htarget
        · intro g hg
          exact hc.transfers w hcurrent g (by rw [hwork]; exact hg)
    case h_4 j hwork => exact effectSound_of_cycle (hc.served hcurrent (Or.inr hwork))
    case h_5 j f files hwork =>
      have htarget : w.peer.target = some j := by rw [hwork]; rfl
      have htransfer : TransferSound s.writes w.volume f :=
        hc.transfers w hcurrent f (by rw [hwork]; exact List.mem_cons_self)
      split
      case h_1 data hdata hok =>
        have hlatest : Latest s.writes (w.volume, f.entry.path) f.write := by
          refine htimely ((w.volume, f.entry.path), f.write) ?_ hok
          obtain ⟨volume, manifest, left, peer⟩ := w
          obtain rfl : peer = .posting j (f :: files) := hwork
          unfold SyncCycle.delivery
          rw [hcurrent]
          rfl
        refine ⟨?_, ?_, by simp [SyncCycle.goOn]⟩
        · rintro c' ⟨⟩
          exact (hc.mono fun _ _ _ _ => Or.inl).deliver hcurrent hwork
            (Or.inr ⟨_, rfl, rfl, rfl, rfl⟩)
        · rintro d ⟨⟩
          obtain ⟨x, hx, hkey, hcontent⟩ := htransfer
          exact ⟨hc.targets w hcurrent j htarget, hlatest, rfl, x, hx, hkey,
            Option.some.inj (hcontent.symm.trans hdata)⟩
      case h_2 =>
        refine effectSound_of_cycle (hc.failing hcurrent (fun _ hj' => Or.inr hj')
          (fun j' hj' => Option.some.inj (hj'.symm.trans htarget)) ?_ ?_)
        · rintro j' ⟨⟩
          exact hc.targets w hcurrent j htarget
        · intro g hg
          exact hc.transfers w hcurrent g (by rw [hwork]; exact List.mem_cons_of_mem _ hg)

end Effect

/-! ### One action -/

section Actions

variable {s s' : Replicas} {i : ℕ} {e : SyncEffect} {o : SyncOutcome}

/-- After a step a node holds what it held, or what it was sent. -/
theorem EffectSound.held_cases (he : EffectSound s i e) {j : ℕ} {key : FileKey}
    {f : FileVersion} (hf : (s.apply i e).held j key = some f) :
    (∃ d ∈ e.delivered, d = (j, key, f)) ∨ s.held j key = some f := by
  cases hdelivered : e.delivered with
  | none =>
    rw [held_apply hdelivered] at hf
    exact Or.inr hf
  | some d =>
    obtain ⟨j', key', f'⟩ := d
    rw [held_apply_delivered hdelivered (he.delivered _ hdelivered).1] at hf
    split at hf
    case isTrue heq =>
      cases hf
      exact Or.inl ⟨_, rfl, by rw [heq.1, heq.2]⟩
    case isFalse => exact Or.inr hf

/-- A step replaces no version by an older one. -/
theorem EffectSound.neverOlder (he : EffectSound s i e) (h : Replicated s) :
    NeverOlder s (s.apply i e) := by
  intro j key f hf
  cases hdelivered : e.delivered with
  | none => exact ⟨f, (held_apply hdelivered).trans hf, Nat.le_refl _⟩
  | some d =>
    obtain ⟨j', key', f'⟩ := d
    obtain ⟨hj, hlatest, -⟩ := he.delivered _ hdelivered
    rw [held_apply_delivered hdelivered hj]
    split
    case isTrue heq =>
      obtain ⟨rfl, rfl⟩ := heq
      obtain ⟨w, hw, hkey, -⟩ := (h.versions j key f hf).origin
      exact ⟨f', rfl, hlatest.le hw hkey⟩
    case isFalse => exact ⟨f, hf, Nat.le_refl _⟩

/-- A step takes no last client write from a node. -/
theorem EffectSound.holds (he : EffectSound s i e) {j : ℕ} {key : FileKey} {number : ℕ}
    (hlatest : Latest s.writes key number)
    (h : s.Holds j key number ∨ ∃ d ∈ e.delivered, d.1 = j ∧ d.2.1 = key ∧ d.2.2.write = number) :
    (s.apply i e).Holds j key number := by
  unfold Replicas.Holds
  cases hdelivered : e.delivered with
  | none =>
    rw [held_apply hdelivered]
    rw [hdelivered] at h
    exact h.resolve_right (by simp)
  | some d =>
    obtain ⟨j', key', f'⟩ := d
    obtain ⟨hj, hlatest', -⟩ := he.delivered _ hdelivered
    rw [held_apply_delivered hdelivered hj]
    split
    case isTrue heq =>
      obtain ⟨rfl, rfl⟩ := heq
      exact ⟨f', rfl, hlatest'.unique hlatest⟩
    case isFalse hne =>
      rcases h with h | ⟨d, hd, hj, hkey, -⟩
      · exact h
      · rw [hdelivered] at hd
        cases hd
        exact absurd ⟨hj.symm, hkey.symm⟩ hne

theorem EffectSound.replicated (he : EffectSound s i e) (h : Replicated s) :
    Replicated (s.apply i e) where
  times := h.times
  versions j key f hf := by
    rcases he.held_cases hf with ⟨d, hd, rfl⟩ | hf
    · obtain ⟨-, hlatest, htime, horigin⟩ := he.delivered _ hd
      refine ⟨horigin, Nat.le_of_eq htime, fun w _ hw => ?_, fun number w hlatest' _ hne => ?_⟩
      · change f.mtime = s.now at htime
        rw [htime]
        exact Nat.div_le_div_right (h.times w (List.mem_of_getElem? hw))
      · exact absurd (hlatest.unique hlatest') hne
    · exact h.versions j key f hf
  owners key number w hlatest hw := by
    obtain ⟨hnode, hholds⟩ := h.owners key number w hlatest hw
    exact ⟨by rwa [length_apply], he.holds hlatest (Or.inl hholds)⟩
  cycles j n c hn hcycle := by
    rw [length_apply]
    rcases cycle_apply hn with ⟨rfl, heq⟩ | ⟨n', hn', heq⟩
    · exact (he.cycle c (heq ▸ hcycle)).mono fun _ _ _ hlatest => he.holds hlatest
    · exact (h.cycles j n' c hn' (heq ▸ hcycle)).mono fun _ _ _ hlatest hholds =>
        he.holds hlatest (Or.inl hholds)
  since x hx := by
    rcases List.mem_append.mp hx with hx | hx
    · exact h.since x hx
    · exact (he.completed x hx).1
  completed j j' hx key number w hlatest hw hnode := by
    refine he.holds hlatest (Or.inl ?_)
    rcases List.mem_append.mp hx with hx | hx
    · exact h.completed j j' hx key number w hlatest hw hnode
    · exact (he.completed _ hx).2 rfl key number w hlatest hw hnode

/-- The effect of every step that meets the condition. -/
theorem Replicated.syncNext {n : SyncNode} (h : Replicated s) (hn : s.nodes[i]? = some n)
    (htimely : Timely s (.sync i o)) : EffectSound s i (n.next s i o) := by
  unfold SyncNode.next
  split
  case h_1 => exact h.start hn
  case h_2 c hcycle => exact h.cycleNext hn hcycle (htimely n hn c hcycle)

/-- Time passes. -/
theorem Replicated.tick (h : Replicated s) (d : ℕ) :
    Replicated { s with now := s.now + d } where
  times w hw := Nat.le_add_right_of_le (h.times w hw)
  versions j key f hf := by
    have hsound := h.versions j key f hf
    exact ⟨hsound.origin, Nat.le_add_right_of_le hsound.stamp, hsound.newer, hsound.older⟩
  owners := h.owners
  cycles := h.cycles
  since := h.since
  completed := h.completed

theorem getElem?_append_of_some {writes : List ClientWrite} {number : ℕ} {w x : ClientWrite}
    (hw : writes[number]? = some w) : (writes ++ [x])[number]? = some w := by
  rw [List.getElem?_append_left (List.getElem?_eq_some_iff.mp hw).1]
  exact hw

theorem getElem?_of_append_ne {writes : List ClientWrite} {number : ℕ} {w x : ClientWrite}
    (hw : (writes ++ [x])[number]? = some w) (hkey : w.key ≠ x.key) :
    writes[number]? = some w := by
  rcases Nat.lt_or_ge number writes.length with hlt | hge
  · rwa [List.getElem?_append_left hlt] at hw
  · have hnumber : number < (writes ++ [x]).length := (List.getElem?_eq_some_iff.mp hw).1
    rw [List.length_append, List.length_singleton] at hnumber
    obtain rfl : number = writes.length := by omega
    have hxw : x = w := by simpa using hw
    exact absurd (congrArg ClientWrite.key hxw.symm) hkey

/-- The key of a last client write. -/
theorem Latest.key {writes : List ClientWrite} {key : FileKey} {number : ℕ} {w : ClientWrite}
    (h : Latest writes key number) (hw : writes[number]? = some w) : w.key = key := by
  obtain ⟨w', hw', hkey⟩ := h.1
  obtain rfl : w = w' := Option.some.inj (hw.symm.trans hw')
  exact hkey

/-- An older version stays sound when a client writes the file, or another one. -/
theorem VersionSound.append {writes : List ClientWrite} {now : ℕ} {key : FileKey} {f : FileVersion}
    (h : VersionSound writes now key f) (x : ClientWrite)
    (hx : x.key = key → asSecs f.mtime < asSecs x.time) :
    VersionSound (writes ++ [x]) now key f := by
  obtain ⟨w, hw, hkey, hcontent⟩ := h.origin
  have hlt : f.write < writes.length := (List.getElem?_eq_some_iff.mp hw).1
  refine ⟨⟨w, getElem?_append_of_some hw, hkey, hcontent⟩, h.stamp, ?_, ?_⟩
  · intro w' hlatest hw'
    by_cases hxkey : x.key = key
    · have hself := latest_append_self writes x
      rw [hxkey] at hself
      have := hlatest.unique hself
      omega
    · refine h.newer w' ((latest_append_ne hxkey).mp hlatest) ?_
      exact getElem?_of_append_ne hw' (by rw [hlatest.key hw']; exact Ne.symm hxkey)
  · intro number w' hlatest hw' hne
    by_cases hxkey : x.key = key
    · have hself := latest_append_self writes x
      rw [hxkey] at hself
      obtain rfl := hlatest.unique hself
      obtain rfl : x = w' := by simpa using hw'
      exact hx hxkey
    · refine h.older number w' ((latest_append_ne hxkey).mp hlatest) ?_ hne
      exact getElem?_of_append_ne hw' (by rw [hlatest.key hw']; exact Ne.symm hxkey)

/-- A client writes a file. -/
theorem Replicated.write (h : Replicated s) {key : FileKey} {content : List UInt8}
    (hi : i < s.nodes.length) (htimely : Timely s (.write i key content)) :
    Replicated { s with
      nodes := s.nodes.modify i (SyncNode.put key ⟨content, s.now, s.writes.length⟩)
      writes := s.writes ++ [⟨i, key, content, s.now⟩] } := by
  have hheld : ∀ j key', (((s.nodes.modify i
      (SyncNode.put key ⟨content, s.now, s.writes.length⟩))[j]?).bind fun n => n.files.get key') =
        if j = i ∧ key' = key then some ⟨content, s.now, s.writes.length⟩ else s.held j key' :=
    fun j key' => held_put hi
  refine ⟨?_, ?_, ?_, ?_, ?_, ?_⟩
  · intro w hw
    rcases List.mem_append.mp hw with hw | hw
    · exact h.times w hw
    · obtain rfl := List.mem_singleton.mp hw
      exact Nat.le_refl _
  · intro j key' f hf
    rw [Replicas.held, hheld] at hf
    split at hf
    case isTrue heq =>
      obtain ⟨rfl, rfl⟩ := heq
      cases hf
      refine ⟨⟨⟨j, key', content, s.now⟩, by simp, rfl, rfl⟩, Nat.le_refl _, ?_, ?_⟩
      · intro w _ hw
        obtain rfl : (⟨j, key', content, s.now⟩ : ClientWrite) = w := by simpa using hw
        exact Nat.le_refl _
      · intro number w hlatest _ hne
        exact absurd ((latest_append_self s.writes _).unique hlatest) hne
    case isFalse hne =>
      refine (h.versions j key' f hf).append _ fun hkey => ?_
      have hkey : key' = key := hkey.symm
      subst hkey
      have hj : j < s.nodes.length := by
        by_contra hge
        rw [Replicas.held, List.getElem?_eq_none (by omega)] at hf
        cases hf
      exact htimely j hj (fun hij => hne ⟨hij, rfl⟩) f hf
  · intro key' number w hlatest hw
    change w.node < (s.nodes.modify i _).length ∧ ∃ f, Replicas.held _ _ _ = some f ∧ _
    rw [List.length_modify, Replicas.held, hheld]
    by_cases hkey : key = key'
    · subst hkey
      obtain rfl := hlatest.unique (latest_append_self s.writes ⟨i, key, content, s.now⟩)
      obtain rfl : (⟨i, key, content, s.now⟩ : ClientWrite) = w := by simpa using hw
      exact ⟨hi, _, if_pos ⟨rfl, rfl⟩, rfl⟩
    · rw [if_neg fun heq => hkey heq.2.symm]
      exact h.owners key' number w ((latest_append_ne hkey).mp hlatest)
        (getElem?_of_append_ne hw (by rw [hlatest.key hw]; exact Ne.symm hkey))
  · intro j n c hn hcycle
    dsimp only at hn ⊢
    rw [List.getElem?_modify] at hn
    obtain ⟨n', hn', heq⟩ := Option.map_eq_some_iff.mp hn
    have hcycle' : n'.cycle = some c := by
      rw [← hcycle, ← heq]
      split <;> rfl
    have hc := h.cycles j n' c hn' hcycle'
    rw [List.length_modify]
    refine ⟨?_, hc.targets, ?_, fun hsince => ?_⟩
    · rw [List.length_append]
      exact Nat.le_add_right_of_le hc.since
    · intro w hw f hf
      obtain ⟨x, hx, hrest⟩ := hc.transfers w hw f hf
      exact ⟨x, getElem?_append_of_some hx, hrest⟩
    · have hle := hc.since
      rw [hsince, List.length_append, List.length_singleton] at hle
      omega
  · intro x hx
    rw [List.length_append]
    exact Nat.le_add_right_of_le (h.since x hx)
  · intro j j' hx
    have hle : (s.writes ++ [(⟨i, key, content, s.now⟩ : ClientWrite)]).length ≤ s.writes.length :=
      h.since _ hx
    rw [List.length_append, List.length_singleton] at hle
    omega

/-- **Every action that meets the condition keeps the invariant.** -/
theorem Replicated.next {a : FileAct} (h : Replicated s) (htimely : Timely s a)
    (hnext : fileNext s a = some s') : Replicated s' := by
  cases a with
  | tick d =>
    cases hnext
    exact h.tick d
  | write i key content =>
    simp only [fileNext] at hnext
    split at hnext
    case isTrue hi =>
      cases hnext
      exact h.write hi htimely
    case isFalse => cases hnext
  | sync i o =>
    obtain ⟨n, hn, rfl⟩ := Option.map_eq_some_iff.mp hnext
    exact (h.syncNext hn htimely).replicated h

theorem Replicated.neverOlder (h : Replicated s) (htimely : Timely s (.sync i o))
    (hnext : fileNext s (.sync i o) = some s') : NeverOlder s s' := by
  obtain ⟨n, hn, rfl⟩ := Option.map_eq_some_iff.mp hnext
  exact (h.syncNext hn htimely).neverOlder h

theorem Replicated.converged (h : Replicated s) : Converged s := by
  intro hsynced key number w hlatest hw j hj
  have hholds : s.Holds j key number := by
    obtain ⟨hnode, hown⟩ := h.owners key number w hlatest hw
    by_cases heq : w.node = j
    · exact heq ▸ hown
    · exact h.completed w.node j (hsynced w.node hnode j hj heq) key number w hlatest hw rfl
  obtain ⟨f, hf, rfl⟩ := hholds
  obtain ⟨x, hx, -, hcontent⟩ := (h.versions j key f hf).origin
  obtain rfl : x = w := Option.some.inj (hx.symm.trans hw)
  exact ⟨f, hf, hcontent.symm⟩

/-- Nodes without files. -/
theorem replicated_start (count : ℕ) : Replicated (replicasStart count) := by
  have hnode : ∀ (j : ℕ) n, (replicasStart count).nodes[j]? = some n → n = ⟨[], none⟩ :=
    fun j n hn => List.eq_of_mem_replicate (List.mem_of_getElem? hn)
  have hnone : ∀ key number, ¬ Latest (replicasStart count).writes key number := by
    rintro key number ⟨⟨w, hw, -⟩, -⟩
    cases hw
  refine ⟨?_, ?_, ?_, ?_, ?_, ?_⟩
  · intro w hw
    cases hw
  · intro j key f hf
    obtain ⟨n, hn, hf⟩ := Option.bind_eq_some_iff.mp hf
    rw [hnode j n hn] at hf
    cases hf
  · intro key number w hlatest
    exact absurd hlatest (hnone key number)
  · intro i n c hn hcycle
    rw [hnode i n hn] at hcycle
    cases hcycle
  · intro x hx
    cases hx
  · intro i j hx
    cases hx

/-- **If clients write in later seconds and peers write copies of last client writes, no write is
replaced by an older one, and all nodes come to hold the last writes.** -/
theorem newest_kept (count : ℕ) {acts : List FileAct}
    (hmeet : StepsMeet fileNext Timely (replicasStart count) acts) :
    NewestKept (replicasStart count) acts where
  neverOlder := by
    refine StepsMeet.of_invariant fileNext (fun _ _ _ h => h.next) ?_
      (replicated_start count) hmeet
    rintro s a h htimely i o rfl s' hnext
    exact h.neverOlder htimely hnext
  converged s hrun :=
    (runSteps_invariant fileNext (fun _ _ _ h => h.next) acts _ s
      (replicated_start count) hmeet hrun).converged

end Actions

/-! ### Three nodes -/

/-- A step of the replicator in which everything succeeds. -/
def syncStep (i : ℕ) (listing : List String) : FileAct := .sync i ⟨some listing, some [0, 1, 2], true⟩

/-- Some seconds. -/
def secondsPass (count : ℕ) : FileAct := .tick (count * 1000000000)

/-- A file. -/
def notes : FileKey := ("docs", "notes.txt")

/-- The steps for a peer: the file is newer than there, or is not. -/
def peerSteps (i : ℕ) (newer : Bool) : List FileAct :=
  syncStep i ["notes.txt"] :: List.replicate (if newer then 4 else 1) (syncStep i [])

/-- A cycle of a node that has the file. -/
def syncCycle (i : ℕ) (newer : List Bool) : List FileAct :=
  [syncStep i ["docs"], syncStep i ["notes.txt"]] ++ newer.flatMap (peerSteps i) ++
    [syncStep i [], syncStep i []]

/-- Every node has synced with the two others since a client write. -/
def AllSynced (number : ℕ) (s : Replicas) : Prop :=
  ∀ i < 3, ∀ j < 3, i ≠ j → (i, j, number + 1) ∈ s.completed

/-- Every node has synced with the two others since the last client write, of the file, and all hold
this content. -/
def AllHold (number : ℕ) (content : List UInt8) (s : Replicas) : Prop :=
  s.nodes.length = 3 ∧ s.writes.length = number + 1 ∧ Latest s.writes notes number ∧
    AllSynced number s ∧ ∀ j < 3, ∃ f ∈ s.held j notes, f.content = content

instance (writes : List ClientWrite) (key : FileKey) (number : ℕ) :
    Decidable (Latest writes key number) :=
  inferInstanceAs (Decidable (_ ∧ _))

instance (number : ℕ) (s : Replicas) : Decidable (AllSynced number s) :=
  Nat.decidableBallLT 3 fun i _ => ∀ j < 3, i ≠ j → (i, j, number + 1) ∈ s.completed

instance (content : List UInt8) (s : Replicas) (j : ℕ) :
    Decidable (∃ f ∈ s.held j notes, f.content = content) :=
  inferInstanceAs (Decidable (∃ f ∈ (s.held j notes : Option FileVersion), f.content = content))

instance (number : ℕ) (content : List UInt8) (s : Replicas) :
    Decidable (AllHold number content s) :=
  inferInstanceAs (Decidable (_ ∧ _ ∧ _ ∧ _ ∧ _))

instance (s : Replicas) (a : FileAct) : Decidable (Timely s a) :=
  match a with
  | .tick _ => inferInstanceAs (Decidable True)
  | .write i _ _ => inferInstanceAs (Decidable (∀ j < s.nodes.length, j ≠ i → _))
  | .sync i _ => inferInstanceAs (Decidable (∀ n ∈ s.nodes[i]?, ∀ c ∈ n.cycle, _))

/-- A client writes the file on one node, and it is brought to the others. -/
def broughtToAll : List FileAct :=
  [secondsPass 1, .write 0 notes [1], secondsPass 1] ++ syncCycle 0 [true, true] ++
    syncCycle 1 [true, false] ++ syncCycle 2 [false, false]

theorem newest_kept_brought :
    (∃ s, runSteps fileNext (replicasStart 3) broughtToAll = some s ∧ AllHold 0 [1] s) ∧
      NewestKept (replicasStart 3) broughtToAll := by
  have hmeet : StepsMeet fileNext Timely (replicasStart 3) broughtToAll := by decide +kernel
  have hrun : ∃ s ∈ runSteps fileNext (replicasStart 3) broughtToAll, AllHold 0 [1] s := by
    decide +kernel
  exact ⟨hrun, newest_kept 3 hmeet⟩

/-- A client writes the file on the first node, and seconds later another on the last. The first node
brings the older version to the second, which brings it to the last. -/
def staleCopy : List FileAct :=
  [secondsPass 1, .write 0 notes [1], secondsPass 7, .write 2 notes [2], secondsPass 2] ++
    syncCycle 0 [true, false] ++ syncCycle 1 [true, true] ++ syncCycle 2 [false, false]

/-- The newer write is lost on all nodes. -/
theorem stale_copy_wins :
    ∃ s, runSteps fileNext (replicasStart 3) staleCopy = some s ∧
      s.writes.map (·.content) = [[1], [2]] ∧ AllHold 1 [1] s ∧
        ¬ NewestKept (replicasStart 3) staleCopy := by
  have hrun : ∃ s ∈ runSteps fileNext (replicasStart 3) staleCopy,
      s.writes.map (·.content) = [[1], [2]] ∧ AllHold 1 [1] s := by
    decide +kernel
  obtain ⟨s, hs, hwrites, hall⟩ := hrun
  refine ⟨s, hs, hwrites, hall, fun h => ?_⟩
  obtain ⟨hlength, hcount, hlatest, hsynced, hcontent⟩ := hall
  obtain ⟨w, hw, -⟩ := hlatest.1
  have hlast : w.content = [2] := by
    have hmap : (s.writes.map (·.content))[1]? = some w.content := by
      rw [List.getElem?_map, hw]
      rfl
    rw [hwrites] at hmap
    exact (Option.some.inj hmap).symm
  obtain ⟨f, hf, hnew⟩ := h.converged s hs (by rw [hlength, hcount]; exact hsynced) notes 1 w hlatest
    hw 0 (by rw [hlength]; decide)
  obtain ⟨f', hf', hold⟩ := hcontent 0 (by decide)
  obtain rfl : f = f' := Option.some.inj (hf.symm.trans hf')
  rw [hold, hlast] at hnew
  cases hnew

end Picloud
