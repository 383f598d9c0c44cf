import Picloud.Lib.FileTree

/-!
# Copies that stop half-way

A copy of a directory makes the directory it copies to and then one entry after the other, so an error
leaves it at one of these points. `copyTreeUntil` is the file tree there. With one entry for every path,
the directories in a directory are read off from the nodes (`mem_subdirs`), and no operation of a copy
removes a directory.
-/

namespace Lib

/-- Where a copy stops: on the way to its directory, or after some entries, with a part of the next one. -/
inductive CopyStop (β : Type) where
  | directories (made : ℕ)
  | entries (copied : ℕ) (cut : Option β)

namespace FileTree

variable {β : Type}

/-- The file tree that a copy leaves when it stops. -/
def copyTreeUntil (t : FileTree β) (src dst : Path) : CopyStop β → Option (FileTree β)
  | .directories made => (dst.inits.take (min made dst.length)).foldlM createDir t
  | .entries copied cut =>
    if src <+: dst then none
    else (t.createDirAll dst).bind fun t' =>
      let below := t'.filter fun e => src <+: e.1 ∧ src ≠ e.1
      ((below.take copied).foldlM (copyEntry src dst) t').bind fun t'' =>
        match below[copied]?, cut with
        | some (q, .file _), some content => copyEntry src dst t'' (q, .file content)
        | _, _ => some t''

/-! ## What every operation of a copy keeps -/

/-- There is at most one entry for every path. -/
def Functional (t : FileTree β) : Prop := (Assoc.keys t).Nodup

/-- No directory is removed, and a functional tree stays functional. -/
structure Keeps (t t' : FileTree β) : Prop where
  dirs : ∀ q, t.get q = some .dir → t'.get q = some .dir
  functional : t.Functional → t'.Functional

variable {t t' : FileTree β} {p q : Path}

theorem Keeps.refl (t : FileTree β) : Keeps t t := ⟨fun _ h => h, id⟩

theorem Keeps.trans {t₁ t₂ t₃ : FileTree β} (h : Keeps t₁ t₂) (h' : Keeps t₂ t₃) : Keeps t₁ t₃ :=
  ⟨fun q hq => h'.dirs q (h.dirs q hq), fun hf => h'.functional (h.functional hf)⟩

/-- Over the steps of a fold. -/
theorem keeps_of_foldlM {γ : Type*} {step : FileTree β → γ → Option (FileTree β)}
    (hstep : ∀ t e t', step t e = some t' → Keeps t t') {es : List γ}
    (h : es.foldlM step t = some t') : Keeps t t' := by
  induction es generalizing t with
  | nil =>
    cases h
    exact Keeps.refl _
  | cons e es ih =>
    rw [List.foldlM_cons, Option.bind_eq_bind, Option.bind_eq_some_iff] at h
    obtain ⟨t₁, hfirst, hrest⟩ := h
    exact (hstep t e t₁ hfirst).trans (ih hrest)

/-- What is put in place of no directory. -/
theorem keeps_put {n : Node β} (h : t.get p = some .dir → n = .dir) : Keeps t (t.put p n) := by
  refine ⟨fun q hq => ?_, fun hf => Assoc.nodup_keys_set hf p n⟩
  by_cases hqp : q = p
  · subst hqp
    rw [h hq]
    exact Assoc.get_set_self t q .dir
  · rw [get_put_of_ne n hqp, hq]

theorem createDir_keeps (h : t.createDir p = some t') : Keeps t t' := by
  rw [createDir] at h
  split at h
  · cases h
    exact keeps_put fun _ => rfl
  · cases h
    exact Keeps.refl _
  · cases h

theorem get_createDir (h : t.createDir p = some t') : t'.get p = some .dir := by
  rw [createDir] at h
  split at h
  · cases h
    exact Assoc.get_set_self t p .dir
  · next hdir =>
    cases h
    exact hdir
  · cases h

theorem createDirAll_keeps (h : t.createDirAll p = some t') : Keeps t t' :=
  keeps_of_foldlM (fun _ _ _ => createDir_keeps) h

theorem writeFile_keeps {content : β} (h : t.writeFile p content = some t') : Keeps t t' := by
  rw [writeFile] at h
  split at h
  · cases h
  · next hne =>
    cases h
    exact keeps_put fun hdir => absurd hdir hne

variable {dst src : Path} {made : ℕ}

theorem copyEntry_keeps {e : Path × Node β} (h : copyEntry src dst t e = some t') :
    Keeps t t' := by
  rw [copyEntry] at h
  split at h
  · exact createDirAll_keeps h
  · obtain ⟨t₁, hdir, hfile⟩ := Option.bind_eq_some_iff.mp h
    exact (createDirAll_keeps hdir).trans (writeFile_keeps hfile)

/-- The directories on the way are there. -/
theorem get_createDirAll (h : t.createDirAll p = some t') (hq : q <+: p) : t'.get q = some .dir := by
  have hall : ∀ (ps : List Path) (t : FileTree β), q ∈ ps → ps.foldlM createDir t = some t' →
      t'.get q = some .dir := by
    intro ps
    induction ps with
    | nil => exact fun _ hmem _ => absurd hmem List.not_mem_nil
    | cons r ps ih =>
      intro t hmem h
      rw [List.foldlM_cons, Option.bind_eq_bind, Option.bind_eq_some_iff] at h
      obtain ⟨t₁, hfirst, hrest⟩ := h
      rcases List.mem_cons.mp hmem with rfl | hmem
      · exact (keeps_of_foldlM (fun _ _ _ => createDir_keeps) hrest).dirs q (get_createDir hfirst)
      · exact ih t₁ hmem hrest
  exact hall p.inits t ((List.mem_inits q p).mpr hq) h

/-! ## Copies -/

/-- A copy makes its directory. -/
theorem copyTree_keeps (h : t.copyTree src dst = some t') :
    Keeps t t' ∧ ∀ q, q <+: dst → t'.get q = some .dir := by
  rw [copyTree] at h
  split at h
  · cases h
  · obtain ⟨t₁, hdir, hcopy⟩ := Option.bind_eq_some_iff.mp h
    split at hcopy
    · have hkeeps := keeps_of_foldlM (fun _ _ _ => copyEntry_keeps) hcopy
      exact ⟨(createDirAll_keeps hdir).trans hkeeps,
        fun q hq => hkeeps.dirs q (get_createDirAll hdir hq)⟩
    · cases hcopy

theorem notMem_take_inits : q ∉ q.inits.take (min made q.length) := by
  intro hmem
  obtain ⟨i, hi, heq⟩ := List.getElem_of_mem hmem
  rw [List.getElem_take, List.getElem_inits] at heq
  have hlength := congrArg List.length heq
  rw [List.length_take] at hi hlength
  omega

/-- A copy that stops on the way to its directory has not made it. -/
theorem directories_frame (h : t.copyTreeUntil src dst (.directories made) = some t')
    (hq : ¬ (q <+: dst ∧ q ≠ dst)) :
    t'.get q = t.get q := by
  refine foldlM_createDir_frame h fun hmem => hq ⟨?_, ?_⟩
  · exact (List.mem_inits q dst).mp (List.mem_of_mem_take hmem)
  · rintro rfl
    exact notMem_take_inits hmem

theorem directories_keeps (h : t.copyTreeUntil src dst (.directories made) = some t') : Keeps t t' :=
  keeps_of_foldlM (fun _ _ _ => createDir_keeps) h

/-- The directories that are new lead to where the copy goes. -/
theorem get_directories (h : t.copyTreeUntil src dst (.directories made) = some t') (q : Path) :
    t'.get q = t.get q ∨ t'.get q = some .dir := by
  have hall : ∀ (ps : List Path) (t : FileTree β), ps.foldlM createDir t = some t' →
      t'.get q = t.get q ∨ t'.get q = some .dir := by
    intro ps
    induction ps with
    | nil =>
      intro t h
      cases h
      exact Or.inl rfl
    | cons r ps ih =>
      intro t h
      rw [List.foldlM_cons, Option.bind_eq_bind, Option.bind_eq_some_iff] at h
      obtain ⟨t₁, hfirst, hrest⟩ := h
      by_cases hqr : q = r
      · subst hqr
        exact Or.inr ((keeps_of_foldlM (fun _ _ _ => createDir_keeps) hrest).dirs q
          (get_createDir hfirst))
      · rw [← createDir_frame hfirst hqr]
        exact ih t₁ hrest
  exact hall _ t h

/-! ## The directories in a directory -/

/-- The entry that a name comes from. -/
theorem eq_of_subdir {e : Path × Node β} {name : String}
    (h : (match e with
      | (q, .dir) => if q.dropLast = p then q.getLast? else none
      | (_, .file _) => none) = some name) : e = (p ++ [name], .dir) := by
  obtain ⟨q, node⟩ := e
  cases node with
  | file content => cases h
  | dir =>
    dsimp only at h
    split at h
    · next hdrop =>
      have hne : q ≠ [] := by
        rintro rfl
        cases h
      rw [List.getLast?_eq_some_getLast hne, Option.some.injEq] at h
      rw [← hdrop, ← h, List.dropLast_append_getLast hne]
    · cases h

theorem mem_subdirs (h : t.Functional) {name : String} :
    name ∈ t.subdirs p ↔ t.get (p ++ [name]) = some .dir := by
  rw [subdirs, List.mem_filterMap]
  constructor
  · rintro ⟨e, hmem, hname⟩
    exact Assoc.get_of_mem h (eq_of_subdir hname ▸ hmem)
  · intro hget
    refine ⟨(p ++ [name], .dir), Assoc.mem_of_get hget, ?_⟩
    simp

theorem nodup_subdirs (h : t.Functional) : (t.subdirs p).Nodup := by
  refine List.Nodup.filterMap (fun e e' name he he' => ?_) (List.Nodup.of_map Prod.fst h)
  exact (eq_of_subdir he).trans (eq_of_subdir he').symm

theorem functional_filter (f : Path × Node β → Bool) (h : t.Functional) :
    Functional (t.filter f) := h.sublist (List.filter_sublist.map Prod.fst)

end FileTree

end Lib
