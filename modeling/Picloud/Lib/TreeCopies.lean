import Picloud.Lib.FilePaths
import Picloud.Lib.TreeFaults

/-!
# What a copy of a directory holds

In a file tree whose nodes are below directories, a copy of one directory to another that is apart from it
holds the nodes of the first, and beside them what the second held before (`get_copyTree`). It succeeds
where no file stands in place of a directory or the other way round, and only there (`exists_copyTree`,
`compatible_of_copyTree`).
-/

namespace Lib.FileTree

variable {β : Type} {t t' : FileTree β} {p q src dst : Path}

/-- Where a node is to be copied from `src` onto another one below `dst`, both are directories or both
are files. -/
def Compatible (t : FileTree β) (src dst : Path) : Prop :=
  ∀ rest n m, t.get (src ++ rest) = some n → t.get (dst ++ rest) = some m → (n = .dir ↔ m = .dir)

/-- The node is a directory, or there is none. -/
def Passable (t : FileTree β) (q : Path) : Prop := t.get q = none ∨ t.get q = some .dir

/-- A node is below directories only. -/
theorem Closed.nested (h : t.Closed) (p q : Path) (n : Node β) (hq : t.get q = some n) (hpq : p <+: q)
    (hne : p ≠ q) : t.get p = some .dir := by
  obtain ⟨rest, rfl⟩ := hpq
  refine h.dir_of_get (fun hrest => hne ?_) (by rw [hq]; exact Option.some_ne_none n)
  rw [hrest, List.append_nil]

theorem closed_of_nested (hroot : t.get [] = some .dir)
    (h : ∀ p q n, t.get q = some n → p <+: q → p ≠ q → t.get p = some .dir) : t.Closed := by
  refine ⟨hroot, fun p name hne => ?_⟩
  obtain ⟨n, hn⟩ := Option.ne_none_iff_exists'.mp hne
  exact h p (p ++ [name]) n hn (List.prefix_append p [name]) (by simp)

/-- The nodes that are listed can be looked at one by one. -/
theorem closed_of_inits (hroot : t.get [] = some .dir)
    (h : ∀ e ∈ t, ∀ p ∈ e.1.inits, p ≠ e.1 → t.get p = some .dir) : t.Closed :=
  closed_of_nested hroot fun p q n hq hpq hne =>
    h (q, n) (Assoc.mem_of_get hq) p ((List.mem_inits p q).mpr hpq) hne

/-! ## Directories on the way -/

theorem Passable.createDir {r : Path} (hq : t.Passable q) (h : t.createDir r = some t') :
    t'.Passable q := by
  by_cases hqr : q = r
  · exact Or.inr (hqr ▸ get_createDir h)
  · rwa [Passable, createDir_frame h hqr]

theorem exists_createDir (h : t.Passable q) : ∃ t', t.createDir q = some t' := by
  rw [createDir]
  rcases h with h | h
  · exact ⟨_, by rw [h]⟩
  · exact ⟨_, by rw [h]⟩

/-- Directories can be created where no file is in the way. -/
theorem exists_createDirAll (h : ∀ q, q <+: p → t.Passable q) : ∃ t', t.createDirAll p = some t' := by
  have hall : ∀ (ps : List Path) (t : FileTree β), (∀ q ∈ ps, t.Passable q) →
      ∃ t', ps.foldlM createDir t = some t' := by
    intro ps
    induction ps with
    | nil => exact fun t _ => ⟨t, rfl⟩
    | cons r ps ih =>
      intro t h
      obtain ⟨t₁, hfirst⟩ := exists_createDir (h r List.mem_cons_self)
      obtain ⟨t', hrest⟩ :=
        ih t₁ fun q hq => (h q (List.mem_cons_of_mem r hq)).createDir hfirst
      exact ⟨t', by rw [List.foldlM_cons, hfirst]; exact hrest⟩
  exact hall p.inits t fun q hq => h q ((List.mem_inits q p).mp hq)

theorem get_createDirAll_of (h : t.createDirAll p = some t') (q : Path) :
    t'.get q = if q <+: p then some .dir else t.get q := by
  split_ifs with hq
  · exact get_createDirAll h hq
  · exact createDirAll_frame h hq

theorem closed_createDirAll (hclosed : t.Closed) (h : t.createDirAll p = some t') : t'.Closed := by
  refine closed_of_nested (get_createDirAll h List.nil_prefix) fun r q n hq hrq hne => ?_
  rw [get_createDirAll_of h] at hq ⊢
  split_ifs at hq with hqp
  · rw [if_pos (hrq.trans hqp)]
  · rw [hclosed.nested r q n hq hrq hne, ite_self]

theorem closed_removeTree (hclosed : t.Closed) (hp : p ≠ []) : (t.removeTree p).Closed := by
  refine closed_of_nested ?_ fun r q n hq hrq hne => ?_
  · rw [get_removeTree, if_neg fun hpre => hp (List.prefix_nil.mp hpre), hclosed.root]
  rw [get_removeTree] at hq ⊢
  split_ifs at hq with hpq
  rw [if_neg fun hpr => hpq (hpr.trans hrq)]
  exact hclosed.nested r q n hq hrq hne

/-! ## One entry -/

theorem append_ne_isPrefix {rest : Path} (hrest : rest ≠ []) :
    q <+: dst ++ rest.dropLast ↔ q <+: dst ++ rest ∧ q ≠ dst ++ rest := by
  have hsplit : dst ++ rest = (dst ++ rest.dropLast) ++ [rest.getLast hrest] := by
    rw [List.append_assoc, List.dropLast_append_getLast hrest]
  rw [hsplit, List.prefix_concat_iff]
  constructor
  · intro h
    refine ⟨Or.inr h, ?_⟩
    rintro rfl
    have hlength := h.length_le
    rw [List.length_append, List.length_singleton] at hlength
    omega
  · rintro ⟨h | h, hne⟩
    · exact absurd h hne
    · exact h

/-- What a copied entry writes. -/
theorem get_copyEntry {rest : Path} {n : Node β} (hrest : rest ≠ [])
    (h : copyEntry src dst t (src ++ rest, n) = some t') (q : Path) :
    t'.get q = if q = dst ++ rest then some n else if q <+: dst ++ rest then some .dir else t.get q := by
  rw [copyEntry] at h
  dsimp only at h
  rw [List.drop_left] at h
  cases n with
  | dir =>
    rw [get_createDirAll_of h]
    by_cases hq : q = dst ++ rest
    · rw [if_pos hq, if_pos (hq ▸ List.prefix_refl _)]
    · rw [if_neg hq]
  | file content =>
    obtain ⟨t₁, hdir, hfile⟩ := Option.bind_eq_some_iff.mp h
    by_cases hq : q = dst ++ rest
    · rw [if_pos hq, hq]
      rw [writeFile] at hfile
      split at hfile
      · cases hfile
      · cases hfile
        exact Assoc.get_set_self t₁ _ _
    · rw [if_neg hq, writeFile_frame hfile hq, get_createDirAll_of hdir]
      simp only [append_ne_isPrefix hrest, hq, ne_eq, not_false_eq_true, and_true]

/-- An entry can be copied where it meets its like. -/
theorem exists_copyEntry {rest : Path} {n : Node β} (hrest : rest ≠ [])
    (hway : ∀ q, q <+: dst ++ rest → q ≠ dst ++ rest → t.Passable q)
    (hhere : ∀ m, t.get (dst ++ rest) = some m → (n = .dir ↔ m = .dir)) :
    ∃ t', copyEntry src dst t (src ++ rest, n) = some t' := by
  rw [copyEntry]
  dsimp only
  rw [List.drop_left]
  cases n with
  | dir =>
    refine exists_createDirAll fun q hq => ?_
    by_cases hqe : q = dst ++ rest
    · subst hqe
      cases hget : t.get (dst ++ rest) with
      | none => exact Or.inl hget
      | some m => exact Or.inr (by rw [hget, (hhere m hget).mp rfl])
    · exact hway q hq hqe
  | file content =>
    obtain ⟨t₁, hdir⟩ : ∃ t₁, t.createDirAll (dst ++ rest.dropLast) = some t₁ := by
      refine exists_createDirAll fun q hq => ?_
      obtain ⟨hq, hqe⟩ := (append_ne_isPrefix hrest).mp hq
      exact hway q hq hqe
    have hsame : t₁.get (dst ++ rest) = t.get (dst ++ rest) :=
      createDirAll_frame hdir fun hq => ((append_ne_isPrefix hrest).mp hq).2 rfl
    refine ⟨t₁.put (dst ++ rest) (.file content), ?_⟩
    dsimp only
    rw [hdir, Option.bind_some, writeFile]
    split
    · next hget =>
      have hbad := (hhere .dir (hsame ▸ hget)).mpr rfl
      cases hbad
    · rfl

/-! ## All entries -/

/-- A copy from `src` to `dst` that began at `t` and has come to `t'`: outside of `dst` nothing has
changed, and in it nodes have been copied. -/
structure Copying (src dst : Path) (t t' : FileTree β) : Prop where
  outside : ∀ q, ¬ dst <+: q → t'.get q = t.get q
  inside : ∀ rest, t'.get (dst ++ rest) = t.get (dst ++ rest) ∨
    ∃ n, t.get (src ++ rest) = some n ∧ t'.get (dst ++ rest) = some n

/-- What a copy starts from: the directories that lead to `dst` are there. -/
structure CopyStart (src dst : Path) (t : FileTree β) : Prop where
  closed : t.Closed
  dirs : ∀ q, q <+: dst → t.get q = some .dir

variable {t₁ : FileTree β} {rest : Path} {n : Node β}

theorem Copying.refl (src dst : Path) (t : FileTree β) : Copying src dst t t :=
  ⟨fun _ _ => rfl, fun _ => Or.inl rfl⟩

theorem isPrefix_append_iff {a b c : Path} : a ++ b <+: a ++ c ↔ b <+: c :=
  List.prefix_append_right_inj a

/-- The next entry is copied, and those before stay. -/
theorem Copying.copyEntry (h : Copying src dst t t₁) (hstart : CopyStart src dst t)
    (hnode : t.get (src ++ rest) = some n) (hrest : rest ≠ [])
    (hcopy : FileTree.copyEntry src dst t₁ (src ++ rest, n) = some t') :
    Copying src dst t t' ∧ t'.get (dst ++ rest) = some n ∧
      ∀ rest' m, t.get (src ++ rest') = some m → t₁.get (dst ++ rest') = some m →
        t'.get (dst ++ rest') = some m := by
  -- The directories on the way in `dst` are those on the way in `src`.
  have hway : ∀ rest', rest' <+: rest → rest' ≠ rest → t.get (src ++ rest') = some .dir := by
    intro rest' hpre hne
    refine hstart.closed.nested _ _ n hnode (isPrefix_append_iff.mpr hpre) fun heq => hne ?_
    exact List.append_cancel_left heq
  refine ⟨⟨fun q hq => ?_, fun rest' => ?_⟩, ?_, fun rest' m hm hcopied => ?_⟩
  · rw [get_copyEntry hrest hcopy]
    have hne : q ≠ dst ++ rest := by
      rintro rfl
      exact hq (List.prefix_append dst rest)
    rw [if_neg hne]
    split_ifs with hpre
    · rcases comparable_of_isPrefix_append hpre with hdst | hdst
      · exact absurd hdst hq
      · exact (hstart.dirs q hdst).symm
    · exact h.outside q hq
  · rw [get_copyEntry hrest hcopy]
    simp only [isPrefix_append_iff, List.append_cancel_left_eq]
    split_ifs with heq hpre
    · exact Or.inr ⟨n, heq ▸ hnode, rfl⟩
    · exact Or.inr ⟨.dir, hway rest' hpre heq, rfl⟩
    · exact h.inside rest'
  · rw [get_copyEntry hrest hcopy, if_pos rfl]
  · rw [get_copyEntry hrest hcopy]
    simp only [isPrefix_append_iff, List.append_cancel_left_eq]
    split_ifs with heq hpre
    · rw [← hm, heq, hnode]
    · rw [← hm, hway rest' hpre heq]
    · exact hcopied

/-- The next entry can be copied. -/
theorem Copying.exists_copyEntry (h : Copying src dst t t₁) (hstart : CopyStart src dst t)
    (hcompatible : t.Compatible src dst) (hnode : t.get (src ++ rest) = some n) (hrest : rest ≠ []) :
    ∃ t', FileTree.copyEntry src dst t₁ (src ++ rest, n) = some t' := by
  have hkind : ∀ rest' n, t.get (src ++ rest') = some n → ∀ m, t₁.get (dst ++ rest') = some m →
      (n = .dir ↔ m = .dir) := by
    intro rest' n hn m hm
    rcases h.inside rest' with hkept | ⟨n', hn', hcopied⟩
    · exact hcompatible rest' n m hn (hkept ▸ hm)
    · rw [hn] at hn'
      rw [hm] at hcopied
      rw [Option.some.inj hn', Option.some.inj hcopied]
  refine FileTree.exists_copyEntry hrest (fun q hq hne => ?_) (hkind rest n hnode)
  rcases comparable_of_isPrefix_append hq with hdst | hdst
  · obtain ⟨rest', rfl⟩ := hdst
    have hdir : t.get (src ++ rest') = some .dir := by
      refine hstart.closed.nested _ _ n hnode (isPrefix_append_iff.mpr (isPrefix_append_iff.mp hq)) ?_
      rintro heq
      exact hne (by rw [List.append_cancel_left heq])
    cases hget : t₁.get (dst ++ rest') with
    | none => exact Or.inl hget
    | some m => exact Or.inr (by rw [hget, (hkind rest' .dir hdir m hget).mp rfl])
  · by_cases hlong : dst <+: q
    · rw [List.IsPrefix.eq_of_length hdst (le_antisymm hdst.length_le hlong.length_le)]
      rcases h.inside [] with hkept | ⟨n', hn', hcopied⟩
      · rw [List.append_nil] at hkept
        exact Or.inr (hkept.trans (hstart.dirs dst (List.prefix_refl dst)))
      · rw [List.append_nil] at hcopied hn'
        refine Or.inr (hcopied.trans ?_)
        have hdir := hstart.closed.nested src (src ++ rest) n hnode (List.prefix_append src rest) fun heq =>
          hrest (List.append_cancel_left (heq.symm.trans (List.append_nil src).symm))
        rw [← hn', hdir]
    · exact Or.inr ((h.outside q hlong).trans (hstart.dirs q hdst))

/-- The nodes below `src` are copied one after the other. -/
theorem Copying.foldlM (hstart : CopyStart src dst t) {es : List (Path × Node β)}
    (hes : ∀ e ∈ es, ∃ rest, e.1 = src ++ rest ∧ rest ≠ [] ∧ t.get e.1 = some e.2)
    (h : Copying src dst t t₁) (hcopy : es.foldlM (FileTree.copyEntry src dst) t₁ = some t') :
    Copying src dst t t' ∧
      (∀ rest n, t.get (src ++ rest) = some n → t₁.get (dst ++ rest) = some n →
        t'.get (dst ++ rest) = some n) ∧
      ∀ rest n, (src ++ rest, n) ∈ es → t'.get (dst ++ rest) = some n := by
  induction es generalizing t₁ with
  | nil =>
    cases hcopy
    exact ⟨h, fun _ _ _ h => h, fun _ _ hmem => absurd hmem List.not_mem_nil⟩
  | cons e es ih =>
    rw [List.foldlM_cons, Option.bind_eq_bind, Option.bind_eq_some_iff] at hcopy
    obtain ⟨t₂, hfirst, hcopy⟩ := hcopy
    obtain ⟨path, n⟩ := e
    obtain ⟨rest, hpath, hrest, hnode⟩ := hes _ List.mem_cons_self
    dsimp only at hpath hnode
    subst hpath
    obtain ⟨h₂, hhere, hkept⟩ := h.copyEntry hstart hnode hrest hfirst
    obtain ⟨h', hkept', hall⟩ := ih (fun e he => hes e (List.mem_cons_of_mem _ he)) h₂ hcopy
    refine ⟨h', fun rest' m hm hcopied => hkept' rest' m hm (hkept rest' m hm hcopied), ?_⟩
    intro rest' m hmem
    rcases List.mem_cons.mp hmem with heq | hmem
    · rw [Prod.mk.injEq, List.append_cancel_left_eq] at heq
      obtain ⟨rfl, rfl⟩ := heq
      exact hkept' rest' m hnode hhere
    · exact hall rest' m hmem

/-- They can be copied where each meets its like. -/
theorem Copying.exists_foldlM (hstart : CopyStart src dst t) (hcompatible : t.Compatible src dst)
    {es : List (Path × Node β)}
    (hes : ∀ e ∈ es, ∃ rest, e.1 = src ++ rest ∧ rest ≠ [] ∧ t.get e.1 = some e.2)
    (h : Copying src dst t t₁) : ∃ t', es.foldlM (FileTree.copyEntry src dst) t₁ = some t' := by
  induction es generalizing t₁ with
  | nil => exact ⟨t₁, rfl⟩
  | cons e es ih =>
    obtain ⟨path, n⟩ := e
    obtain ⟨rest, hpath, hrest, hnode⟩ := hes _ List.mem_cons_self
    dsimp only at hpath hnode
    subst hpath
    obtain ⟨t₂, hfirst⟩ := h.exists_copyEntry hstart hcompatible hnode hrest
    obtain ⟨t', hcopy⟩ := ih (fun e he => hes e (List.mem_cons_of_mem _ he))
      (h.copyEntry hstart hnode hrest hfirst).1
    exact ⟨t', by rw [List.foldlM_cons, hfirst]; exact hcopy⟩

/-! ## The whole copy -/

/-- The nodes below a path. -/
theorem below_eq (hfunctional : t.Functional) :
    ∀ e ∈ t.filter (fun e => src <+: e.1 ∧ src ≠ e.1),
      ∃ rest, e.1 = src ++ rest ∧ rest ≠ [] ∧ t.get e.1 = some e.2 := by
  intro e he
  obtain ⟨hmem, hbelow⟩ := List.mem_filter.mp he
  obtain ⟨⟨rest, hrest⟩, hne⟩ := of_decide_eq_true hbelow
  refine ⟨rest, hrest.symm, ?_, Assoc.get_of_mem hfunctional hmem⟩
  rintro rfl
  exact hne ((List.append_nil src).symm.trans hrest)

theorem copyStart_createDirAll (hclosed : t.Closed) (h : t.createDirAll dst = some t') :
    CopyStart src dst t' :=
  ⟨closed_createDirAll hclosed h, fun _ hq => get_createDirAll h hq⟩

/-- A node of the source is not on the way to where it is copied. -/
theorem get_src_createDirAll (hapart : ¬ Comparable src dst) (h : t.createDirAll dst = some t')
    (rest : Path) : t'.get (src ++ rest) = t.get (src ++ rest) :=
  createDirAll_frame h fun hpre => hapart (Or.inl ((List.prefix_append src rest).trans hpre))

/-- **A copy holds the nodes of its source**, and beside them what was there before. -/
theorem get_copyTree (hfunctional : t.Functional) (hclosed : t.Closed) (hapart : ¬ Comparable src dst)
    (h : t.copyTree src dst = some t') (rest : Path) :
    t'.get (dst ++ rest) = (t.get (src ++ rest)).or (t.get (dst ++ rest)) := by
  rw [copyTree, if_neg fun hpre => hapart (Or.inl hpre), Option.bind_eq_some_iff] at h
  obtain ⟨t₁, hdir, hcopy⟩ := h
  have hsrc : ∀ rest, t₁.get (src ++ rest) = t.get (src ++ rest) := get_src_createDirAll hapart hdir
  have hstart : CopyStart src dst t₁ := copyStart_createDirAll hclosed hdir
  have hfunctional₁ := (createDirAll_keeps hdir).functional hfunctional
  split at hcopy
  · next hsrcDir =>
    obtain ⟨hcopying, -, hall⟩ :=
      (Copying.refl src dst t₁).foldlM hstart (below_eq hfunctional₁) hcopy
    by_cases hrest : rest = []
    · subst hrest
      have hdst : t₁.get (dst ++ []) = some .dir := by
        rw [List.append_nil]
        exact hstart.dirs dst (List.prefix_refl dst)
      rw [← hsrc, List.append_nil src, hsrcDir, Option.some_or]
      rcases hcopying.inside [] with hkept | ⟨n, hn, hcopied⟩
      · exact hkept.trans hdst
      · rw [List.append_nil src, hsrcDir] at hn
        rw [hcopied, hn]
    · cases hnode : t.get (src ++ rest) with
      | some n =>
        rw [Option.some_or]
        refine hall rest n (List.mem_filter.mpr ⟨Assoc.mem_of_get ((hsrc rest).trans hnode), ?_⟩)
        refine decide_eq_true ⟨List.prefix_append src rest, fun heq => hrest ?_⟩
        exact List.append_cancel_left (heq.symm.trans (List.append_nil src).symm)
      | none =>
        rw [Option.none_or]
        have hfar : ¬ dst ++ rest <+: dst := by
          intro hpre
          have hlength := hpre.length_le
          rw [List.length_append] at hlength
          exact hrest (List.length_eq_zero_iff.mp (by omega))
        rw [← createDirAll_frame hdir hfar]
        rcases hcopying.inside rest with hkept | ⟨n, hn, -⟩
        · exact hkept
        · rw [hsrc, hnode] at hn
          cases hn
  · cases hcopy

/-- A copy succeeds where each node meets its like. -/
theorem exists_copyTree (hfunctional : t.Functional) (hclosed : t.Closed)
    (hapart : ¬ Comparable src dst) (hsrc : t.get src = some .dir)
    (hway : ∀ q, q <+: dst → t.Passable q) (hcompatible : t.Compatible src dst) :
    ∃ t', t.copyTree src dst = some t' := by
  obtain ⟨t₁, hdir⟩ := exists_createDirAll hway
  have hsrc₁ : ∀ rest, t₁.get (src ++ rest) = t.get (src ++ rest) := get_src_createDirAll hapart hdir
  have hcompatible₁ : t₁.Compatible src dst := by
    intro rest n m hn hm
    rw [hsrc₁] at hn
    rw [get_createDirAll_of hdir] at hm
    split_ifs at hm with hpre
    · have hrest : rest = [] := by
        have hlength := hpre.length_le
        rw [List.length_append] at hlength
        exact List.length_eq_zero_iff.mp (by omega)
      subst hrest
      rw [List.append_nil, hsrc] at hn
      rw [← Option.some.inj hn, ← Option.some.inj hm]
    · exact hcompatible rest n m hn hm
  obtain ⟨t', hcopy⟩ := (Copying.refl src dst t₁).exists_foldlM (copyStart_createDirAll hclosed hdir)
    hcompatible₁ (below_eq ((createDirAll_keeps hdir).functional hfunctional))
  refine ⟨t', ?_⟩
  rw [copyTree, if_neg fun hpre => hapart (Or.inl hpre), hdir, Option.bind_some]
  have hsrcDir : t₁.get src = some .dir := by
    have hsame := hsrc₁ []
    rw [List.append_nil] at hsame
    rw [hsame, hsrc]
  rw [hsrcDir]
  exact hcopy

/-! ## What a copy cannot overwrite -/

/-- A file stays a file. -/
def KeepsFiles (t t' : FileTree β) : Prop :=
  ∀ q content, t.get q = some (.file content) → ∃ content', t'.get q = some (.file content')

theorem keepsFiles_of_foldlM {γ : Type*} {step : FileTree β → γ → Option (FileTree β)}
    (hstep : ∀ t e t', step t e = some t' → KeepsFiles t t') {es : List γ}
    (h : es.foldlM step t = some t') : KeepsFiles t t' := by
  induction es generalizing t with
  | nil =>
    cases h
    exact fun _ content hq => ⟨content, hq⟩
  | cons e es ih =>
    rw [List.foldlM_cons, Option.bind_eq_bind, Option.bind_eq_some_iff] at h
    obtain ⟨t₁, hfirst, hrest⟩ := h
    intro q content hq
    obtain ⟨content₁, hq₁⟩ := hstep t e t₁ hfirst q content hq
    exact ih hrest q content₁ hq₁

theorem createDir_keepsFiles (h : t.createDir p = some t') : KeepsFiles t t' := by
  intro q content hq
  refine ⟨content, ?_⟩
  by_cases hqp : q = p
  · subst hqp
    rw [createDir, hq] at h
    cases h
  · rw [createDir_frame h hqp, hq]

theorem createDirAll_keepsFiles (h : t.createDirAll p = some t') : KeepsFiles t t' :=
  keepsFiles_of_foldlM (fun _ _ _ => createDir_keepsFiles) h

theorem writeFile_keepsFiles {content : β} (h : t.writeFile p content = some t') : KeepsFiles t t' := by
  intro q content' hq
  by_cases hqp : q = p
  · subst hqp
    rw [writeFile, hq] at h
    cases h
    exact ⟨content, Assoc.get_set_self t q _⟩
  · exact ⟨content', by rw [writeFile_frame h hqp, hq]⟩

theorem copyEntry_keepsFiles {e : Path × Node β} (h : copyEntry src dst t e = some t') :
    KeepsFiles t t' := by
  rw [copyEntry] at h
  split at h
  · exact createDirAll_keepsFiles h
  · obtain ⟨t₁, hdir, hfile⟩ := Option.bind_eq_some_iff.mp h
    intro q content hq
    obtain ⟨content₁, hq₁⟩ := createDirAll_keepsFiles hdir q content hq
    exact writeFile_keepsFiles hfile q content₁ hq₁

theorem copyTree_keepsFiles (h : t.copyTree src dst = some t') : KeepsFiles t t' := by
  rw [copyTree] at h
  split at h
  · cases h
  · obtain ⟨t₁, hdir, hcopy⟩ := Option.bind_eq_some_iff.mp h
    split at hcopy
    · intro q content hq
      obtain ⟨content₁, hq₁⟩ := createDirAll_keepsFiles hdir q content hq
      exact keepsFiles_of_foldlM (fun _ _ _ => copyEntry_keepsFiles) hcopy q content₁ hq₁
    · cases hcopy

/-- Where a copy has succeeded, each node has met its like. -/
theorem compatible_of_copyTree (hfunctional : t.Functional) (hclosed : t.Closed)
    (hapart : ¬ Comparable src dst) (h : t.copyTree src dst = some t') : t.Compatible src dst := by
  intro rest n m hn hm
  have hget := get_copyTree hfunctional hclosed hapart h rest
  rw [hn, Option.some_or] at hget
  cases m with
  | dir =>
    have hdir := (copyTree_keeps h).1.dirs _ hm
    rw [hget] at hdir
    exact iff_of_true (Option.some.inj hdir) rfl
  | file content =>
    obtain ⟨content', hfile⟩ := copyTree_keepsFiles h _ content hm
    rw [hget] at hfile
    rw [Option.some.inj hfile]
    exact iff_of_false nofun nofun

/-- After a copy nodes are below directories, as before. -/
theorem closed_copyTree (hfunctional : t.Functional) (hclosed : t.Closed)
    (hapart : ¬ Comparable src dst) (h : t.copyTree src dst = some t') : t'.Closed := by
  have hget := get_copyTree hfunctional hclosed hapart h
  have hway := (copyTree_keeps h).2
  refine closed_of_nested (hway [] List.nil_prefix) fun p q n hq hpq hne => ?_
  by_cases hp : p <+: dst
  · exact hway p hp
  by_cases hdst : dst <+: q
  · -- Both nodes are in the copy.
    obtain ⟨rest, rfl⟩ := hdst
    obtain ⟨rest', rfl⟩ : dst <+: p := (comparable_of_isPrefix_append hpq).resolve_right hp
    have hpre := isPrefix_append_iff.mp hpq
    have hrest : rest' ≠ rest := fun heq => hne (by rw [heq])
    have hparent : ∀ base m, t.get (base ++ rest) = some m → t.get (base ++ rest') = some .dir :=
      fun base m hm => hclosed.nested _ _ m hm (isPrefix_append_iff.mpr hpre) fun heq =>
        hrest (List.append_cancel_left heq)
    rw [hget] at hq ⊢
    cases hsrc : t.get (src ++ rest) with
    | some m => rw [hparent src m hsrc, Option.some_or]
    | none =>
      rw [hsrc, Option.none_or] at hq
      have hdir := hparent dst n hq
      cases hover : t.get (src ++ rest') with
      | none => rw [Option.none_or, hdir]
      | some m =>
        have hkind := compatible_of_copyTree hfunctional hclosed hapart h rest' m .dir hover hdir
        rw [hkind.mpr rfl, Option.some_or]
  · have hsame : ∀ r, ¬ r <+: dst → ¬ dst <+: r → t'.get r = t.get r := fun r hr hdr =>
      copyTree_frame h fun hcomparable => hcomparable.elim hdr hr
    have hpdst : ¬ dst <+: p := fun hpre => hdst (hpre.trans hpq)
    rw [hsame q (fun hqdst => hp (hpq.trans hqdst)) hdst] at hq
    rw [hsame p hp hpdst]
    exact hclosed.nested p q n hq hpq hne

/-! ## A copy that stops -/

/-- The nodes below a path. -/
def below (t : FileTree β) (src : Path) : FileTree β := t.filter fun e => src <+: e.1 ∧ src ≠ e.1

/-- The part of a file that a copy has written when it stops. -/
def cutEntry (next : Option (Path × Node β)) (cut : Option β) : FileTree β :=
  match next, cut with
  | some (q, .file _), some content => [(q, .file content)]
  | _, _ => []

/-- The nodes that a copy has come to when it stops; a file may be cut. -/
def copiedUntil (t : FileTree β) (src : Path) : CopyStop β → FileTree β
  | .directories _ => []
  | .entries copied cut => (t.below src).take copied ++ cutEntry (t.below src)[copied]? cut

theorem cutEntry_cases (next : Option (Path × Node β)) (cut : Option β) : cutEntry next cut = [] ∨
    ∃ q content content', next = some (q, .file content) ∧
      cutEntry next cut = [(q, .file content')] := by
  rcases next with _ | ⟨q, _ | content⟩ <;> cases cut
  all_goals first | exact Or.inl rfl | exact Or.inr ⟨q, content, _, rfl, rfl⟩

theorem below_put (t : FileTree β) {n : Node β} (hp : ¬ src <+: p) :
    (t.put p n).below src = t.below src := by
  rw [below, below, put, Assoc.set, Assoc.erase, List.filter_cons_of_neg, List.filter_filter]
  · refine List.filter_congr fun e _ => ?_
    by_cases he : e.1 = p
    · simp [he, hp]
    · simp [he]
  · exact fun h => hp (of_decide_eq_true h).1

theorem below_createDirAll (hdst : ¬ src <+: dst) (h : t.createDirAll dst = some t') :
    t'.below src = t.below src := by
  have hall : ∀ (ps : List Path) (t : FileTree β), (∀ p ∈ ps, ¬ src <+: p) →
      ps.foldlM createDir t = some t' → t'.below src = t.below src := by
    intro ps
    induction ps with
    | nil =>
      intro t _ h
      cases h
      rfl
    | cons p ps ih =>
      intro t hps h
      rw [List.foldlM_cons, Option.bind_eq_bind, Option.bind_eq_some_iff] at h
      obtain ⟨t₁, hfirst, hrest⟩ := h
      rw [ih t₁ (fun q hq => hps q (List.mem_cons_of_mem p hq)) hrest]
      rw [createDir] at hfirst
      split at hfirst
      · cases hfirst
        exact below_put t (hps p List.mem_cons_self)
      · cases hfirst
        rfl
      · cases hfirst
  exact hall _ t (fun p hp hsrc => hdst (hsrc.trans ((List.mem_inits p dst).mp hp))) h

/-- Removing a tree apart from the source does not change what a copy has come to. -/
theorem copiedUntil_removeTree (hapart : ¬ Comparable src dst) (stop : CopyStop β) :
    (t.removeTree dst).copiedUntil src stop = t.copiedUntil src stop := by
  have hbelow : (t.removeTree dst).below src = t.below src := by
    rw [below, below, removeTree, List.filter_filter]
    refine List.filter_congr fun e _ => ?_
    by_cases he : src <+: e.1
    · have hfar : ¬ dst <+: e.1 := fun hdst => hapart (List.prefix_or_prefix_of_prefix he hdst)
      simp [hfar]
    · simp [he]
  cases stop with
  | directories made => rfl
  | entries copied cut => rw [copiedUntil, copiedUntil, hbelow]

/-- Directories that are there are not made again. -/
theorem foldlM_createDir_of_dirs {ps : List Path} (h : ∀ p ∈ ps, t.get p = some .dir) :
    ps.foldlM createDir t = some t := by
  induction ps with
  | nil => rfl
  | cons p ps ih =>
    rw [List.foldlM_cons, createDir, h p List.mem_cons_self]
    exact ih fun q hq => h q (List.mem_cons_of_mem p hq)

/-- A copy that has made its directory copies one node after the other. -/
theorem copyTreeUntil_entries (hdst : ¬ src <+: dst) (copied : ℕ) (cut : Option β) :
    t.copyTreeUntil src dst (.entries copied cut) = (t.createDirAll dst).bind fun t' =>
      (t.copiedUntil src (.entries copied cut)).foldlM (copyEntry src dst) t' := by
  rw [copyTreeUntil, if_neg hdst]
  cases hdir : t.createDirAll dst with
  | none => rfl
  | some t' =>
    rw [copiedUntil, Option.bind_some, Option.bind_some, List.foldlM_append, ← below_createDirAll hdst hdir]
    show (((t'.below src).take copied).foldlM (copyEntry src dst) t').bind (fun t'' =>
      match (t'.below src)[copied]?, cut with
      | some (q, .file _), some content => copyEntry src dst t'' (q, .file content)
      | _, _ => some t'') = Option.bind _ _
    refine congrArg _ (funext fun t'' => ?_)
    generalize (t'.below src)[copied]? = next
    rcases next with _ | ⟨q, _ | content⟩ <;> cases cut
    · rfl
    · rfl
    · rfl
    · rfl
    · rfl
    · exact (bind_pure (copyEntry src dst t'' _)).symm

/-- The nodes of the list are below directories, and there is one for every path. -/
structure CopyList (src : Path) (es : FileTree β) : Prop where
  nodup : (Assoc.keys es).Nodup
  under : ∀ e ∈ es, ∃ rest, rest ≠ [] ∧ e.1 = src ++ rest
  dirs : ∀ e ∈ es, ∀ e' ∈ es, e.1 <+: e'.1 → e.1 ≠ e'.1 → e.2 = .dir

theorem CopyList.append_left {es es' : FileTree β} (h : CopyList src (es ++ es')) : CopyList src es :=
  ⟨h.nodup.sublist (List.Sublist.map Prod.fst (List.sublist_append_left es es')),
    fun e he => h.under e (List.mem_append_left es' he),
    fun e he e' he' => h.dirs e (List.mem_append_left es' he) e' (List.mem_append_left es' he')⟩

/-- What stands below `dst` when a list has been copied to where nothing was: the nodes of the list, and
the directories that lead to them. -/
theorem get_foldlM_copyEntry {es : FileTree β} (hes : CopyList src es)
    (h : es.foldlM (copyEntry src dst) t = some t') {rest : Path} (hnone : t.get (dst ++ rest) = none)
    (n : Node β) : t'.get (dst ++ rest) = some n ↔ (src ++ rest, n) ∈ es ∨
      n = .dir ∧ ∃ e ∈ es, src ++ rest <+: e.1 ∧ src ++ rest ≠ e.1 := by
  induction es using List.reverseRecOn generalizing t' n with
  | nil =>
    cases h
    simp [hnone]
  | append_singleton es e ih =>
    rw [List.foldlM_append, Option.bind_eq_bind, Option.bind_eq_some_iff] at h
    obtain ⟨t₁, hcopied, hlast⟩ := h
    rw [List.foldlM_cons] at hlast
    replace hlast := (bind_pure _).symm.trans hlast
    have ih := ih hes.append_left hcopied
    have hmem : e ∈ es ++ [e] := List.mem_append_right es (List.mem_singleton_self e)
    obtain ⟨path, m⟩ := e
    obtain ⟨r, hr, hpath⟩ := hes.under _ hmem
    dsimp only at hpath
    subst hpath
    have hnew : ∀ m', (src ++ r, m') ∉ es := by
      intro m' hm'
      have hnodup := hes.nodup
      rw [Assoc.keys, List.map_append, List.nodup_append] at hnodup
      exact hnodup.2.2 _ (List.mem_map_of_mem hm') _ (List.mem_singleton_self _) rfl
    rw [get_copyEntry hr hlast]
    simp only [List.mem_append, List.mem_singleton, Prod.mk.injEq, List.append_cancel_left_eq, ne_eq,
      or_and_right, exists_or, exists_eq_left, isPrefix_append_iff]
    by_cases heq : rest = r
    · subst heq
      rw [if_pos rfl]
      constructor
      · rintro ⟨⟩
        exact Or.inl (Or.inr ⟨rfl, rfl⟩)
      · rintro ((hold | ⟨-, rfl⟩) | ⟨rfl, ⟨e, he, hpre, hne⟩ | ⟨-, hne⟩⟩)
        · exact absurd hold (hnew n)
        · rfl
        · exact congrArg some (hes.dirs _ hmem e (List.mem_append_left _ he) hpre hne)
        · exact absurd rfl hne
    · rw [if_neg heq]
      by_cases hpre : rest <+: r
      · rw [if_pos hpre]
        constructor
        · rintro ⟨⟩
          exact Or.inr ⟨rfl, Or.inr ⟨hpre, heq⟩⟩
        · rintro ((hold | ⟨hbad, -⟩) | ⟨rfl, -⟩)
          · exact congrArg some (hes.dirs _ (List.mem_append_left _ hold) _ hmem
              (isPrefix_append_iff.mpr hpre) fun h => heq (List.append_cancel_left h)).symm
          · exact absurd hbad heq
          · rfl
      · rw [if_neg hpre, ih]
        simp only [heq, false_and, or_false, hpre]

/-- A list can be copied into an empty directory. -/
theorem exists_foldlM_copyEntry {es : FileTree β} (hes : CopyList src es)
    (hdirs : ∀ q, q <+: dst → t.get q = some .dir)
    (hnone : ∀ rest, rest ≠ [] → t.get (dst ++ rest) = none) :
    ∃ t', es.foldlM (copyEntry src dst) t = some t' := by
  induction es using List.reverseRecOn with
  | nil => exact ⟨t, rfl⟩
  | append_singleton es e ih =>
    obtain ⟨t₁, hcopied⟩ := ih hes.append_left
    have hget := fun rest hrest => get_foldlM_copyEntry hes.append_left hcopied (hnone rest hrest)
    have hmem : e ∈ es ++ [e] := List.mem_append_right es (List.mem_singleton_self e)
    obtain ⟨path, m⟩ := e
    obtain ⟨r, hr, hpath⟩ := hes.under _ hmem
    dsimp only at hpath
    subst hpath
    obtain ⟨t', hlast⟩ : ∃ t', copyEntry src dst t₁ (src ++ r, m) = some t' := by
      refine exists_copyEntry hr (fun q hq hne => ?_) fun m' hm' => ?_
      · by_cases hdst : q <+: dst
        · exact Or.inr ((keeps_of_foldlM (fun _ _ _ => copyEntry_keeps) hcopied).dirs q (hdirs q hdst))
        · obtain ⟨rest, rfl⟩ : dst <+: q := (comparable_of_isPrefix_append hq).resolve_right hdst
          have hrest : rest ≠ [] := fun h => hdst (by rw [h, List.append_nil])
          have hpre := isPrefix_append_iff.mp hq
          cases hn : t₁.get (dst ++ rest) with
          | none => exact Or.inl hn
          | some n =>
            refine Or.inr (hn.trans (congrArg some ?_))
            rcases (hget rest hrest n).mp hn with hold | ⟨hdir, -⟩
            · exact hes.dirs _ (List.mem_append_left _ hold) _ hmem (isPrefix_append_iff.mpr hpre)
                fun h => hne (congrArg (dst ++ ·) (List.append_cancel_left h))
            · exact hdir
      · rcases (hget r hr m').mp hm' with hold | ⟨rfl, e, he, hpre, hne⟩
        · have hnodup := hes.nodup
          rw [Assoc.keys, List.map_append, List.nodup_append] at hnodup
          exact absurd rfl (hnodup.2.2 _ (List.mem_map_of_mem hold) _ (List.mem_singleton_self _))
        · exact iff_of_true (hes.dirs _ hmem e (List.mem_append_left _ he) hpre hne) rfl
    refine ⟨t', ?_⟩
    rw [List.foldlM_append, hcopied, Option.bind_eq_bind, Option.bind_some, List.foldlM_cons]
    exact (bind_pure (copyEntry src dst t₁ _)).trans hlast

/-- What a copy has come to are nodes of its source, where only the content of a file may be another. -/
theorem exists_of_mem_copiedUntil {stop : CopyStop β} {e : Path × Node β}
    (he : e ∈ t.copiedUntil src stop) : ∃ m, (e.1, m) ∈ t.below src ∧ (e.2 = .dir ↔ m = .dir) := by
  cases stop with
  | directories made => exact absurd he List.not_mem_nil
  | entries copied cut =>
    rcases List.mem_append.mp he with he | he
    · exact ⟨e.2, List.mem_of_mem_take he, Iff.rfl⟩
    · rcases cutEntry_cases (t.below src)[copied]? cut with hnil | ⟨q, content, content', hnext, hcut⟩
      · exact absurd (hnil ▸ he) List.not_mem_nil
      · rw [hcut, List.mem_singleton] at he
        subst he
        refine ⟨.file content, List.mem_of_getElem? hnext, ?_⟩
        exact iff_of_false (fun h => by cases h) fun h => by cases h

theorem copyList_copiedUntil (hfunctional : t.Functional) (hclosed : t.Closed) (stop : CopyStop β) :
    CopyList src (t.copiedUntil src stop) where
  nodup := by
    have hbelow : (Assoc.keys (t.below src)).Nodup :=
      hfunctional.sublist (List.Sublist.map Prod.fst List.filter_sublist)
    cases stop with
    | directories made => exact List.nodup_nil
    | entries copied cut =>
      rw [copiedUntil]
      rcases cutEntry_cases (t.below src)[copied]? cut with hnil | ⟨q, content, content', hnext, hcut⟩
      · rw [hnil, List.append_nil]
        exact hbelow.sublist (List.Sublist.map Prod.fst (List.take_sublist _ _))
      · have hkeys : Assoc.keys ((t.below src).take copied ++ [(q, .file content')]) =
            (Assoc.keys (t.below src)).take (copied + 1) := by
          rw [Assoc.keys, Assoc.keys, List.map_append, List.take_add_one, List.getElem?_map, hnext,
            List.map_take]
          rfl
        rw [hcut, hkeys]
        exact hbelow.sublist (List.take_sublist _ _)
  under e he := by
    obtain ⟨m, hm, -⟩ := exists_of_mem_copiedUntil he
    obtain ⟨rest, hpath, hrest, -⟩ := below_eq hfunctional _ hm
    exact ⟨rest, hrest, hpath⟩
  dirs e he e' he' hpre hne := by
    obtain ⟨m, hm, hkind⟩ := exists_of_mem_copiedUntil he
    obtain ⟨m', hm', -⟩ := exists_of_mem_copiedUntil he'
    obtain ⟨-, -, -, hget⟩ := below_eq hfunctional _ hm
    obtain ⟨-, -, -, hget'⟩ := below_eq hfunctional _ hm'
    have hdir := hclosed.nested _ _ m' hget' hpre hne
    exact hkind.mpr (Option.some.inj (hget.symm.trans hdir))

/-- What a copy leaves of a cleared directory when it stops after some entries. -/
theorem exists_copyTreeUntil_entries (hfunctional : t.Functional) (hclosed : t.Closed)
    (hapart : ¬ Comparable src dst) (hway : ∀ q, q <+: dst → t.Passable q)
    (hnone : ∀ rest, t.get (dst ++ rest) = none) (copied : ℕ) (cut : Option β) :
    ∃ t', t.copyTreeUntil src dst (.entries copied cut) = some t' ∧ t'.get dst = some .dir ∧
      ∀ rest, rest ≠ [] → ∀ n, t'.get (dst ++ rest) = some n ↔
        (src ++ rest, n) ∈ t.copiedUntil src (.entries copied cut) ∨ n = .dir ∧
          ∃ e ∈ t.copiedUntil src (.entries copied cut), src ++ rest <+: e.1 ∧ src ++ rest ≠ e.1 := by
  obtain ⟨t₁, hdir⟩ := exists_createDirAll hway
  have hes : CopyList src (t.copiedUntil src (.entries copied cut)) :=
    copyList_copiedUntil hfunctional hclosed _
  have hempty : ∀ rest, rest ≠ [] → t₁.get (dst ++ rest) = none := by
    intro rest hrest
    rw [createDirAll_frame hdir, hnone]
    intro hpre
    have hlength := hpre.length_le
    rw [List.length_append] at hlength
    exact hrest (List.length_eq_zero_iff.mp (by omega))
  obtain ⟨t', hcopy⟩ := exists_foldlM_copyEntry hes (fun q hq => get_createDirAll hdir hq) hempty
  refine ⟨t', ?_, ?_, fun rest hrest => get_foldlM_copyEntry hes hcopy (hempty rest hrest)⟩
  · rw [copyTreeUntil_entries fun h => hapart (Or.inl h), hdir]
    exact hcopy
  · exact (keeps_of_foldlM (fun _ _ _ => copyEntry_keeps) hcopy).dirs dst
      (get_createDirAll hdir (List.prefix_refl dst))

end Lib.FileTree
