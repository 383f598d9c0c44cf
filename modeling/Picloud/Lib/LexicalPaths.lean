import Picloud.Lib.FilePaths

/-!
# Where a path leads, by its text alone

Without links the place where a path leads can be read off its names (`resolve`), whatever the file tree.
The file tree decides only whether one gets there. A path is `Blocked` if no file can ever be where it leads:
its last name is none, or it goes through that place as through a directory.
-/

namespace Lib

/-- One name further. -/
def stepTo (p : Path) (name : String) : Path :=
  if name = "" ∨ name = "." then p else if name = ".." then p.dropLast else p ++ [name]

/-- Where names lead from a place. -/
def resolve (p : Path) (names : List String) : Path := names.foldl stepTo p

section Resolve

variable {p q : Path} {names names' : List String} {name : String}

@[simp] theorem resolve_nil : resolve p [] = p := rfl

@[simp] theorem resolve_cons : resolve p (name :: names) = resolve (stepTo p name) names := rfl

theorem resolve_append : resolve p (names ++ names') = resolve (resolve p names) names' :=
  List.foldl_append ..

theorem stepTo_of_isName (h : IsName name) : stepTo p name = p ++ [name] := by
  rw [stepTo, if_neg (not_or.mpr ⟨h.1, h.2.1⟩), if_neg h.2.2]

/-- Whatever lies above a place has been passed on the way there. -/
theorem exists_resolve_of_isPrefix (h : q <+: resolve [] names) :
    ∃ way, way <+: names ∧ resolve [] way = q := by
  induction names using List.reverseRecOn generalizing q with
  | nil => exact ⟨[], List.prefix_rfl, (List.prefix_nil.mp h).symm⟩
  | append_singleton names name ih =>
    have hearlier : q <+: resolve [] names → ∃ way, way <+: names ++ [name] ∧ resolve [] way = q := by
      intro hq
      obtain ⟨way, hway, rfl⟩ := ih hq
      exact ⟨way, hway.trans (List.prefix_append names [name]), rfl⟩
    rw [resolve_append, resolve_cons, resolve_nil, stepTo] at h
    split_ifs at h with hstay hup
    · exact hearlier h
    · exact hearlier (h.trans (List.dropLast_prefix _))
    · rcases List.prefix_concat_iff.mp h with rfl | hq
      · exact ⟨names ++ [name], List.prefix_rfl, by
          rw [resolve_append, resolve_cons, resolve_nil, stepTo, if_neg hstay, if_neg hup]⟩
      · exact hearlier hq

end Resolve

/-! ## Following a path in a tree -/

namespace FileTree

variable {β : Type} {t t' : FileTree β} {p q : Path} {names : List String}

section Walk

variable [DecidableEq β]

theorem walk_cons {name : String} :
    t.walk p (name :: names) = if t.isDir p then t.walk (stepTo p name) names else none := by
  rw [walk, stepTo]
  split_ifs <;> rfl

/-- One gets to where the text leads, if anywhere. -/
theorem eq_resolve_of_walk (h : t.walk p names = some q) : q = resolve p names := by
  induction names generalizing p with
  | nil =>
    rw [walk] at h
    split_ifs at h
    exact (Option.some.inj h).symm
  | cons name names ih =>
    rw [walk_cons] at h
    split_ifs at h
    exact ih h

/-- On the way there are directories. -/
theorem dir_of_walk (h : t.walk p names = some q) {way : List String} (hway : way <+: names.dropLast)
    (hne : names ≠ []) : t.get (resolve p way) = some .dir := by
  induction names generalizing p way with
  | nil => exact absurd rfl hne
  | cons name names ih =>
    rw [walk_cons] at h
    split_ifs at h with hdir
    cases way with
    | nil => simpa [isDir] using hdir
    | cons first way =>
      have hnames : names ≠ [] := by
        rintro rfl
        exact absurd (List.prefix_nil.mp hway) (List.cons_ne_nil _ _)
      rw [List.dropLast_cons_of_ne_nil hnames, List.cons_prefix_cons] at hway
      obtain ⟨rfl, hway⟩ := hway
      exact ih h hway hnames

/-- Through directories one gets to what is there. -/
theorem walk_of_dirs (hdirs : ∀ way, way <+: names → way ≠ names → t.get (resolve p way) = some .dir)
    (hend : t.isPresent (resolve p names) = true) : t.walk p names = some (resolve p names) := by
  induction names generalizing p with
  | nil => exact if_pos hend
  | cons name names ih =>
    have hdir : t.isDir p = true := by
      simpa [isDir] using hdirs [] List.nil_prefix (List.cons_ne_nil _ _).symm
    rw [walk_cons, if_pos hdir, resolve_cons]
    refine ih (fun way hway hne => ?_) hend
    exact hdirs (name :: way) (List.cons_prefix_cons.mpr ⟨rfl, hway⟩) fun heq => hne (List.cons_inj_right name |>.mp heq)

end Walk

theorem makeDirs_cons {name : String} : t.makeDirs p (name :: names) =
    if IsName name then (t.createDir (p ++ [name])).bind fun t => t.makeDirs (p ++ [name]) names
    else t.makeDirs (stepTo p name) names := by
  rw [makeDirs, stepTo]
  by_cases hstay : name = "" ∨ name = "."
  · rw [if_pos hstay, if_pos hstay, if_neg fun h : IsName name => hstay.elim h.1 h.2.1]
  · rw [if_neg hstay, if_neg hstay]
    by_cases hup : name = ".."
    · rw [if_pos hup, if_pos hup, if_neg fun h : IsName name => h.2.2 hup]
    · rw [if_neg hup, if_neg hup, if_pos ⟨fun h => hstay (Or.inl h), fun h => hstay (Or.inr h), hup⟩]

/-- Where there are directories none has to be made. -/
theorem makeDirs_of_dirs (hdirs : ∀ way, way <+: names → t.get (resolve p way) = some .dir) :
    t.makeDirs p names = some t := by
  induction names generalizing p with
  | nil => rfl
  | cons name names ih =>
    have hrest : t.makeDirs (stepTo p name) names = some t :=
      ih fun way hway => hdirs (name :: way) (List.cons_prefix_cons.mpr ⟨rfl, hway⟩)
    rw [makeDirs_cons]
    split_ifs with hname
    · have hdir : t.get (p ++ [name]) = some .dir := by
        rw [← stepTo_of_isName hname]
        exact hdirs [name] (List.cons_prefix_cons.mpr ⟨rfl, List.nil_prefix⟩)
      rw [createDir, hdir, Option.bind_some, ← stepTo_of_isName hname]
      exact hrest
    · exact hrest

/-! ## What stays as it is -/

/-- Directories stay directories, and files stay files. -/
structure KeepsKinds (t t' : FileTree β) : Prop where
  dir : ∀ p, t.get p = some .dir → t'.get p = some .dir
  file : ∀ p content, t.get p = some (.file content) → ∃ content', t'.get p = some (.file content')

theorem KeepsKinds.refl (t : FileTree β) : KeepsKinds t t := ⟨fun _ h => h, fun _ content h => ⟨content, h⟩⟩

theorem KeepsKinds.trans {t'' : FileTree β} (h : KeepsKinds t t') (h' : KeepsKinds t' t'') :
    KeepsKinds t t'' where
  dir p hp := h'.dir p (h.dir p hp)
  file p content hp := by
    obtain ⟨content', hp'⟩ := h.file p content hp
    exact h'.file p content' hp'

/-- No file is made, changed or removed. -/
def SameFiles (t t' : FileTree β) : Prop :=
  ∀ p content, t'.get p = some (.file content) ↔ t.get p = some (.file content)

theorem SameFiles.refl (t : FileTree β) : SameFiles t t := fun _ _ => Iff.rfl

theorem SameFiles.trans {t'' : FileTree β} (h : SameFiles t t') (h' : SameFiles t' t'') : SameFiles t t'' :=
  fun p content => (h' p content).trans (h p content)

theorem createDir_kinds (h : t.createDir p = some t') : KeepsKinds t t' ∧ SameFiles t t' := by
  rw [createDir] at h
  split at h
  · next hnone =>
    cases h
    refine ⟨⟨fun q hq => ?_, fun q content hq => ⟨content, ?_⟩⟩, fun q content => ?_⟩
    · rw [get_put]
      split_ifs
      · rfl
      · exact hq
    · rw [get_put, if_neg, hq]
      rintro rfl
      rw [hnone] at hq
      cases hq
    · rw [get_put]
      split_ifs with heq
      · subst heq
        simp [hnone]
      · exact Iff.rfl
  · cases h
    exact ⟨KeepsKinds.refl t, SameFiles.refl t⟩
  · cases h

/-- Making directories changes no file. -/
theorem makeDirs_kinds (h : t.makeDirs p names = some t') : KeepsKinds t t' ∧ SameFiles t t' := by
  induction names generalizing t p with
  | nil =>
    cases h
    exact ⟨KeepsKinds.refl _, SameFiles.refl _⟩
  | cons name names ih =>
    rw [makeDirs_cons] at h
    split_ifs at h
    · obtain ⟨t₁, hone, hrest⟩ := Option.bind_eq_some_iff.mp h
      have hfirst := createDir_kinds hone
      have hsecond := ih hrest
      exact ⟨hfirst.1.trans hsecond.1, hfirst.2.trans hsecond.2⟩
    · exact ih h

theorem Closed.dropLast (h : t.Closed) (hdir : t.get p = some .dir) : t.get p.dropLast = some .dir := by
  rcases List.eq_nil_or_concat' p with rfl | ⟨q, name, rfl⟩
  · exact hdir
  · rw [List.dropLast_concat]
    exact h.parent q name (by rw [hdir]; exact Option.some_ne_none _)

/-- Then there are directories all the way. -/
theorem dirs_of_makeDirs (h : t.Closed) (hdir : t.get p = some .dir) (hmk : t.makeDirs p names = some t') :
    t'.Closed ∧ ∀ way, way <+: names → t'.get (resolve p way) = some .dir := by
  induction names generalizing t p with
  | nil =>
    cases hmk
    refine ⟨h, fun way hway => ?_⟩
    rw [List.prefix_nil.mp hway]
    exact hdir
  | cons name names ih =>
    have hkinds := (makeDirs_kinds hmk).1
    have hstep : ∀ {t₁ : FileTree β}, t₁.Closed → t₁.get (stepTo p name) = some .dir →
        t₁.makeDirs (stepTo p name) names = some t' →
        t'.Closed ∧ ∀ way, way <+: name :: names → t'.get (resolve p way) = some .dir := by
      intro t₁ hclosed hfirst hrest
      obtain ⟨hclosed', hdirs⟩ := ih hclosed hfirst hrest
      refine ⟨hclosed', fun way hway => ?_⟩
      cases way with
      | nil => exact hkinds.dir p hdir
      | cons first way =>
        obtain ⟨rfl, htail⟩ := List.cons_prefix_cons.mp hway
        exact hdirs way htail
    rw [makeDirs_cons] at hmk
    split_ifs at hmk with hname
    · obtain ⟨t₁, hone, hrest⟩ := Option.bind_eq_some_iff.mp hmk
      have hadded := createDir_added h hdir hone
      rw [← stepTo_of_isName hname] at hadded hrest
      exact hstep hadded.closed hadded.dir hrest
    · refine hstep h ?_ hmk
      rw [stepTo]
      split_ifs with hstay hup
      · exact hdir
      · exact h.dropLast hdir
      · exact absurd ⟨fun heq => hstay (Or.inl heq), fun heq => hstay (Or.inr heq), hup⟩ hname

variable {content : β} {ways : List (List String)}

theorem writeFile_kinds (h : t.writeFile p content = some t') : KeepsKinds t t' := by
  unfold writeFile at h
  split at h
  · cases h
  · next hdir =>
    cases h
    refine ⟨fun q hq => ?_, fun q content' hq => ?_⟩
    · rw [get_put, if_neg, hq]
      rintro rfl
      exact hdir hq
    · rw [get_put]
      split_ifs
      · exact ⟨content, rfl⟩
      · exact ⟨content', hq⟩

/-! ## Paths on which a file can be -/

/-- A file is made where the text of its path leads. -/
theorem eq_resolve_of_target [DecidableEq β] (h : t.target names = some p) :
    p = resolve [] names ∧ ∃ name, names.getLast? = some name ∧ IsName name := by
  obtain ⟨name, hlast, h⟩ := Option.bind_eq_some_iff.mp h
  split_ifs at h with hname
  obtain ⟨dir, hwalk, h⟩ := Option.bind_eq_some_iff.mp h
  split_ifs at h
  cases h
  obtain ⟨before, rfl⟩ := List.getLast?_eq_some_iff.mp hlast
  rw [List.dropLast_concat] at hwalk
  rw [eq_resolve_of_walk hwalk, resolve_append, resolve_cons, resolve_nil, stepTo_of_isName hname]
  exact ⟨rfl, name, hlast, hname⟩

/-- The names cannot lead to a file once there are directories on some ways: the last one is no name, or one of
the ways goes through the place. -/
def Blocked (ways : List (List String)) (names : List String) : Prop :=
  (∀ name, names.getLast? = some name → ¬ IsName name) ∨
    ∃ through ∈ names.dropLast :: ways, ∃ way, way <+: through ∧ resolve [] way = resolve [] names

/-- A tree with directories on all ways, and a file in one place. -/
def treeWithFile (ways : List (List String)) (p : Path) (content : β) : FileTree β :=
  (p, .file content) :: (ways.flatMap List.inits).map fun way => (resolve [] way, .dir)

theorem get_treeWithFile_self :
    (treeWithFile ways p content).get p = some (.file content) := by
  rw [FileTree.get, treeWithFile, Assoc.get, List.find?_cons_of_pos (by simp)]
  rfl

/-- Apart from the file there are the directories on the ways. -/
theorem get_treeWithFile_of_ne (hq : q ≠ p) {n : Node β} :
    (treeWithFile ways p content).get q = some n ↔
      n = .dir ∧ ∃ through ∈ ways, ∃ way, way <+: through ∧ resolve [] way = q := by
  rw [FileTree.get, treeWithFile, Assoc.get, List.find?_cons_of_neg (by simpa using Ne.symm hq)]
  constructor
  · intro h
    obtain ⟨e, he, rfl⟩ := Option.map_eq_some_iff.mp h
    obtain ⟨way, hmem, rfl⟩ := List.mem_map.mp (List.mem_of_find?_eq_some he)
    obtain ⟨through, hthrough, hinit⟩ := List.mem_flatMap.mp hmem
    exact ⟨rfl, through, hthrough, way, (List.mem_inits _ _).mp hinit, by simpa using List.find?_some he⟩
  · rintro ⟨rfl, through, hthrough, way, hprefix, rfl⟩
    have hsome : (((ways.flatMap List.inits).map fun way => ((resolve [] way, .dir) : Path × Node β)).find?
        (·.1 = resolve [] way)).isSome :=
      List.find?_isSome.mpr ⟨(resolve [] way, .dir), List.mem_map.mpr
        ⟨way, List.mem_flatMap.mpr ⟨through, hthrough, (List.mem_inits _ _).mpr hprefix⟩, rfl⟩, by simp⟩
    obtain ⟨e, he⟩ := Option.isSome_iff_exists.mp hsome
    obtain ⟨way', -, rfl⟩ := List.mem_map.mp (List.mem_of_find?_eq_some he)
    rw [he, Option.map_some]

/-- It is a file tree, if no way goes through the file and the file lies on the end of one. -/
theorem closed_treeWithFile (through : List String) {name : String} (hthrough : through ∈ ways)
    (hp : p = resolve [] through ++ [name])
    (hfree : ∀ through ∈ ways, ∀ way, way <+: through → resolve [] way ≠ p) :
    (treeWithFile ways p content).Closed where
  root := (get_treeWithFile_of_ne (by simp [hp])).mpr ⟨rfl, through, hthrough, [], List.nil_prefix, rfl⟩
  parent q last hget := by
    by_cases hlast : q ++ [last] = p
    · obtain ⟨rfl, -⟩ := List.append_inj' (hlast.trans hp) rfl
      exact (get_treeWithFile_of_ne (hfree through hthrough through List.prefix_rfl)).mpr
        ⟨rfl, through, hthrough, through, List.prefix_rfl, rfl⟩
    · obtain ⟨n, hn⟩ := Option.ne_none_iff_exists'.mp hget
      obtain ⟨-, other, hother, way, hway, heq⟩ := (get_treeWithFile_of_ne hlast).mp hn
      obtain ⟨way', hway', rfl⟩ := exists_resolve_of_isPrefix (heq ▸ List.prefix_append q [last])
      exact (get_treeWithFile_of_ne (hfree other hother way' (hway'.trans hway))).mpr
        ⟨rfl, other, hother, way', hway'.trans hway, rfl⟩

/-- There are directories on all ways and on the way of the names, and a file where the names lead. -/
structure Ready (t : FileTree β) (ways : List (List String)) (names : List String) : Prop where
  dirs : ∀ through ∈ names.dropLast :: ways, ∀ way, way <+: through → t.get (resolve [] way) = some .dir
  file : ∃ content, t.get (resolve [] names) = some (.file content)
  name : ∃ name, names.getLast? = some name ∧ IsName name

section Ready

variable {ways : List (List String)}

theorem Ready.mono (h : t.Ready ways names) (hkinds : KeepsKinds t t') : t'.Ready ways names where
  dirs through hthrough way hway := hkinds.dir _ (h.dirs through hthrough way hway)
  file := by
    obtain ⟨content, hcontent⟩ := h.file
    exact hkinds.file _ content hcontent
  name := h.name

/-- What is not blocked can be ready. -/
theorem exists_ready (h : ¬ Blocked ways names) (content : β) :
    ∃ t : FileTree β, t.Closed ∧ t.Ready ways names ∧ t.get (resolve [] names) = some (.file content) := by
  obtain ⟨hsome, hfree⟩ := not_or.mp h
  obtain ⟨name, hlast, hname⟩ : ∃ name, names.getLast? = some name ∧ IsName name := by
    simpa using hsome
  have hfree' : ∀ through ∈ names.dropLast :: ways, ∀ way, way <+: through →
      resolve [] way ≠ resolve [] names := fun through hthrough way hway heq =>
    hfree ⟨through, hthrough, way, hway, heq⟩
  obtain ⟨before, rfl⟩ := List.getLast?_eq_some_iff.mp hlast
  have hp : resolve [] (before ++ [name]) = resolve [] before ++ [name] := by
    rw [resolve_append, resolve_cons, resolve_nil, stepTo_of_isName hname]
  refine ⟨treeWithFile ((before ++ [name]).dropLast :: ways) (resolve [] (before ++ [name])) content,
    closed_treeWithFile before (by simp) hp hfree', ⟨fun through hthrough way hway => ?_,
      ⟨content, get_treeWithFile_self⟩, name, hlast, hname⟩, get_treeWithFile_self⟩
  exact (get_treeWithFile_of_ne (hfree' through hthrough way hway)).mpr
    ⟨rfl, through, hthrough, way, hway, rfl⟩

theorem Ready.makeDirs (h : t.Ready ways names) {through : List String}
    (hthrough : through ∈ names.dropLast :: ways) : t.makeDirs [] through = some t :=
  makeDirs_of_dirs (h.dirs through hthrough)

variable [DecidableEq β]

theorem Ready.writeAt (h : t.Ready ways names) (content : β) :
    t.target names = some (resolve [] names) ∧
      ∃ t', t.writeFile (resolve [] names) content = some t' ∧ KeepsKinds t t' := by
  obtain ⟨name, hlast, hname⟩ := h.name
  obtain ⟨old, hold⟩ := h.file
  refine ⟨?_, t.put (resolve [] names) (.file content), by rw [writeFile, hold], ?_⟩
  · have hdirs := h.dirs _ List.mem_cons_self
    have hend := hdirs _ List.prefix_rfl
    have hwalk := walk_of_dirs (fun way hway _ => hdirs way hway)
      (by rw [isPresent, hend]; rfl : t.isPresent (resolve [] names.dropLast) = true)
    obtain ⟨before, rfl⟩ := List.getLast?_eq_some_iff.mp hlast
    rw [List.dropLast_concat] at hwalk hend
    rw [target, hlast, Option.bind_some, if_pos hname, List.dropLast_concat, hwalk, Option.bind_some,
      if_pos (by simpa [isDir] using hend), resolve_append, resolve_cons, resolve_nil, stepTo_of_isName hname]
  · exact writeFile_kinds (by rw [writeFile, hold])

theorem Ready.walk (h : t.Ready ways names) : t.walk [] names = some (resolve [] names) := by
  obtain ⟨name, hlast, -⟩ := h.name
  obtain ⟨content, hcontent⟩ := h.file
  refine walk_of_dirs (fun way hway hne => h.dirs _ List.mem_cons_self way ?_) (by rw [isPresent, hcontent]; rfl)
  obtain ⟨before, rfl⟩ := List.getLast?_eq_some_iff.mp hlast
  rw [List.dropLast_concat]
  exact (List.prefix_concat_iff.mp hway).resolve_left hne

end Ready

/-- Where a path is blocked no file is written. -/
theorem writeFile_eq_none_of_blocked [DecidableEq β] (h : Blocked ways names)
    (hdirs : ∀ through ∈ ways, ∀ way, way <+: through → t.get (resolve [] way) = some .dir)
    (htarget : t.target names = some p) (content : β) : t.writeFile p content = none := by
  obtain ⟨rfl, name, hlast, hname⟩ := eq_resolve_of_target htarget
  rcases h with hno | ⟨through, hthrough, way, hway, heq⟩
  · exact absurd hname (hno name hlast)
  · have hdir : t.get (resolve [] way) = some .dir := by
      rcases List.mem_cons.mp hthrough with rfl | hthrough
      · rw [target, hlast, Option.bind_some, if_pos hname] at htarget
        obtain ⟨dir, hwalk, hrest⟩ := Option.bind_eq_some_iff.mp htarget
        split_ifs at hrest with hisDir
        obtain ⟨before, rfl⟩ := List.getLast?_eq_some_iff.mp hlast
        rw [List.dropLast_concat] at hwalk hway
        rcases List.eq_nil_or_concat' before with rfl | ⟨start, last, rfl⟩
        · rw [List.prefix_nil.mp hway, ← eq_resolve_of_walk hwalk]
          simpa [isDir] using hisDir
        · rcases List.prefix_concat_iff.mp hway with rfl | hway
          · rw [← eq_resolve_of_walk hwalk]
            simpa [isDir] using hisDir
          · exact dir_of_walk hwalk (by rwa [List.dropLast_concat]) (by simp)
      · exact hdirs through hthrough way hway
    rw [heq] at hdir
    rw [writeFile, hdir]

/-- Nor is there one to read. -/
theorem get_ne_file_of_blocked [DecidableEq β] (h : t.Closed) (hblocked : Blocked [] names)
    (hwalk : t.walk [] names = some p) (content : β) : t.get p ≠ some (.file content) := by
  intro hfile
  obtain rfl := eq_resolve_of_walk hwalk
  have hne : names ≠ [] := by
    rintro rfl
    rw [resolve_nil, h.root] at hfile
    cases hfile
  obtain ⟨name, hlast⟩ : ∃ name, names.getLast? = some name := ⟨_, List.getLast?_eq_some_getLast hne⟩
  rcases hblocked with hno | ⟨through, hthrough, way, hway, heq⟩
  · obtain ⟨before, rfl⟩ := List.getLast?_eq_some_iff.mp hlast
    have hdir : t.get (resolve [] before) = some .dir :=
      dir_of_walk hwalk (by rw [List.dropLast_concat]) hne
    rw [resolve_append, resolve_cons, resolve_nil, stepTo] at hfile
    split_ifs at hfile with hstay hup
    · rw [hdir] at hfile
      cases hfile
    · rw [h.dropLast hdir] at hfile
      cases hfile
    · exact hno name hlast ⟨fun heq => hstay (Or.inl heq), fun heq => hstay (Or.inr heq), hup⟩
  · rw [List.mem_singleton.mp hthrough] at hway
    have hdir := dir_of_walk hwalk hway hne
    rw [heq, hfile] at hdir
    cases hdir

end FileTree

end Lib
