import Picloud.Lib.FileTree
import Mathlib.Data.List.Dedup

/-!
# Paths as a file system follows them

A path is a list of names that is followed from the root: the empty name and `.` stay, `..` goes up.
In a closed tree, where what exists lies in a directory, a path of proper names leads to the node of
that path (`walk_of_names`), so the operations on it are those of `FileTree`.
-/

namespace Lib

/-! ## Texts -/

/-- The names between the slashes of a path. -/
def pathNames (text : String) : List String := (text.toList.splitOn '/').map String.ofList

/-- `base.join(text)`: an absolute path replaces the base. -/
def joinPath (base : List String) (text : String) : List String :=
  if text.toList.head? = some '/' then pathNames text else base ++ pathNames text

/-- The name of a node, and not of the directory that it is looked up in or above. -/
def IsName (name : String) : Prop := name ≠ "" ∧ name ≠ "." ∧ name ≠ ".."

instance (name : String) : Decidable (IsName name) :=
  inferInstanceAs (Decidable (name ≠ "" ∧ name ≠ "." ∧ name ≠ ".."))

theorem pathNames_of_notMem {text : String} (h : '/' ∉ text.toList) : pathNames text = [text] := by
  have hsplit : text.toList.splitOn '/' = [text.toList] := by
    rw [List.splitOn, List.splitOnP_eq_singleton]
    intro c hc
    simpa using fun heq : c = '/' => h (heq ▸ hc)
  rw [pathNames, hsplit]
  simp

theorem joinPath_of_notMem {base : List String} {text : String} (h : '/' ∉ text.toList) :
    joinPath base text = base ++ [text] := by
  rw [joinPath, if_neg fun hhead => h (List.mem_of_head? hhead), pathNames_of_notMem h]

/-- A path is read from its names. -/
theorem pathNames_injective : Function.Injective pathNames := by
  intro a b h
  have hlists : a.toList.splitOn '/' = b.toList.splitOn '/' := by
    refine List.map_injective_iff.mpr (fun s s' heq => ?_) h
    simpa using congrArg String.toList heq
  have hall := congrArg (List.intercalate ['/']) hlists
  rw [List.intercalate_splitOn, List.intercalate_splitOn] at hall
  exact String.toList_injective hall

theorem pathNames_slash (a b : String) : pathNames (a ++ "/" ++ b) = pathNames a ++ pathNames b := by
  have hlist : (a ++ "/" ++ b).toList = a.toList ++ '/' :: b.toList := by
    simp [String.toList_append]
  rw [pathNames, hlist, List.splitOn_append_cons_self, List.map_append]
  rfl

namespace FileTree

variable {β : Type}

/-! ## Operations -/

section Operations

variable [DecidableEq β]

/-- There is a node where the path leads. -/
def existsAt (t : FileTree β) (names : List String) : Bool := (t.walk [] names).isSome

/-- Read the file where the path leads. -/
def readAt (t : FileTree β) (names : List String) : Option β :=
  (t.walk [] names).bind fun p =>
    match t.get p with
    | some (.file content) => some content
    | _ => none

/-- Where a file is made: in the directory to which the names before the last one lead. -/
def target (t : FileTree β) (names : List String) : Option Path :=
  names.getLast?.bind fun name =>
    if IsName name then
      (t.walk [] names.dropLast).bind fun p => if t.isDir p then some (p ++ [name]) else none
    else none

/-- Remove the node at a path. -/
def erase (t : FileTree β) (p : Path) : FileTree β := Assoc.erase t p

/-- Remove the file where the path leads. -/
def removeAt (t : FileTree β) (names : List String) : Option (FileTree β) :=
  (t.walk [] names).bind fun p =>
    match t.get p with
    | some (.file _) => some (t.erase p)
    | _ => none

/-- Follow names from a directory and create what is missing. -/
def makeDirs (t : FileTree β) (p : Path) : List String → Option (FileTree β)
  | [] => some t
  | name :: names =>
    if name = "" ∨ name = "." then makeDirs t p names
    else if name = ".." then makeDirs t p.dropLast names
    else (t.createDir (p ++ [name])).bind fun t => makeDirs t (p ++ [name]) names

end Operations

/-! ## Closed trees -/

/-- The root is a directory, and whatever exists lies in a directory. -/
structure Closed (t : FileTree β) : Prop where
  root : t.get [] = some .dir
  parent : ∀ p name, t.get (p ++ [name]) ≠ none → t.get p = some .dir

variable {t t' : FileTree β} {p q : Path} {names : List String}

theorem get_put (t : FileTree β) (p q : Path) (n : Node β) :
    (t.put p n).get q = if q = p then some n else t.get q := by
  by_cases hq : q = p
  · subst hq
    rw [if_pos rfl]
    exact Assoc.get_set_self t q n
  · rw [if_neg hq, get_put_of_ne n hq]

theorem get_erase (t : FileTree β) (p q : Path) :
    (t.erase p).get q = if q = p then none else t.get q := by
  rw [erase, get, Assoc.erase, Assoc.get_filter fun r => decide (r ≠ p)]
  by_cases hq : q = p <;> simp [hq, get]

/-- Above a node there are directories only. -/
theorem Closed.dir_of_get (h : t.Closed) {rest : List String} (hrest : rest ≠ [])
    (hget : t.get (p ++ rest) ≠ none) : t.get p = some .dir := by
  induction rest using List.reverseRecOn with
  | nil => exact absurd rfl hrest
  | append_singleton rest name ih =>
    rw [← List.append_assoc] at hget
    have hdir := h.parent (p ++ rest) name hget
    by_cases hnil : rest = []
    · rwa [hnil, List.append_nil] at hdir
    · exact ih hnil (by rw [hdir]; exact Option.some_ne_none _)

theorem Closed.put (h : t.Closed) {name : String} {n : Node β} (hdir : t.get p = some .dir)
    (hn : t.get (p ++ [name]) ≠ some .dir ∨ n = .dir) : (t.put (p ++ [name]) n).Closed where
  root := by rw [get_put, if_neg (by simp), h.root]
  parent q name' hget := by
    rw [get_put] at hget ⊢
    have hq : t.get q = some .dir := by
      split_ifs at hget with heq
      · obtain ⟨rfl, -⟩ := List.append_inj' heq rfl
        exact hdir
      · exact h.parent q name' hget
    split_ifs with heq
    · subst heq
      rcases hn with hne | rfl
      · exact absurd hq hne
      · rfl
    · exact hq

theorem Closed.erase (h : t.Closed) {content : β} (hfile : t.get p = some (.file content)) :
    (t.erase p).Closed where
  root := by
    rw [get_erase, if_neg, h.root]
    rintro rfl
    rw [h.root] at hfile
    cases hfile
  parent q name hget := by
    rw [get_erase] at hget ⊢
    split_ifs at hget with heq
    · exact absurd rfl hget
    · have hdir := h.parent q name hget
      rw [if_neg, hdir]
      rintro rfl
      rw [hfile] at hdir
      cases hdir

/-! ## Paths of proper names -/

section Names

variable [DecidableEq β]

/-- A path of proper names leads to the node of that path. -/
theorem Closed.walk_of_names (h : t.Closed) (hnames : ∀ name ∈ names, IsName name) :
    t.walk p names = if t.isPresent (p ++ names) then some (p ++ names) else none := by
  induction names generalizing p with
  | nil => rw [walk, List.append_nil]
  | cons name names ih =>
    obtain ⟨hempty, hdot, hdots⟩ := hnames name List.mem_cons_self
    rw [walk, if_neg (not_or.mpr ⟨hempty, hdot⟩), if_neg hdots,
      ih fun n hn => hnames n (List.mem_cons_of_mem name hn), List.append_assoc,
      List.singleton_append]
    split_ifs with hdir hpresent hpresent
    · rfl
    · rfl
    · have hget : t.get (p ++ name :: names) ≠ none :=
        Option.isSome_iff_ne_none.mp (by simpa [isPresent] using hpresent)
      exact absurd (by simpa [isDir] using h.dir_of_get (List.cons_ne_nil _ _) hget) hdir
    · rfl

theorem walk_append (t : FileTree β) (p : Path) (names names' : List String) :
    t.walk p (names ++ names') = (t.walk p names).bind fun q => t.walk q names' := by
  induction names generalizing p with
  | nil =>
    rw [List.nil_append]
    cases hp : t.isPresent p with
    | true => simp [walk, hp]
    | false =>
      have hdir : t.isDir p = false := by
        have hnone : t.get p = none := by simpa [isPresent] using hp
        simp [isDir, hnone]
      cases names' <;> simp [walk, hp, hdir]
  | cons name names ih =>
    rw [List.cons_append]
    simp only [walk]
    split_ifs <;> first | exact ih _ | rfl

variable {name : String}

/-- What is no name leads to a directory. -/
theorem Closed.walk_of_not_isName (h : t.Closed) (hnames : ∀ name ∈ names, IsName name)
    (hdir : t.get names = some .dir) (hname : ¬ IsName name) :
    ∃ q, t.walk [] (names ++ [name]) = some q ∧ t.get q = some .dir := by
  rw [walk_append, h.walk_of_names hnames, List.nil_append, if_pos (by simp [isPresent, hdir]),
    Option.bind_some, walk, if_pos (by simp [isDir, hdir])]
  split_ifs with hstay hup
  · exact ⟨names, by simp [walk, isPresent, hdir], hdir⟩
  · have hparent : t.get names.dropLast = some .dir := by
      rcases List.eq_nil_or_concat' names with rfl | ⟨q, x, rfl⟩
      · exact h.root
      · rw [List.dropLast_concat]
        exact h.parent q x (by rw [hdir]; exact Option.some_ne_none _)
    exact ⟨names.dropLast, by simp [walk, isPresent, hparent], hparent⟩
  · exact absurd ⟨fun heq => hstay (Or.inl heq), fun heq => hstay (Or.inr heq), hup⟩ hname

theorem Closed.readAt_of_not_isName (h : t.Closed) (hnames : ∀ name ∈ names, IsName name)
    (hdir : t.get names = some .dir) (hname : ¬ IsName name) : t.readAt (names ++ [name]) = none := by
  obtain ⟨q, hwalk, hq⟩ := h.walk_of_not_isName hnames hdir hname
  rw [readAt, hwalk, Option.bind_some, hq]

theorem Closed.removeAt_of_not_isName (h : t.Closed) (hnames : ∀ name ∈ names, IsName name)
    (hdir : t.get names = some .dir) (hname : ¬ IsName name) : t.removeAt (names ++ [name]) = none := by
  obtain ⟨q, hwalk, hq⟩ := h.walk_of_not_isName hnames hdir hname
  rw [removeAt, hwalk, Option.bind_some, hq]

theorem Closed.existsAt_of_names (h : t.Closed) (hnames : ∀ name ∈ names, IsName name) :
    t.existsAt names = t.isPresent names := by
  rw [existsAt, h.walk_of_names hnames, List.nil_append]
  cases t.isPresent names <;> rfl

theorem Closed.readAt_of_names (h : t.Closed) (hnames : ∀ name ∈ names, IsName name) :
    t.readAt names = match t.get names with
      | some (.file content) => some content
      | _ => none := by
  rw [readAt, h.walk_of_names hnames, List.nil_append, isPresent]
  cases hget : t.get names with
  | none => rfl
  | some n => simp [hget]

theorem Closed.target_of_names (h : t.Closed) (hnames : ∀ n ∈ names ++ [name], IsName n)
    (hdir : t.get names = some .dir) :
    t.target (names ++ [name]) = some (names ++ [name]) := by
  rw [target, List.getLast?_concat, Option.bind_some,
    if_pos (hnames name (List.mem_append_right _ List.mem_cons_self)), List.dropLast_concat,
    h.walk_of_names fun n hn => hnames n (List.mem_append_left _ hn)]
  simp [isPresent, isDir, hdir]

theorem Closed.removeAt_of_names (h : t.Closed) (hnames : ∀ name ∈ names, IsName name) :
    t.removeAt names = match t.get names with
      | some (.file _) => some (t.erase names)
      | _ => none := by
  rw [removeAt, h.walk_of_names hnames, List.nil_append, isPresent]
  cases hget : t.get names with
  | none => rfl
  | some n => simp [hget]

end Names

/-! ## Listings -/

/-! ## Missing directories -/

/-- What `makeDirs` does: it adds directories on the way to a path. -/
structure DirsAdded (t t' : FileTree β) (p : Path) : Prop where
  closed : t'.Closed
  kept : ∀ q n, t.get q = some n → t'.get q = some n
  added : ∀ q, t.get q = none → t'.get q = none ∨ t'.get q = some .dir ∧ q <+: p
  dir : t'.get p = some .dir

theorem DirsAdded.refl (h : t.Closed) (hdir : t.get p = some .dir) : DirsAdded t t p :=
  ⟨h, fun _ _ hget => hget, fun _ hget => Or.inl hget, hdir⟩

theorem createDir_added {name : String} (h : t.Closed) (hdir : t.get p = some .dir)
    (hmk : t.createDir (p ++ [name]) = some t') : DirsAdded t t' (p ++ [name]) := by
  rw [createDir] at hmk
  split at hmk
  · next hnone =>
    cases hmk
    refine ⟨h.put hdir (Or.inr rfl), fun q n hget => ?_, fun q hget => ?_, ?_⟩
    · rw [get_put, if_neg, hget]
      rintro rfl
      rw [hnone] at hget
      cases hget
    · rw [get_put]
      split_ifs with heq
      · exact Or.inr ⟨rfl, heq ▸ List.prefix_rfl⟩
      · exact Or.inl hget
    · rw [get_put, if_pos rfl]
  · next hsome =>
    cases hmk
    exact DirsAdded.refl h hsome
  · cases hmk

theorem makeDirs_added (h : t.Closed) (hdir : t.get p = some .dir)
    (hnames : ∀ name ∈ names, IsName name) (hmk : t.makeDirs p names = some t') :
    DirsAdded t t' (p ++ names) := by
  induction names generalizing t p with
  | nil =>
    cases hmk
    rw [List.append_nil]
    exact DirsAdded.refl h hdir
  | cons name names ih =>
    obtain ⟨hempty, hdot, hdots⟩ := hnames name List.mem_cons_self
    rw [makeDirs, if_neg (not_or.mpr ⟨hempty, hdot⟩), if_neg hdots] at hmk
    obtain ⟨t₁, hone, hrest⟩ := Option.bind_eq_some_iff.mp hmk
    have hfirst := createDir_added h hdir hone
    have hsecond := ih hfirst.closed hfirst.dir
      (fun n hn => hnames n (List.mem_cons_of_mem name hn)) hrest
    rw [List.append_assoc, List.singleton_append] at hsecond
    have hprefix : p ++ [name] <+: p ++ name :: names :=
      ⟨names, List.append_assoc p [name] names⟩
    refine ⟨hsecond.closed, fun q n hget => hsecond.kept q n (hfirst.kept q n hget),
      fun q hget => ?_, hsecond.dir⟩
    rcases hfirst.added q hget with hnone | ⟨hnew, hq⟩
    · exact hsecond.added q hnone
    · exact Or.inr ⟨hsecond.kept q .dir hnew, hq.trans hprefix⟩

end FileTree

end Lib
