import Picloud.Lib.Assoc
import Mathlib.Data.List.Infix
import Mathlib.Algebra.GroupWithZero.Nat

/-!
# File trees

A file tree lists the nodes that exist, each under its path from the root. Every operation on a path
leaves the paths alone that are neither above nor below it: `frame` lemmas say so, and `interrupted`
stands for an operation that an error has stopped half-way, which may leave anything below its path
and new directories above it.
-/

namespace Lib

/-- The names from the root to a node. -/
abbrev Path := List String

/-- A node of a file tree: there are no symbolic links. -/
inductive Node (β : Type) where
  | dir
  | file (content : β)
deriving DecidableEq

/-- The nodes that exist. -/
abbrev FileTree (β : Type) := Assoc Path (Node β)

/-- One of the two paths leads to the other. -/
def Comparable (p q : Path) : Prop := p <+: q ∨ q <+: p

namespace FileTree

variable {β : Type}

/-- The node at a path. -/
def get (t : FileTree β) (p : Path) : Option (Node β) := Assoc.get t p

/-- There is a node at the path. -/
def isPresent (t : FileTree β) (p : Path) : Bool := (t.get p).isSome

/-- There is a directory at the path. -/
def isDir [DecidableEq β] (t : FileTree β) (p : Path) : Bool := t.get p = some .dir

/-- Set the node at a path. -/
def put (t : FileTree β) (p : Path) (n : Node β) : FileTree β := Assoc.set t p n

/-- Remove the nodes at and below a path. -/
def removeTree (t : FileTree β) (p : Path) : FileTree β := t.filter fun e => ¬ p <+: e.1

/-- Create one directory, unless there is one; a file is in the way. -/
def createDir (t : FileTree β) (p : Path) : Option (FileTree β) :=
  match t.get p with
  | none => some (t.put p .dir)
  | some .dir => some t
  | some (.file _) => none

/-- Create the directories on the way to a path, and the one at the path. -/
def createDirAll (t : FileTree β) (p : Path) : Option (FileTree β) := p.inits.foldlM createDir t

/-- Write a file; a directory is in the way. -/
def writeFile (t : FileTree β) (p : Path) (content : β) : Option (FileTree β) :=
  match t.get p with
  | some .dir => none
  | _ => some (t.put p (.file content))

/-- Copy one node from below one path to below another. -/
def copyEntry (src dst : Path) (t : FileTree β) (e : Path × Node β) : Option (FileTree β) :=
  let target := dst ++ e.1.drop src.length
  match e.2 with
  | .dir => t.createDirAll target
  | .file content => (t.createDirAll (dst ++ (e.1.drop src.length).dropLast)).bind fun t =>
      t.writeFile target content

/-- Copy the directory at one path to another path, into what is there. A directory that is copied
into itself has no end. -/
def copyTree (t : FileTree β) (src dst : Path) : Option (FileTree β) :=
  if src <+: dst then none
  else (t.createDirAll dst).bind fun t' =>
    match t'.get src with
    | some .dir => (t'.filter fun e => src <+: e.1 ∧ src ≠ e.1).foldlM (copyEntry src dst) t'
    | _ => none

/-- What an operation on a path may leave when it is interrupted: anything from the path on, and
new directories on the way to it. -/
def interrupted [DecidableEq β] (t leftover : FileTree β) (p : Path) : FileTree β :=
  leftover.filter (fun e => p <+: e.1 ∨ (e.1 <+: p ∧ e.2 = .dir ∧ t.get e.1 = none)) ++
    t.removeTree p

/-- The names of the directories in a directory. -/
def subdirs (t : FileTree β) (p : Path) : List String :=
  t.filterMap fun
    | (q, .dir) => if q.dropLast = p then q.getLast? else none
    | (_, .file _) => none

/-- The size of the files below a path. -/
def treeSize (size : β → ℕ) (t : FileTree β) (p : Path) : ℕ :=
  ((t.filter fun e => p <+: e.1).map fun e =>
    match e.2 with
    | .dir => 0
    | .file content => size content).sum

/-- Follow names from a path; a directory has itself and its parent as `.` and `..`. -/
def walk [DecidableEq β] (t : FileTree β) : Path → List String → Option Path
  | p, [] => if t.isPresent p then some p else none
  | p, name :: names =>
    if t.isDir p then
      if name = "" ∨ name = "." then walk t p names
      else if name = ".." then walk t p.dropLast names
      else walk t (p ++ [name]) names
    else none

/-! ## Frames -/

variable {t t' : FileTree β} {p q : Path}

theorem get_put_of_ne (n : Node β) (h : q ≠ p) : (t.put p n).get q = t.get q :=
  Assoc.get_set_of_ne t n h

theorem get_removeTree (t : FileTree β) (p q : Path) :
    (t.removeTree p).get q = if p <+: q then none else t.get q := by
  rw [get, removeTree, Assoc.get_filter (fun r => decide (¬ p <+: r))]
  by_cases hp : p <+: q
  · simp [hp]
  · simp [hp, get]

theorem createDir_frame (h : t.createDir p = some t') (hq : q ≠ p) : t'.get q = t.get q := by
  rw [createDir] at h
  split at h
  · cases h
    exact get_put_of_ne .dir hq
  · cases h
    rfl
  · cases h

theorem foldlM_createDir_frame {ps : List Path} (h : ps.foldlM createDir t = some t')
    (hq : q ∉ ps) : t'.get q = t.get q := by
  induction ps generalizing t with
  | nil =>
    cases h
    rfl
  | cons p ps ih =>
    rw [List.foldlM_cons, Option.bind_eq_bind, Option.bind_eq_some_iff] at h
    obtain ⟨t₁, hfirst, hrest⟩ := h
    rw [ih hrest fun hmem => hq (List.mem_cons_of_mem p hmem),
      createDir_frame hfirst fun heq => hq (heq ▸ List.mem_cons_self)]

theorem createDirAll_frame (h : t.createDirAll p = some t') (hq : ¬ q <+: p) : t'.get q = t.get q :=
  foldlM_createDir_frame h fun hmem => hq ((List.mem_inits q p).mp hmem)

theorem writeFile_frame {content : β} (h : t.writeFile p content = some t') (hq : q ≠ p) :
    t'.get q = t.get q := by
  rw [writeFile] at h
  split at h
  · cases h
  · cases h
    exact get_put_of_ne _ hq

theorem comparable_of_isPrefix_append {rest : Path} (h : q <+: p ++ rest) : Comparable p q :=
  List.prefix_or_prefix_of_prefix (List.prefix_append p rest) h

theorem copyEntry_frame {src dst : Path} {e : Path × Node β} (h : copyEntry src dst t e = some t')
    (hq : ¬ Comparable dst q) : t'.get q = t.get q := by
  have hdirs : ∀ rest, ¬ q <+: dst ++ rest := fun rest hpre =>
    hq (comparable_of_isPrefix_append hpre)
  rw [copyEntry] at h
  split at h
  · exact createDirAll_frame h (hdirs _)
  · obtain ⟨t₁, hdir, hfile⟩ := Option.bind_eq_some_iff.mp h
    rw [writeFile_frame hfile, createDirAll_frame hdir (hdirs _)]
    rintro rfl
    exact hq (Or.inl (List.prefix_append _ _))

theorem copyTree_frame {src dst : Path} (h : t.copyTree src dst = some t')
    (hq : ¬ Comparable dst q) : t'.get q = t.get q := by
  have hall : ∀ (es : List (Path × Node β)) (t : FileTree β),
      es.foldlM (copyEntry src dst) t = some t' → t'.get q = t.get q := by
    intro es
    induction es with
    | nil =>
      intro t h
      cases h
      rfl
    | cons e es ih =>
      intro t h
      rw [List.foldlM_cons, Option.bind_eq_bind, Option.bind_eq_some_iff] at h
      obtain ⟨t₁, hfirst, hrest⟩ := h
      rw [ih t₁ hrest, copyEntry_frame hfirst hq]
  rw [copyTree] at h
  split at h
  · cases h
  · obtain ⟨t₁, hdir, hcopy⟩ := Option.bind_eq_some_iff.mp h
    split at hcopy
    · rw [hall _ t₁ hcopy, createDirAll_frame hdir fun hpre => hq (Or.inr hpre)]
    · cases hcopy

theorem removeTree_frame (hq : ¬ Comparable p q) : (t.removeTree p).get q = t.get q := by
  rw [get_removeTree, if_neg fun hpre => hq (Or.inl hpre)]

theorem interrupted_frame [DecidableEq β] {leftover : FileTree β} (hq : ¬ Comparable p q) :
    (t.interrupted leftover p).get q = t.get q := by
  have hnone : ((leftover.filter fun e =>
      p <+: e.1 ∨ (e.1 <+: p ∧ e.2 = .dir ∧ t.get e.1 = none)).find? (·.1 = q)) = none := by
    rw [List.find?_eq_none]
    intro e he heq
    have hmem := (List.mem_filter.mp he).2
    rw [decide_eq_true_eq] at heq hmem
    subst heq
    rcases hmem with hbelow | ⟨habove, -⟩
    · exact hq (Or.inl hbelow)
    · exact hq (Or.inr habove)
  rw [interrupted, get, Assoc.get, List.find?_append, hnone, Option.none_or]
  exact removeTree_frame hq

end FileTree

end Lib
