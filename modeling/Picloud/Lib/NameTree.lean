import Mathlib.Data.List.Nodup
import Mathlib.Data.List.Pairwise

/-!
# Trees of named nodes

The children of a node have names that consist of parts, and the path to a node below is what the names
on the way say, part after part. Different nodes have different paths exactly when, everywhere in the tree,
no two children of a node have the same name, and where the name of a child is the beginning of another's,
no path below it goes on with what is missing and a path below the other (`nodup_paths_iff`).
-/

namespace Lib

/-- A tree, by the children with their names. -/
inductive NameTree (N : Type) where
  | node (children : List (List N × NameTree N))

namespace NameTree

variable {N : Type}

mutual

/-- The paths to the nodes below, one for each. -/
def paths : NameTree N → List (List N)
  | .node children => pathsOf children

/-- The paths to children, and to the nodes below them. -/
def pathsOf : List (List N × NameTree N) → List (List N)
  | [] => []
  | (name, t) :: children => name :: t.paths.map (name ++ ·) ++ pathsOf children

end

/-- The first child's name is the beginning of the second's, and a path below it says what is missing and
then one of the given paths below the second. -/
def Crosses (c d : List N × NameTree N) (below : List (List N)) : Prop :=
  ∃ rest, rest ≠ [] ∧ d.1 = c.1 ++ rest ∧ ∃ y ∈ below, rest ++ y ∈ c.2.paths

/-- The nodes of the two children have different paths. -/
structure Apart (c d : List N × NameTree N) : Prop where
  names : c.1 ≠ d.1
  left : ¬ Crosses c d ([] :: d.2.paths)
  right : ¬ Crosses d c ([] :: c.2.paths)

/-- The children of each node are apart. -/
inductive Clear : NameTree N → Prop
  | node {children : List (List N × NameTree N)} (hchildren : children.Pairwise Apart)
      (hbelow : ∀ c ∈ children, Clear c.2) : Clear (.node children)

/-- No name is empty. -/
inductive Named : NameTree N → Prop
  | node {children : List (List N × NameTree N)} (hnames : ∀ c ∈ children, c.1 ≠ [])
      (hbelow : ∀ c ∈ children, Named c.2) : Named (.node children)

theorem pathsOf_eq (children : List (List N × NameTree N)) :
    pathsOf children = children.flatMap fun c => ([] :: c.2.paths).map (c.1 ++ ·) := by
  induction children with
  | nil => rfl
  | cons c children ih =>
    obtain ⟨name, t⟩ := c
    rw [pathsOf, ih]
    simp

/-- Two children share a path below when one of them crosses the other, if their names differ. -/
theorem disjoint_iff_of_ne {c d : List N × NameTree N} (hne : c.1 ≠ d.1) {xs ys : List (List N)}
    (hxs : ∀ x, x ≠ [] → (x ∈ xs ↔ x ∈ c.2.paths)) (hys : ∀ y, y ≠ [] → (y ∈ ys ↔ y ∈ d.2.paths)) :
    (xs.map (c.1 ++ ·)).Disjoint (ys.map (d.1 ++ ·)) ↔ ¬ Crosses c d ys ∧ ¬ Crosses d c xs := by
  constructor
  · intro h
    constructor
    · rintro ⟨rest, hrest, hname, y, hy, hpath⟩
      refine h (a := d.1 ++ y) (List.mem_map.mpr ⟨rest ++ y, (hxs _ (by simp [hrest])).mpr hpath, ?_⟩)
        (List.mem_map_of_mem hy)
      rw [hname, List.append_assoc]
    · rintro ⟨rest, hrest, hname, x, hx, hpath⟩
      refine h (a := c.1 ++ x) (List.mem_map_of_mem hx)
        (List.mem_map.mpr ⟨rest ++ x, (hys _ (by simp [hrest])).mpr hpath, ?_⟩)
      rw [hname, List.append_assoc]
  · rintro ⟨hleft, hright⟩ a hac had
    obtain ⟨x, hx, rfl⟩ := List.mem_map.mp hac
    obtain ⟨y, hy, heq⟩ := List.mem_map.mp had
    rcases List.append_eq_append_iff.mp heq with ⟨rest, hname, hy'⟩ | ⟨rest, hname, hx'⟩
    · -- the second name is the beginning of the first
      have hrest : rest ≠ [] := fun h => hne (by rw [hname, h, List.append_nil])
      exact hright ⟨rest, hrest, hname, x, hx, (hys _ (by simp [hrest])).mp (hy' ▸ hy)⟩
    · have hrest : rest ≠ [] := fun h => hne (by rw [hname, h, List.append_nil])
      exact hleft ⟨rest, hrest, hname, y, hy, (hxs _ (by simp [hrest])).mp (hx' ▸ hx)⟩

/-- The nodes of two children have different paths when the children are apart. -/
theorem disjoint_iff_apart {c d : List N × NameTree N} :
    ((([] :: c.2.paths).map (c.1 ++ ·)).Disjoint (([] :: d.2.paths).map (d.1 ++ ·))) ↔ Apart c d := by
  by_cases hne : c.1 = d.1
  · have hc : c.1 ∈ ([] :: c.2.paths).map (c.1 ++ ·) := by simp
    have hd : c.1 ∈ ([] :: d.2.paths).map (d.1 ++ ·) := by simp [hne]
    exact ⟨fun h => absurd hd (h hc), fun h => absurd hne h.names⟩
  · rw [disjoint_iff_of_ne hne (fun x hx => by simp [hx]) fun y hy => by simp [hy]]
    exact ⟨fun h => ⟨hne, h.1, h.2⟩, fun h => ⟨h.left, h.right⟩⟩

theorem nil_notMem_paths {t : NameTree N} (h : t.Named) : [] ∉ t.paths := by
  cases h with
  | @node children hnames _ =>
    rw [paths, pathsOf_eq]
    intro hmem
    obtain ⟨c, hc, hmem⟩ := List.mem_flatMap.mp hmem
    obtain ⟨x, -, hx⟩ := List.mem_map.mp hmem
    exact hnames c hc (List.append_eq_nil_iff.mp hx).1

/-- **Different nodes have different paths exactly when all children are apart.** -/
theorem nodup_paths_iff {t : NameTree N} (h : t.Named) : t.paths.Nodup ↔ t.Clear := by
  induction h with
  | @node children hnames hbelow ih =>
    have hown : ∀ c ∈ children, (([] :: c.2.paths).map (c.1 ++ ·)).Nodup ↔ c.2.Clear := fun c hc => by
      rw [List.nodup_map_iff (List.append_right_injective c.1), List.nodup_cons,
        and_iff_right (nil_notMem_paths (hbelow c hc)), ih c hc]
    rw [paths, pathsOf_eq, List.nodup_flatMap]
    constructor
    · rintro ⟨hnodup, hpairwise⟩
      exact .node (hpairwise.imp fun h => disjoint_iff_apart.mp h) fun c hc => (hown c hc).mp (hnodup c hc)
    · rintro ⟨hpairwise, hclear⟩
      exact ⟨fun c hc => (hown c hc).mpr (hclear c hc),
        hpairwise.imp fun h => disjoint_iff_apart.mpr h⟩

end NameTree

end Lib
