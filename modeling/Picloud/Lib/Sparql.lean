import Mathlib.Data.List.Dedup
import Picloud.Lib.Assoc
import Picloud.Lib.Quads

/-!
# SPARQL queries

The algebra of SPARQL over a data set with a default graph and named graphs. A basic pattern or a
property path is a function of the active graph, and `GRAPH` changes which graph is active; filters,
assignments, orderings and groupings are functions of the rows with the values of an expression.

`GraphPattern.Within` says that a pattern looks into one graph only, and `GraphPattern.eval_congr` that
then it has the same solutions on data sets which agree on this graph.
-/

namespace Lib

namespace Sparql

/-! ## Syntax -/

/-- A solution: the values of some variables. -/
abbrev Row := Assoc String Term

/-- What `GRAPH` names: an IRI or a variable. -/
inductive GraphRef where
  | iri (n : NamedNode)
  | var (name : String)

mutual

/-- A graph pattern. -/
inductive GraphPattern where
  /-- Basic patterns and property paths. -/
  | basic (solve : Row → List Triple → List Row)
  | values (rows : List Row)
  | join (l r : GraphPattern)
  | leftJoin (l r : GraphPattern) (condition : Expression)
  | union (l r : GraphPattern)
  | minus (l r : GraphPattern)
  | graph (name : GraphRef) (p : GraphPattern)
  /-- Everything that works on the rows of a pattern. -/
  | table (p : GraphPattern) (e : Expression) (f : List (Row × Option Term) → List Row)
  /-- What the engine does not evaluate. -/
  | fail (message : String)

/-- An expression; an error in it is `none`. -/
inductive Expression where
  | pure (f : Row → Option Term)
  | call (f : Option Term → Option Term → Option Term) (a b : Expression)
  | exists (p : GraphPattern)

end

/-- What becomes of the rows. -/
inductive QueryForm where
  | select (names : List String)
  | ask
  | construct (build : List Row → List Triple)
  /-- The description is taken from the default graph. -/
  | describe (build : List Triple → List Row → List Triple)

/-- A query, with the graphs of `FROM` and of `FROM NAMED` if there are any. -/
structure Query where
  dataset : Option (List NamedNode × List NamedNode)
  pattern : GraphPattern
  form : QueryForm

/-! ## Evaluation -/

/-- A default graph and named graphs. -/
structure Dataset where
  default : List Triple
  named : Assoc NamedNode (List Triple)

/-- A named graph; one that is not there is empty. -/
def Dataset.graph (d : Dataset) (n : NamedNode) : List Triple := (d.named.get n).getD []

/-- Give a variable its value, unless it has another one. -/
def extend (row : Row) (name : String) (t : Term) : Option Row :=
  match row.get name with
  | some t' => if t' = t then some row else none
  | none => some ((name, t) :: row)

/-- Two compatible solutions in one. -/
def merge (row row' : Row) : Option Row :=
  row'.foldl (fun merged b => merged.bind fun m => extend m b.1 b.2) (some row)

/-- The two have a variable in common. -/
def overlaps (row row' : Row) : Bool := row.any fun b => (row'.get b.1).isSome

/-- The literal of a truth value. -/
def boolTerm (b : Bool) : Term :=
  .literal ⟨toString b, "http://www.w3.org/2001/XMLSchema#boolean", none⟩

mutual

/-- The solutions of a pattern that extend a row. -/
def GraphPattern.eval (d : Dataset) (active : List Triple) :
    GraphPattern → Row → Except String (List Row)
  | .basic solve, row => .ok (solve row active)
  | .values rows, row => .ok (rows.filterMap (merge row))
  | .join l r, row => do
    let ls ← l.eval d active row
    let rs ← r.eval d active row
    return ls.flatMap fun a => rs.filterMap (merge a)
  | .leftJoin l r condition, row => do
    let ls ← l.eval d active row
    let rs ← r.eval d active row
    let rows ← ls.mapM fun a => do
      let kept ← (rs.filterMap (merge a)).filterM fun b => do
        return (← condition.eval d active b) == some (boolTerm true)
      return if kept = [] then [a] else kept
    return rows.flatten
  | .union l r, row => do return (← l.eval d active row) ++ (← r.eval d active row)
  | .minus l r, row => do
    let ls ← l.eval d active row
    let rs ← r.eval d active row
    return ls.filter fun a => rs.all fun b => !((merge a b).isSome && overlaps a b)
  | .graph (.iri n) p, row => p.eval d (d.graph n) row
  | .graph (.var name) p, row => do
    let found ← d.named.mapM fun g => match extend row name (.named g.1) with
      | some row => p.eval d g.2 row
      | none => return []
    return found.flatten
  | .table p e f, row => do
    let rows ← p.eval d active row
    let columns ← rows.mapM fun a => do return (a, ← e.eval d active a)
    return f columns
  | .fail message, _ => .error message

/-- The value of an expression for a row. -/
def Expression.eval (d : Dataset) (active : List Triple) :
    Expression → Row → Except String (Option Term)
  | .pure f, row => .ok (f row)
  | .call f a b, row => do return f (← a.eval d active row) (← b.eval d active row)
  | .exists p, row => do return some (boolTerm !(← p.eval d active row).isEmpty)

end

/-- The results of a query. -/
inductive QueryResults where
  | solutions (names : List String) (rows : List Row)
  | boolean (value : Bool)
  | graph (triples : List Triple)

/-- The triples of a graph of a store. -/
def triplesIn (store : Store) (g : GraphName) : List Triple :=
  (store.filter (·.graph = g)).map fun q => ⟨q.subject, q.predicate, q.object⟩

/-- The name of the graph of a quad. -/
def graphOf (q : Quad) : Option NamedNode :=
  match q.graph with
  | .default => none
  | .named n => some n

/-- The data set of a query. -/
def datasetOf (store : Store) : Option (List NamedNode × List NamedNode) → Dataset
  | none => ⟨triplesIn store .default,
      ((store.filterMap graphOf).dedup).map fun n => (n, triplesIn store (.named n))⟩
  | some (defaults, named) => ⟨(defaults.flatMap fun n => triplesIn store (.named n)).dedup,
      named.map fun n => (n, triplesIn store (.named n))⟩

/-- Evaluate a query on a store. -/
def Query.eval (store : Store) (q : Query) : Except String QueryResults := do
  let d := datasetOf store q.dataset
  let rows ← q.pattern.eval d d.default []
  return match q.form with
  | .select names => .solutions names rows
  | .ask => .boolean !rows.isEmpty
  | .construct build => .graph (build rows)
  | .describe build => .graph (build d.default rows)

/-! ## Rows -/

section Rows

variable {row row' merged : Row} {name other : String} {t t' : Term}

theorem get_cons (name other : String) (t : Term) (row : Row) :
    Assoc.get ((other, t) :: row) name = if other = name then some t else Assoc.get row name := by
  unfold Assoc.get
  by_cases h : other = name
  · rw [List.find?_cons_of_pos (by simpa using h), if_pos h]
    rfl
  · rw [List.find?_cons_of_neg (by simpa using h), if_neg h]

/-- A variable keeps its value. -/
theorem get_extend_of_get (h : row.get name = some t) (hextend : extend row other t' = some merged) :
    merged.get name = some t := by
  unfold extend at hextend
  split at hextend
  · split_ifs at hextend
    obtain rfl := Option.some.inj hextend
    exact h
  · next hother =>
    obtain rfl := Option.some.inj hextend
    rw [get_cons, if_neg]
    · exact h
    · rintro rfl
      rw [hother] at h
      cases h

theorem get_merge_of_get (h : row.get name = some t) (hmerge : merge row row' = some merged) :
    merged.get name = some t := by
  unfold merge at hmerge
  -- the fold goes on from a row that has the value, or has failed
  have hfold : ∀ (bindings : List (String × Term)) (start : Option Row),
      (∀ r, start = some r → r.get name = some t) →
        ∀ r, bindings.foldl (fun acc b => acc.bind fun m => extend m b.1 b.2) start = some r →
          r.get name = some t := by
    intro bindings
    induction bindings with
    | nil => exact fun start hstart => hstart
    | cons b bindings ih =>
      intro start hstart
      refine ih _ fun r hr => ?_
      obtain ⟨m, hm, hextend⟩ := Option.bind_eq_some_iff.mp hr
      exact get_extend_of_get (hstart m hm) hextend
  exact hfold row' (some row) (fun r hr => Option.some.inj hr ▸ h) merged hmerge

end Rows

/-! ## Optional patterns -/

/-- `OPTIONAL` without a condition. -/
def GraphPattern.optional (l r : GraphPattern) : GraphPattern := .leftJoin l r (.pure fun _ => some (boolTerm true))

/-- Each solution on the left is merged with those on the right that are compatible, and stays if there are
none. -/
theorem GraphPattern.eval_optional {d : Dataset} {active : List Triple} {l r : GraphPattern} {row : Row}
    {ls rs : List Row} (hl : l.eval d active row = .ok ls) (hr : r.eval d active row = .ok rs) :
    (l.optional r).eval d active row = .ok (ls.flatMap fun a =>
      if rs.filterMap (merge a) = [] then [a] else rs.filterMap (merge a)) := by
  have hcondition : ∀ b : Row, (do
      return (← Expression.eval d active (.pure fun _ => some (boolTerm true)) b) == some (boolTerm true) :
        Except String Bool) = .ok true := by
    intro b
    simp only [Expression.eval]
    rfl
  have haux : ∀ rows kept : List Row, rows.filterAuxM (m := Except String) (fun _ => .ok true) kept =
      .ok (rows.reverse ++ kept) := by
    intro rows
    induction rows with
    | nil => exact fun kept => rfl
    | cons b rows ih =>
      intro kept
      rw [List.reverse_cons, List.append_assoc]
      exact ih (b :: kept)
  have hfilter : ∀ rows : List Row, rows.filterM (m := Except String) (fun _ => .ok true) = .ok rows := by
    intro rows
    rw [List.filterM, haux, List.append_nil]
    exact congrArg Except.ok (List.reverse_reverse rows)
  have hmap : ∀ f : Row → List Row, ∀ rows : List Row,
      rows.mapM (m := Except String) (fun a => .ok (f a)) = .ok (rows.map f) := fun f rows => List.mapM_pure
  simp only [GraphPattern.optional, GraphPattern.eval, hl, hr, hcondition]
  simp only [bind, Except.bind, hfilter, pure, Except.pure, hmap, ← List.flatMap_def]

/-! ## Filters -/

/-! ## Queries that look into one graph -/

mutual

/-- The pattern looks into no graph but one; the flag says that this graph is the active one. -/
def GraphPattern.Within (g : NamedNode) : Bool → GraphPattern → Prop
  | inside, .basic _ => inside = true
  | _, .values _ => True
  | inside, .join l r => l.Within g inside ∧ r.Within g inside
  | inside, .leftJoin l r condition =>
    l.Within g inside ∧ r.Within g inside ∧ condition.Within g inside
  | inside, .union l r => l.Within g inside ∧ r.Within g inside
  | inside, .minus l r => l.Within g inside ∧ r.Within g inside
  | _, .graph (.iri n) p => n = g ∧ p.Within g true
  | _, .graph (.var _) _ => False
  | inside, .table p e _ => p.Within g inside ∧ e.Within g inside
  | _, .fail _ => True

/-- The expression looks into no graph but one. -/
def Expression.Within (g : NamedNode) : Bool → Expression → Prop
  | _, .pure _ => True
  | inside, .call _ a b => a.Within g inside ∧ b.Within g inside
  | inside, .exists p => p.Within g inside

end

/-- The query looks into no graph but one: by its data set, or by its pattern. -/
def Query.ReadsOnly (g : NamedNode) (q : Query) : Prop :=
  match q.dataset with
  | some (defaults, named) => ∀ n ∈ defaults ++ named, n = g
  | none => q.pattern.Within g false ∧ ∀ build, q.form ≠ .describe build

mutual

/-- **A pattern within a graph has the same solutions on data sets that agree on the graph.** -/
theorem GraphPattern.eval_congr {d d' : Dataset} {g : NamedNode} (hd : d.graph g = d'.graph g) :
    ∀ (p : GraphPattern) {inside : Bool} {active active' : List Triple},
      (inside = true → active = active') → p.Within g inside → ∀ row,
        p.eval d active row = p.eval d' active' row
  | .basic _, inside, active, active', hactive, hp, row => by
    rw [hactive hp]
    simp only [GraphPattern.eval]
  | .values _, _, _, _, _, _, row => by simp only [GraphPattern.eval]
  | .join l r, inside, active, active', hactive, hp, row => by
    simp only [GraphPattern.eval, GraphPattern.eval_congr hd l hactive hp.1,
      GraphPattern.eval_congr hd r hactive hp.2]
  | .leftJoin l r condition, inside, active, active', hactive, hp, row => by
    simp only [GraphPattern.eval, GraphPattern.eval_congr hd l hactive hp.1,
      GraphPattern.eval_congr hd r hactive hp.2.1,
      Expression.eval_congr hd condition hactive hp.2.2]
  | .union l r, inside, active, active', hactive, hp, row => by
    simp only [GraphPattern.eval, GraphPattern.eval_congr hd l hactive hp.1,
      GraphPattern.eval_congr hd r hactive hp.2]
  | .minus l r, inside, active, active', hactive, hp, row => by
    simp only [GraphPattern.eval, GraphPattern.eval_congr hd l hactive hp.1,
      GraphPattern.eval_congr hd r hactive hp.2]
  | .graph (.iri n) p, inside, active, active', hactive, hp, row => by
    obtain ⟨rfl, hp⟩ := hp
    simp only [GraphPattern.eval]
    exact GraphPattern.eval_congr hd p (fun _ => hd) hp row
  | .graph (.var _) _, _, _, _, _, hp, _ => hp.elim
  | .table p e _, inside, active, active', hactive, hp, row => by
    simp only [GraphPattern.eval, GraphPattern.eval_congr hd p hactive hp.1,
      Expression.eval_congr hd e hactive hp.2]
  | .fail _, _, _, _, _, _, _ => by simp only [GraphPattern.eval]

theorem Expression.eval_congr {d d' : Dataset} {g : NamedNode} (hd : d.graph g = d'.graph g) :
    ∀ (e : Expression) {inside : Bool} {active active' : List Triple},
      (inside = true → active = active') → e.Within g inside → ∀ row,
        e.eval d active row = e.eval d' active' row
  | .pure _, _, _, _, _, _, row => by simp only [Expression.eval]
  | .call _ a b, inside, active, active', hactive, he, row => by
    simp only [Expression.eval, Expression.eval_congr hd a hactive he.1,
      Expression.eval_congr hd b hactive he.2]
  | .exists p, inside, active, active', hactive, he, row => by
    simp only [Expression.eval, GraphPattern.eval_congr hd p hactive he]

end

/-! ## Queries on stores -/

theorem mem_triplesIn {store : Store} {g : GraphName} {t : Triple} : t ∈ triplesIn store g ↔ t.inGraph g ∈ store := by
  rw [triplesIn, List.mem_map]
  constructor
  · rintro ⟨q, hq, rfl⟩
    obtain ⟨hmem, hgraph⟩ := List.mem_filter.mp hq
    obtain rfl := of_decide_eq_true hgraph
    exact hmem
  · exact fun h => ⟨t.inGraph g, List.mem_filter.mpr ⟨h, decide_eq_true rfl⟩, rfl⟩

theorem triplesIn_eq_nil {store : Store} {n : NamedNode} (h : n ∉ store.filterMap graphOf) :
    triplesIn store (.named n) = [] := by
  rw [triplesIn, List.map_eq_nil_iff, List.filter_eq_nil_iff]
  intro q hq hgraph
  refine h (List.mem_filterMap.mpr ⟨q, hq, ?_⟩)
  rw [graphOf, of_decide_eq_true hgraph]

/-- The named graphs of a data set are those of the store. -/
theorem graph_datasetOf (store : Store) (n : NamedNode) :
    (datasetOf store none).graph n = triplesIn store (.named n) := by
  have hget : ∀ names : List NamedNode,
      Assoc.get (names.map fun n => (n, triplesIn store (.named n))) n =
        if n ∈ names then some (triplesIn store (.named n)) else none := by
    intro names
    induction names with
    | nil => rfl
    | cons m names ih =>
      by_cases hm : m = n
      · simp [Assoc.get, hm]
      · rw [Assoc.get] at ih ⊢
        rw [List.map_cons, List.find?_cons_of_neg (by simpa using hm), ih]
        simp [Ne.symm hm]
  rw [Dataset.graph, datasetOf, hget]
  split
  case isTrue => rfl
  case isFalse h =>
    rw [List.mem_dedup] at h
    rw [triplesIn_eq_nil h]
    rfl

/-- **A query that looks into one graph only has the same results on stores that agree on it.** -/
theorem Query.eval_congr {store store' : Store} {g : NamedNode} {q : Query} (hq : q.ReadsOnly g)
    (h : triplesIn store (.named g) = triplesIn store' (.named g)) :
    q.eval store = q.eval store' := by
  obtain ⟨dataset, pattern, form⟩ := q
  cases dataset with
  | some clause =>
    obtain ⟨defaults, named⟩ := clause
    have hsame : ∀ names : List NamedNode, (∀ n ∈ names, n = g) → ∀ n ∈ names,
        triplesIn store (.named n) = triplesIn store' (.named n) := by
      intro names hnames n hn
      rw [hnames n hn, h]
    have hq : ∀ n ∈ defaults ++ named, n = g := hq
    have hdefaults := hsame defaults fun n hn => hq n (List.mem_append_left _ hn)
    have hnamed := hsame named fun n hn => hq n (List.mem_append_right _ hn)
    have hdataset : datasetOf store (some (defaults, named)) =
        datasetOf store' (some (defaults, named)) := by
      have hpairs : ∀ n ∈ named, (n, triplesIn store (.named n)) = (n, triplesIn store' (.named n)) :=
        fun n hn => by rw [hnamed n hn]
      simp only [datasetOf]
      rw [List.flatMap_congr hdefaults, List.map_congr_left hpairs]
    unfold Query.eval
    rw [hdataset]
  | none =>
    obtain ⟨hpattern, hform⟩ := hq
    have hgraph : (datasetOf store none).graph g = (datasetOf store' none).graph g := by
      rw [graph_datasetOf, graph_datasetOf, h]
    have hrows : pattern.eval (datasetOf store none) (datasetOf store none).default [] =
        pattern.eval (datasetOf store' none) (datasetOf store' none).default [] :=
      GraphPattern.eval_congr hgraph pattern (fun h => absurd h (by decide)) hpattern []
    unfold Query.eval
    dsimp only
    rw [hrows]
    cases form with
    | describe build => exact absurd rfl (hform build)
    | select names => rfl
    | ask => rfl
    | construct build => rfl

end Sparql

end Lib
