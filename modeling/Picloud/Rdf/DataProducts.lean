import Picloud.Lib.Pool
import Picloud.Lib.Quads

/-!
# Refreshing a data product

Reference: `refresh_projection` of `picloud-rdf/src/data_product.rs`.

A refresh evaluates the CONSTRUCT query, makes sure that the graph exists and replaces its triples in
one transaction. The three are steps of a task, and the source graphs are updated between them. A
refresh that is overtaken by one that has read more puts older triples back; in a run without that the
graph follows the source states in their order (`refresh_in_order`). The query engine is a parameter,
and whether the store refuses a step is part of the call.
-/

namespace Picloud

open Lib

/-! ## The refresh -/

/-- `QueryResults`. -/
inductive QueryResults where
  | graph (triples : List (Except String Triple))
  | solutions
  | boolean

/-- `PiCloudError`, as far as a refresh raises it. -/
inductive RefreshError where
  | internal (message : String)
  | resourceValidationFailed (reason : String)
deriving DecidableEq

/-- A data product, and what the query engine finds for its query. -/
structure DataProduct where
  iri : String
  query : Lib.Store → Except String QueryResults

namespace DataProduct

variable (product : DataProduct)

/-- `data_product_graph`. -/
def graph : GraphName := .named ⟨product.iri ++ "/graph"⟩

/-- What the store holds beside the graph of the data product. -/
def sourcePart (s : Lib.Store) : Lib.Store := s.removeIf fun q => q.graph = product.graph

/-- The triples of a result, unless there is an error among them. -/
def collectTriples : List (Except String Triple) → Except RefreshError (List Triple)
  | [] => .ok []
  | .error e :: _ => .error (.internal ("CONSTRUCT result error: " ++ e))
  | .ok triple :: rest => (collectTriples rest).map fun triples => triple :: triples

/-- Execute the query. -/
def evaluate (s : Lib.Store) : Except RefreshError (List Triple) :=
  match product.query s with
  | .error e => .error (.internal ("CONSTRUCT query failed: " ++ e))
  | .ok (.graph triples) => collectTriples triples
  | .ok .solutions | .ok .boolean =>
    .error (.resourceValidationFailed "refresh_projection requires a CONSTRUCT query")

/-- The transaction: clear the graph and insert the triples. -/
def swap (triples : List Triple) (s : Lib.Store) : Lib.Store :=
  triples.foldl (fun s triple => s.insert (triple.inGraph product.graph))
    (s.removeIf fun q => q.graph = product.graph)

end DataProduct

/-! ## Concurrent refreshes -/

/-- A swap: what was inserted, which source state it was read from, and how many there were. -/
structure Swapped where
  triples : List Triple
  read : ℕ
  present : ℕ
deriving DecidableEq

/-- The store, the source states that it has had and the swaps. -/
structure ProjectedStore where
  store : Lib.Store
  sources : List Lib.Store
  swaps : List Swapped

/-- A call, and the errors with which the store answers it. -/
structure RefreshCall where
  graphError : Option String
  swapError : Option String
deriving DecidableEq

/-- The steps of a refresh that are still to come; `read` is the number of the source state. -/
inductive Refresh where
  | query (call : RefreshCall)
  | nameGraph (call : RefreshCall) (triples : List Triple) (read : ℕ)
  | swap (call : RefreshCall) (triples : List Triple) (read : ℕ)
  | done (result : Except RefreshError ℕ) (read : ℕ)
deriving DecidableEq

/-- One step of a refresh. -/
def refreshStep (product : DataProduct) (s : ProjectedStore) :
    Refresh → Option (ProjectedStore × Refresh)
  | .query call =>
    match product.evaluate s.store with
    | .ok triples => some (s, .nameGraph call triples (s.sources.length - 1))
    | .error e => some (s, .done (.error e) (s.sources.length - 1))
  | .nameGraph call triples read =>
    match call.graphError with
    | none => some (s, .swap call triples read)
    | some e => some (s, .done (.error (.internal e)) read)
  | .swap call triples read =>
    match call.swapError with
    | none => some ({ s with
        store := product.swap triples s.store
        swaps := s.swaps ++ [⟨triples, read, s.sources.length⟩] }, .done (.ok triples.length) read)
    | some e => some (s, .done (.error (.internal ("atomic swap failed: " ++ e))) read)
  | .done _ _ => none

/-- The source graphs get new quads, or a refresh goes on. -/
inductive RefreshAct where
  | update (quads : Lib.Store)
  | act (a : Pool.Act RefreshCall)

/-- An update of the source graphs. -/
def ProjectedStore.update (product : DataProduct) (s : ProjectedStore) (quads : Lib.Store) :
    ProjectedStore where
  store := (s.store.filter fun q => q.graph = product.graph) ++ product.sourcePart quads
  sources := s.sources ++ [product.sourcePart quads]
  swaps := s.swaps

/-- One action. -/
def refreshNext (product : DataProduct) (p : Pool ProjectedStore Refresh) :
    RefreshAct → Option (Pool ProjectedStore Refresh)
  | .update quads => some ⟨p.shared.update product quads, p.tasks⟩
  | .act a => Pool.next Refresh.query (refreshStep product) p a

/-- A store before the first refresh. -/
def ProjectedStore.start (product : DataProduct) (s : Lib.Store) : ProjectedStore :=
  ⟨s, [product.sourcePart s], []⟩

/-! ## What is claimed, and the condition -/

/-- The graph of the data product holds exactly these triples. -/
def GraphIs (product : DataProduct) (s : Lib.Store) (triples : List Triple) : Prop :=
  ∀ q, q.graph = product.graph → (q ∈ s ↔ ∃ triple ∈ triples, q = triple.inGraph product.graph)

/-- What is claimed of a state: the swaps can be given source states in their order, the graph is
that of the last one, and is that of the present source state as soon as a refresh has returned that has
read it. -/
structure NeverBack (product : DataProduct) (start : Lib.Store) (p : Pool ProjectedStore Refresh) :
    Prop where
  inOrder : ∃ versions : List ℕ, versions.length = p.shared.swaps.length ∧ versions.Pairwise (· ≤ ·) ∧
    ∀ (i : ℕ) s v, p.shared.swaps[i]? = some s → versions[i]? = some v → v < s.present ∧
      ∃ source, p.shared.sources[v]? = some source ∧ product.evaluate source = .ok s.triples
  untouched : p.shared.swaps = [] → ∀ q, q.graph = product.graph → (q ∈ p.shared.store ↔ q ∈ start)
  last : ∀ s, p.shared.swaps.getLast? = some s → GraphIs product p.shared.store s.triples
  fresh : ∀ n read, .done (.ok n) read ∈ p.tasks → read + 1 = p.shared.sources.length →
    ∃ source triples, p.shared.sources.getLast? = some source ∧
      product.evaluate source = .ok triples ∧ GraphIs product p.shared.store triples

/-- What is claimed of a schedule. A step of a refresh that does not return `Ok` leaves the store. -/
def RefreshesForward (product : DataProduct) (start : Lib.Store) (acts : List RefreshAct) : Prop :=
  (∀ p, runSteps (refreshNext product) ⟨.start product start, []⟩ acts = some p →
    NeverBack product start p) ∧
  ∀ s task s' task', refreshStep product s task = some (s', task') →
    (∀ n read, task' ≠ .done (.ok n) read) → s'.store = s.store

/-- When a refresh swaps, the graph holds nothing that was read from a later source state. -/
def SwapsInOrder (p : Pool ProjectedStore Refresh) : RefreshAct → Prop
  | .act (.step i) =>
    match p.tasks[i]? with
    | some (.swap call _ read) =>
      call.swapError = none → ∀ s ∈ p.shared.swaps.getLast?, s.read ≤ read
    | _ => True
  | _ => True

instance (p : Pool ProjectedStore Refresh) (a : RefreshAct) : Decidable (SwapsInOrder p a) :=
  match a with
  | .act (.step i) =>
    match h : p.tasks[i]? with
    | some (.swap call _ read) =>
      decidable_of_iff (call.swapError = none → ∀ s ∈ p.shared.swaps.getLast?.toList, s.read ≤ read)
        (by simp [SwapsInOrder, h])
    | some (.query _) | some (.nameGraph ..) | some (.done ..) | none =>
      isTrue (by simp [SwapsInOrder, h])
  | .act (.call _) | .update _ => isTrue trivial

/-! ## The invariant -/

/-- The triples are what the query finds in a source state. -/
def ReadFrom (product : DataProduct) (s : ProjectedStore) (triples : List Triple) (read : ℕ) : Prop :=
  ∃ source, s.sources[read]? = some source ∧ product.evaluate source = .ok triples

/-- What a refresh relies on. -/
def Refresh.Sound (product : DataProduct) (s : ProjectedStore) : Refresh → Prop
  | .query _ => True
  | .nameGraph _ triples read | .swap _ triples read => ReadFrom product s triples read
  | .done (.ok _) read => ∃ w ∈ s.swaps, read ≤ w.read
  | .done (.error _) _ => True

/-- The swaps were read in order, and the graph is that of the last one. -/
structure Projected (product : DataProduct) (start : Lib.Store) (s : ProjectedStore) : Prop where
  present : s.sources.getLast? = some (product.sourcePart s.store)
  reads : s.swaps.Pairwise fun a b => a.read ≤ b.read
  swaps : ∀ w ∈ s.swaps, w.read < w.present ∧ ReadFrom product s w.triples w.read
  untouched : s.swaps = [] → ∀ q, q.graph = product.graph → (q ∈ s.store ↔ q ∈ start)
  last : ∀ w, s.swaps.getLast? = some w → GraphIs product s.store w.triples

section Lemmas

variable {product : DataProduct} {start : Lib.Store} {s s' : ProjectedStore}

variable {triples : List Triple} {task : Refresh}

theorem mem_swap {store : Lib.Store} {q : Quad} :
    q ∈ product.swap triples store ↔
      q ∈ product.sourcePart store ∨ ∃ triple ∈ triples, q = triple.inGraph product.graph := by
  have hfold : ∀ (ts : List Triple) (r : Lib.Store),
      q ∈ ts.foldl (fun s triple => s.insert (triple.inGraph product.graph)) r ↔
        q ∈ r ∨ ∃ triple ∈ ts, q = triple.inGraph product.graph := by
    intro ts
    induction ts with
    | nil => simp
    | cons t ts ih =>
      intro r
      rw [List.foldl_cons, ih, Store.mem_insert, List.exists_mem_cons_iff, or_assoc]
  exact hfold triples _

theorem sourcePart_sourcePart (store : Lib.Store) :
    product.sourcePart (product.sourcePart store) = product.sourcePart store := by
  simp [DataProduct.sourcePart, Store.removeIf, List.filter_filter]

/-- A swap leaves the source graphs. -/
theorem sourcePart_swap (triples : List Triple) (store : Lib.Store) :
    product.sourcePart (product.swap triples store) = product.sourcePart store := by
  have hinsert : ∀ (t : Triple) (r : Lib.Store),
      product.sourcePart (r.insert (t.inGraph product.graph)) = product.sourcePart r := by
    intro t r
    rw [Store.insert]
    split_ifs
    · rfl
    · simp [DataProduct.sourcePart, Store.removeIf, Triple.inGraph]
  have hfold : ∀ (ts : List Triple) (r : Lib.Store),
      product.sourcePart (ts.foldl (fun s triple => s.insert (triple.inGraph product.graph)) r) =
        product.sourcePart r := by
    intro ts
    induction ts with
    | nil => exact fun r => rfl
    | cons t ts ih => exact fun r => (ih _).trans (hinsert t r)
  rw [DataProduct.swap, hfold]
  exact sourcePart_sourcePart store

/-- A swap makes the graph hold its triples. -/
theorem graphIs_swap (triples : List Triple) (store : Lib.Store) :
    GraphIs product (product.swap triples store) triples := by
  intro q hq
  rw [mem_swap]
  refine ⟨fun h => h.resolve_left fun hsource => ?_, Or.inr⟩
  simp [DataProduct.sourcePart, hq] at hsource

/-- An update leaves the graph of the data product. -/
theorem mem_update {quads : Lib.Store} {q : Quad} (hq : q.graph = product.graph) :
    q ∈ (s.update product quads).store ↔ q ∈ s.store := by
  simp [ProjectedStore.update, DataProduct.sourcePart, hq]

theorem ReadFrom.update {read : ℕ} {quads : Lib.Store} (h : ReadFrom product s triples read) :
    ReadFrom product (s.update product quads) triples read := by
  obtain ⟨source, hget, heval⟩ := h
  refine ⟨source, ?_, heval⟩
  exact (List.getElem?_append_left (List.getElem?_eq_some_iff.mp hget).1).trans hget

theorem projected_start : Projected product start (.start product start) where
  present := rfl
  reads := List.Pairwise.nil
  swaps _ hw := absurd hw List.not_mem_nil
  untouched _ _ _ := Iff.rfl
  last _ hw := nomatch hw

theorem Projected.update (h : Projected product start s) (quads : Lib.Store) :
    Projected product start (s.update product quads) where
  present := by
    have hsource : product.sourcePart (s.update product quads).store = product.sourcePart quads := by
      rw [ProjectedStore.update, DataProduct.sourcePart, Store.removeIf, List.filter_append,
        List.filter_filter]
      have hnone : ∀ q : Quad, (!decide (q.graph = product.graph) && decide (q.graph = product.graph)) =
          false := fun q => by cases decide (q.graph = product.graph) <;> rfl
      simp only [hnone, List.filter_false, List.nil_append]
      exact sourcePart_sourcePart quads
    rw [hsource]
    exact List.getLast?_concat
  reads := h.reads
  swaps w hw := ⟨(h.swaps w hw).1, (h.swaps w hw).2.update⟩
  untouched hnil q hq := (mem_update hq).trans (h.untouched hnil q hq)
  last w hw q hq := (mem_update hq).trans (h.last w hw q hq)

/-- The last of the swaps was read last. -/
theorem read_le_last {swaps : List Swapped} {v w : Swapped}
    (h : swaps.Pairwise fun a b => a.read ≤ b.read) (hv : v ∈ swaps)
    (hw : swaps.getLast? = some w) : v.read ≤ w.read := by
  obtain ⟨init, rfl⟩ := List.getLast?_eq_some_iff.mp hw
  rcases List.mem_append.mp hv with hinit | hlast
  · exact (List.pairwise_append.mp h).2.2 v hinit w List.mem_cons_self
  · rw [List.mem_singleton.mp hlast]

/-- A swap of triples that were read no earlier than the last ones. -/
theorem Projected.swapped (h : Projected product start s) {read : ℕ}
    (hread : ReadFrom product s triples read) (horder : ∀ w ∈ s.swaps.getLast?, w.read ≤ read) :
    Projected product start { s with
      store := product.swap triples s.store
      swaps := s.swaps ++ [⟨triples, read, s.sources.length⟩] } where
  present := by
    dsimp only
    rw [sourcePart_swap]
    exact h.present
  reads := by
    refine List.pairwise_append.mpr ⟨h.reads, List.pairwise_singleton _ _, fun a ha b hb => ?_⟩
    rw [List.mem_singleton.mp hb]
    obtain ⟨w, hw⟩ := Option.isSome_iff_exists.mp (List.getLast?_isSome.mpr (List.ne_nil_of_mem ha))
    exact (read_le_last h.reads ha hw).trans (horder w hw)
  swaps w hw := by
    rcases List.mem_append.mp hw with hold | hnew
    · exact h.swaps w hold
    · rw [List.mem_singleton.mp hnew]
      obtain ⟨source, hget, heval⟩ := hread
      exact ⟨(List.getElem?_eq_some_iff.mp hget).1, source, hget, heval⟩
  untouched hnil := by simp at hnil
  last w hw := by
    rw [List.getLast?_concat] at hw
    rw [← Option.some.inj hw]
    exact graphIs_swap triples s.store

/-- What a query finds lies in the source graphs, so it is found in the present source state. -/
theorem readFrom_present (hsource : ∀ r r', product.sourcePart r = product.sourcePart r' →
      product.query r = product.query r') (h : Projected product start s)
    (heval : product.evaluate s.store = .ok triples) :
    ReadFrom product s triples (s.sources.length - 1) := by
  refine ⟨product.sourcePart s.store, ?_, ?_⟩
  · rw [← List.getLast?_eq_getElem?]
    exact h.present
  · rw [← heval, DataProduct.evaluate, DataProduct.evaluate,
      hsource _ _ (sourcePart_sourcePart s.store)]

/-- What a refresh relies on is kept while source states and swaps are added. -/
theorem Refresh.Sound.mono (h : task.Sound product s) (hsources : s.sources <+: s'.sources)
    (hswaps : s.swaps <+: s'.swaps) :
    task.Sound product s' := by
  have hread : ∀ {triples : List Triple} {read : ℕ}, ReadFrom product s triples read →
      ReadFrom product s' triples read := by
    rintro triples read ⟨source, hget, heval⟩
    obtain ⟨more, hmore⟩ := hsources
    refine ⟨source, ?_, heval⟩
    rw [← hmore]
    exact (List.getElem?_append_left (List.getElem?_eq_some_iff.mp hget).1).trans hget
  cases task with
  | query call => trivial
  | nameGraph call triples read => exact hread h
  | swap call triples read => exact hread h
  | done result read =>
    cases result with
    | error e => trivial
    | ok n =>
      obtain ⟨w, hw, hle⟩ := h
      exact ⟨w, hswaps.subset hw, hle⟩

/-- Every step adds source states and swaps only, and leaves the store unless it swaps. -/
theorem refreshStep_cases {task' : Refresh} (h : refreshStep product s task = some (s', task')) :
    (s' = s ∧ ∀ n read, task' ≠ .done (.ok n) read) ∨
      ∃ call triples read, task = .swap call triples read ∧ call.swapError = none ∧
        task' = .done (.ok triples.length) read ∧ s' = { s with
          store := product.swap triples s.store
          swaps := s.swaps ++ [⟨triples, read, s.sources.length⟩] } := by
  cases task with
  | query call =>
    rw [refreshStep] at h
    split at h <;> cases h <;> exact Or.inl ⟨rfl, fun _ _ heq => nomatch heq⟩
  | nameGraph call triples read =>
    rw [refreshStep] at h
    split at h <;> cases h <;> exact Or.inl ⟨rfl, fun _ _ heq => nomatch heq⟩
  | swap call triples read =>
    rw [refreshStep] at h
    split at h <;> cases h
    · next hserved => exact Or.inr ⟨call, triples, read, rfl, hserved, rfl, rfl⟩
    · exact Or.inl ⟨rfl, fun _ _ heq => nomatch heq⟩
  | done result read => cases h

/-- A step of a refresh that swaps in order. -/
theorem projected_step (hsource : ∀ r r', product.sourcePart r = product.sourcePart r' →
      product.query r = product.query r') (h : Projected product start s) {task' : Refresh}
    (hsound : task.Sound product s)
    (horder : ∀ call triples read, task = .swap call triples read → call.swapError = none →
      ∀ w ∈ s.swaps.getLast?, w.read ≤ read) (hstep : refreshStep product s task = some (s', task')) :
    Projected product start s' ∧ task'.Sound product s' := by
  rcases refreshStep_cases hstep with ⟨rfl, hdone⟩ | ⟨call, triples, read, rfl, hserved, rfl, rfl⟩
  · refine ⟨h, ?_⟩
    cases task with
    | query call =>
      rw [refreshStep] at hstep
      split at hstep
      · next triples heval =>
        cases hstep
        exact readFrom_present hsource h heval
      · cases hstep
        trivial
    | nameGraph call triples read =>
      rw [refreshStep] at hstep
      split at hstep <;> cases hstep
      · exact hsound
      · trivial
    | swap call triples read =>
      rw [refreshStep] at hstep
      split at hstep
      · obtain ⟨-, rfl⟩ := Prod.mk.inj (Option.some.inj hstep)
        exact absurd rfl (hdone _ _)
      · cases hstep
        trivial
    | done result read => cases hstep
  · exact ⟨h.swapped hsound (horder call triples read rfl hserved),
      ⟨_, List.mem_append_right _ List.mem_cons_self, le_rfl⟩⟩

/-- An action that swaps in order. -/
theorem projected_next (hsource : ∀ r r', product.sourcePart r = product.sourcePart r' →
      product.query r = product.query r') {p p' : Pool ProjectedStore Refresh} {a : RefreshAct}
    (h : Projected product start p.shared ∧ ∀ task ∈ p.tasks, task.Sound product p.shared)
    (horder : SwapsInOrder p a) (hnext : refreshNext product p a = some p') :
    Projected product start p'.shared ∧ ∀ task ∈ p'.tasks, task.Sound product p'.shared := by
  obtain ⟨hshared, htasks⟩ := h
  cases a with
  | update quads =>
    cases hnext
    exact ⟨hshared.update quads,
      fun task ht => (htasks task ht).mono (List.prefix_append _ _) List.prefix_rfl⟩
  | act a =>
    rcases Pool.next_cases hnext with ⟨call, rfl, rfl⟩ | ⟨i, task, s', task', rfl, ht, hstep, rfl⟩
    · refine ⟨hshared, fun task ht => ?_⟩
      rcases List.mem_append.mp ht with hold | hnew
      · exact htasks task hold
      · rw [List.mem_singleton.mp hnew]
        trivial
    · have hlast : ∀ call triples read, task = .swap call triples read → call.swapError = none →
          ∀ w ∈ p.shared.swaps.getLast?, w.read ≤ read := by
        rintro call triples read rfl
        simpa only [SwapsInOrder, ht] using horder
      obtain ⟨hshared', htask'⟩ := projected_step hsource hshared
        (htasks task (List.mem_of_getElem? ht)) hlast hstep
      refine ⟨hshared', fun m hm => ?_⟩
      rcases Pool.mem_set_imp hm with rfl | hold
      · exact htask'
      · rcases refreshStep_cases hstep with ⟨rfl, -⟩ | ⟨call, triples, read, -, -, -, rfl⟩
        · exact htasks m hold
        · exact (htasks m hold).mono List.prefix_rfl (List.prefix_append _ _)

/-- What the invariant says of a state. -/
theorem neverBack_of_projected {p : Pool ProjectedStore Refresh}
    (h : Projected product start p.shared) (htasks : ∀ task ∈ p.tasks, task.Sound product p.shared) :
    NeverBack product start p where
  inOrder := by
    refine ⟨p.shared.swaps.map Swapped.read, List.length_map _,
      List.pairwise_map.mpr h.reads, fun i w v hw hv => ?_⟩
    rw [List.getElem?_map, hw] at hv
    obtain rfl := Option.some.inj hv
    exact h.swaps w (List.mem_of_getElem? hw)
  untouched := h.untouched
  last := h.last
  fresh n read hdone hread := by
    obtain ⟨w, hw, hle⟩ := htasks _ hdone
    obtain ⟨last, hlast⟩ :=
      Option.isSome_iff_exists.mp (List.getLast?_isSome.mpr (List.ne_nil_of_mem hw))
    obtain ⟨source, hget, heval⟩ := (h.swaps last (List.mem_of_getLast? hlast)).2
    -- the last swap has read the present source state
    have hlt := (List.getElem?_eq_some_iff.mp hget).1
    have hmax := read_le_last h.reads hw hlast
    have hpresent : last.read = p.shared.sources.length - 1 := by omega
    refine ⟨source, last.triples, ?_, heval, h.last last hlast⟩
    rw [List.getLast?_eq_getElem?, ← hpresent, hget]

end Lemmas

/-- **While no refresh is overtaken by one that has read more, a data product follows its source
states in order.** The query reads the source graphs. -/
theorem refresh_in_order (product : DataProduct) (start : Lib.Store)
    (hsource : ∀ r r', product.sourcePart r = product.sourcePart r' →
      product.query r = product.query r') (acts : List RefreshAct)
    (hmeet : StepsMeet (refreshNext product) SwapsInOrder ⟨.start product start, []⟩ acts) :
    RefreshesForward product start acts := by
  refine ⟨fun p hrun => ?_, fun s task s' task' hstep hdone => ?_⟩
  · have hfinal := runSteps_invariant (refreshNext product)
      (fun p a p' h horder hnext => projected_next hsource h horder hnext) acts _ p
      ⟨projected_start, fun task ht => absurd ht List.not_mem_nil⟩ hmeet hrun
    exact neverBack_of_projected hfinal.1 hfinal.2
  · rcases refreshStep_cases hstep with ⟨rfl, -⟩ | ⟨call, triples, read, -, -, rfl, -⟩
    · rfl
    · exact absurd rfl (hdone _ _)

/-! ## Two refreshes -/

/-- The graph of the product that the data product is made from. -/
def ordersGraph : GraphName := .named ⟨"https://picloud.local/products/shop/graph"⟩

/-- A data product that copies the graph of its product. -/
def ordersExport : DataProduct where
  iri := "https://picloud.local/data-products/shop/orders"
  query s := .ok (.graph ((s.filter fun q => q.graph = ordersGraph).map fun q =>
    .ok ⟨q.subject, q.predicate, q.object⟩))

theorem ordersExport_source (r r' : Lib.Store)
    (h : ordersExport.sourcePart r = ordersExport.sourcePart r') :
    ordersExport.query r = ordersExport.query r' := by
  have hpart : ∀ s : Lib.Store, (ordersExport.sourcePart s).filter (fun q => q.graph = ordersGraph) =
      s.filter fun q => q.graph = ordersGraph := by
    intro s
    rw [DataProduct.sourcePart, Store.removeIf, List.filter_filter]
    refine List.filter_congr fun q _ => ?_
    by_cases hq : q.graph = ordersGraph
    · have hne : ordersGraph ≠ ordersExport.graph := by decide
      simp [hq, hne]
    · simp [hq]
  have hfilter := hpart r
  rw [h, hpart r'] at hfilter
  simp only [ordersExport, hfilter]

/-- The order has a status. -/
def orderStatus (status : String) : Quad :=
  ⟨.named ⟨"https://picloud.local/products/shop/orders/1"⟩, ⟨"https://picloud.local/ontology#status"⟩,
    .literal ⟨status, "http://www.w3.org/2001/XMLSchema#string", none⟩, ordersGraph⟩

/-- A call that the store serves. -/
def refreshServed : RefreshAct := .act (.call ⟨none, none⟩)

/-- The second refresh begins after the first has returned. -/
def oneByOne : List RefreshAct :=
  [.update [orderStatus "open"], refreshServed, .act (.step 0), .act (.step 0), .act (.step 0),
    .update [orderStatus "paid"], refreshServed, .act (.step 1), .act (.step 1), .act (.step 1)]

/-- The first refresh has read the source before the update, and swaps after the second. -/
def overtaken : List RefreshAct :=
  [.update [orderStatus "open"], refreshServed, .act (.step 0), .update [orderStatus "paid"],
    refreshServed, .act (.step 1), .act (.step 1), .act (.step 1), .act (.step 0), .act (.step 0)]

theorem refresh_in_order_oneByOne : RefreshesForward ordersExport [] oneByOne :=
  refresh_in_order ordersExport [] ordersExport_source oneByOne (by decide +kernel)

/-- **A refresh that is overtaken puts the old triples back.** -/
theorem not_refreshesForward : ¬ RefreshesForward ordersExport [] overtaken := by
  intro h
  have hfinal : (runSteps (refreshNext ordersExport) ⟨.start ordersExport [], []⟩ overtaken).map
      (fun p => (p.tasks[1]?, p.shared.sources, p.shared.store)) =
        some (some (.done (.ok 1) 2), [[], [orderStatus "open"], [orderStatus "paid"]],
          [orderStatus "paid", { orderStatus "open" with graph := ordersExport.graph }]) := by
    decide +kernel
  obtain ⟨p, hrun, heq⟩ := Option.map_eq_some_iff.mp hfinal
  simp only [Prod.mk.injEq] at heq
  obtain ⟨htask, hsources, hstore⟩ := heq
  -- the second refresh has read the present source state and has returned
  obtain ⟨source, triples, hlast, heval, hgraph⟩ := (h.1 p hrun).fresh 1 2
    (List.mem_of_getElem? htask) (by rw [hsources]; rfl)
  rw [hsources] at hlast
  obtain rfl := Option.some.inj hlast
  have htriples : triples = [⟨(orderStatus "paid").subject, (orderStatus "paid").predicate,
      (orderStatus "paid").object⟩] := (Except.ok.inj heval).symm
  rw [hstore, htriples] at hgraph
  have hopen := (hgraph { orderStatus "open" with graph := ordersExport.graph } rfl).mp
    (List.mem_cons_of_mem _ List.mem_cons_self)
  revert hopen
  decide

end Picloud
