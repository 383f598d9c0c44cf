import Picloud.Apply.Alone
import Picloud.Rdf.Vocabulary

/-!
# One active version of a product

Any number of requests to apply and to delete run next to each other, section by section, and the
projection loop projects what the log has sent. The existence of a product is checked in sections of
their own before its deployment is appended, so two requests that both check before one of them
appends deploy the product twice. Where no request appends the deployment of a product that another
one has checked and not yet appended, there is a deletion between any two deployments of a product.
-/

namespace Picloud

open Lib

/-! ## The system -/

/-- The requests. -/
inductive ApiCall where
  | apply (req : ApplyRequest)
  | delete (req : DeleteRequest)

/-- A request under way. -/
abbrev ApiTask := Api (ApplyAnswer ⊕ DeleteAnswer)

/-- The handler of a request. -/
def ApiCall.enter (cfg : ApiConfig) : ApiCall → ApiTask
  | .apply req => do return .inl (← handleApply cfg req)
  | .delete req => do return .inr (← handleDelete cfg req)

/-- A request arrives or executes its next section, or the projection loop takes the next event that
the log has sent. -/
inductive ApiAct where
  | request (a : Pool.Act ApiCall)
  | project

/-- One action. -/
def apiNext (cfg : ApiConfig) (env : ProjectorEnv) (p : Pool ApiState ApiTask) :
    ApiAct → Option (Pool ApiState ApiTask)
  | .request a => Pool.next (ApiCall.enter cfg) Program.step p a
  | .project => (p.shared.log.sent[p.shared.projected]?).map fun e =>
    { p with shared := { p.shared with
        graph := projected env p.shared.graph e, projected := p.shared.projected + 1 } }

/-- A server without requests, its log and its graph empty. -/
def apiStart : Pool ApiState ApiTask := ⟨⟨InMemoryEventLog.new, [], 0⟩, []⟩

/-! ## What is claimed, and when it holds -/

/-- The event deletes the product. -/
def deletes (name : String) (e : EventEnvelope) : Bool :=
  e.eventType = "ProductDeleted" && e.str "product_name" = some name

/-- Between two deployments of a product there is a deletion of it. -/
def OneActiveVersion (events : List EventEnvelope) : Prop :=
  ∀ (name : String) (i j : ℕ) (d e : EventEnvelope), i < j → events[i]? = some d → events[j]? = some e → deploys name d = true →
    deploys name e = true → ∃ k f, i < k ∧ k < j ∧ events[k]? = some f ∧ deletes name f = true

/-- The product that has been checked when the section is reached, and not yet appended. -/
def ApiSection.checked : ApiSection → Option String
  | .scan _ => none
  | .lookup name | .scanDependency name | .lookupDependency name => some name
  | .append e => if e.eventType = "ProductDeployed" then e.str "product_name" else none

/-- The product that a task has checked and not yet appended. -/
def checkedBy (t : ApiTask) : Option String := t.label?.bind ApiSection.checked

/-- The product whose deployment a task is about to append. -/
def deploying (t : ApiTask) : Option String :=
  match t.label? with
  | some (.append e) => ApiSection.checked (.append e)
  | _ => none

/-- A task does not append the deployment of a product that another task has checked and not yet
appended. -/
def Exclusive (p : Pool ApiState ApiTask) : ApiAct → Prop
  | .request (.step i) => ∀ name ∈ (p.tasks[i]?).bind deploying,
    ∀ j < p.tasks.length, j ≠ i → (p.tasks[j]?).bind checkedBy ≠ some name
  | _ => True

instance (p : Pool ApiState ApiTask) : (a : ApiAct) → Decidable (Exclusive p a)
  | .request (.step i) => inferInstanceAs (Decidable (∀ name ∈ (p.tasks[i]?).bind deploying,
    ∀ j < p.tasks.length, j ≠ i → (p.tasks[j]?).bind checkedBy ≠ some name))
  | .request (.call _) | .project => isTrue trivial

/-- A row for the query of a product means that the default graph has it. -/
def FindsProducts (cfg : ApiConfig) (env : ProjectorEnv) : Prop :=
  ∀ graph iri rows, env.checks.iri iri = none → cfg.sparql graph (productQuery iri) = some rows →
    rows ≠ [] → quad iri rdfType (picloudTerm "Product") .default ∈ graph

/-! ## The handlers keep to a protocol -/

/-- A section comes with the product that has been checked, and only appends change the state. The
stage is the product that has been checked and not yet appended. -/
def apiProtocol : Lib.Protocol ApiSection ApiState (Option String) where
  allows stage label update := label.checked = stage ∧
    match label with
    | .append e => e.eventType ≠ "OntologyLoaded" ∧ ∃ refused, update = fun s => s.appended e refused
    | _ => update = id
  after stage label s :=
    match label with
    | .scan name => if scanProduct name s.log.events then none else some name
    | .append _ => none
    | _ => stage

/-- The program keeps to the protocol. -/
abbrev Keeps {R : Type} (Q : Option String → R → Prop) (stage : Option String) (p : Api R) : Prop :=
  Follows apiProtocol Q stage p

variable {cfg : ApiConfig} {req : ApplyRequest}

theorem keeps_productExists (name : String) :
    Keeps (fun stage found => found = false → stage = some name) none (productExists cfg name) := by
  refine Follows.bind (Q := fun stage found => found = false → stage = some name)
    (Follows.read ⟨rfl, rfl⟩ fun s hfound => ?_) fun stage found hstage => ?_
  · rw [InMemoryEventLog.eventsSince_eq_drop, List.drop_zero] at hfound
    simp [apiProtocol, hfound]
  · split_ifs with hask
    · rw [Bool.and_eq_true, Bool.not_eq_true'] at hask
      obtain rfl := hstage hask.1
      exact Follows.read ⟨rfl, rfl⟩ fun s _ => rfl
    · exact hstage

theorem keeps_lookupDataProduct (p : ProductDecl) (dpIri : String) (found : DataProductFound) :
    Keeps (fun stage _ => stage = some p.name) (some p.name)
      (lookupDataProduct cfg p dpIri found) := by
  unfold lookupDataProduct
  split_ifs
  · exact Follows.pure rfl
  · refine Follows.bind (Q := fun stage _ => stage = some p.name)
      (Follows.read ⟨rfl, rfl⟩ fun s => rfl) fun stage hit hstage => ?_
    subst hstage
    split_ifs
    · exact Follows.read ⟨rfl, rfl⟩ fun s => rfl
    · exact Follows.pure rfl

theorem keeps_checkDependency (p : ProductDecl) (dep : DataProductDepDecl) :
    Keeps (fun stage _ => stage = some p.name) (some p.name) (checkDependency cfg p dep) := by
  unfold checkDependency
  split
  · exact Follows.pure rfl
  · refine Follows.bind (Q := fun stage _ => stage = some p.name)
      (Follows.read ⟨rfl, rfl⟩ fun s => rfl) fun stage found hstage => ?_
    subst hstage
    refine Follows.bind (keeps_lookupDataProduct p _ found) fun stage found hstage => ?_
    exact Follows.pure hstage

theorem keeps_checkDependencies (p : ProductDecl) (deps : List DataProductDepDecl) :
    Keeps (fun stage _ => stage = some p.name) (some p.name) (checkDependencies cfg p deps) := by
  induction deps with
  | nil => exact Follows.pure rfl
  | cons dep deps ih =>
    refine Follows.bind (keeps_checkDependency p dep) fun stage answer hstage => ?_
    subst hstage
    cases answer with
    | none => exact ih
    | some answer => exact Follows.pure rfl

/-- The product of a declaration. -/
def declaredProduct : ResourceDeclaration → Option String
  | .product p => some p.name
  | _ => none

theorem keeps_checkDeclaration (decl : ResourceDeclaration) :
    Keeps (fun stage answer => answer = none → stage = declaredProduct decl) none
      (checkDeclaration cfg decl) := by
  cases decl with
  | product p =>
    refine Follows.bind (keeps_productExists p.name) fun stage found hstage => ?_
    cases found with
    | true => exact Follows.pure (by simp)
    | false =>
      obtain rfl := hstage rfl
      exact (keeps_checkDependencies p p.dataProducts).mono fun stage answer hstage _ => hstage
  | _ => exact Follows.pure fun _ => rfl

variable {e : EventEnvelope} {i : ℕ}

theorem keeps_appendEvent {stage : Option String}
    (hchecked : ApiSection.checked (.append e) = stage) (htype : e.eventType ≠ "OntologyLoaded")
    (refused : Option PiCloudError) :
    Keeps (fun stage _ => stage = none) stage (appendEvent e refused) :=
  Follows.write ⟨hchecked, htype, refused, rfl⟩ fun _ => rfl

theorem keeps_appendTags (i : ℕ) (decl : ResourceDeclaration) (t : ℕ)
    (tags : List (String × String)) :
    Keeps (fun stage _ => stage = none) none (appendTags cfg req i decl t tags) := by
  induction tags generalizing t with
  | nil => exact Follows.pure rfl
  | cons tag tags ih =>
    refine Follows.bind (keeps_appendEvent rfl (by simp [tagEvent, EventEnvelope.new]) _)
      fun stage _ hstage => ?_
    subst hstage
    exact ih (t + 1)

/-- The types of the events of declarations. -/
def recordedTypes : List String :=
  ["ProductDeployed", "ResourceDeclared", "CapabilityDeclared", "DataDomainDeclared",
    "DataProductDeclared"]

theorem eventType_mem_recordedTypes {decl : ResourceDeclaration} {d : Declared}
    (h : declared cfg decl = some d) : d.eventType ∈ recordedTypes := by
  cases decl with
  | scope s => cases h
  | m2mPermission m => cases h
  | _ =>
    obtain rfl := Option.some.inj h
    simp [recordedTypes, resourceDeclared]

theorem checked_declaredEvent {slot : Slot} {decl : ResourceDeclaration} {d : Declared}
    (h : declared cfg decl = some d) :
    ApiSection.checked (.append (declaredEvent cfg req slot decl d)) = declaredProduct decl := by
  cases decl with
  | scope s => cases h
  | m2mPermission m => cases h
  | _ =>
    obtain rfl := Option.some.inj h
    rfl

theorem keeps_recordDeclaration (i : ℕ) (decl : ResourceDeclaration) :
    Keeps (fun stage _ => stage = none) (declaredProduct decl)
      (recordDeclaration cfg req i decl) := by
  unfold recordDeclaration
  cases hd : declared cfg decl with
  | none =>
    have : declaredProduct decl = none := by cases decl <;> first | rfl | cases hd
    exact Follows.pure this
  | some d =>
    have htype : d.eventType ≠ "OntologyLoaded" :=
      ne_of_mem_of_not_mem (eventType_mem_recordedTypes hd) (by decide)
    refine Follows.bind (keeps_appendEvent (checked_declaredEvent hd) htype _)
      fun stage outcome hstage => ?_
    subst hstage
    cases outcome with
    | none =>
      refine Follows.bind (keeps_appendTags i decl 0 decl.tags) fun stage _ hstage => ?_
      exact Follows.pure hstage
    | some e => exact Follows.pure rfl

theorem keeps_applyLoop (i : ℕ) (decls : List ResourceDeclaration) (results : List ApplyResult) :
    Keeps (fun _ _ => True) none (applyLoop cfg req i decls results) := by
  induction decls generalizing i results with
  | nil => exact Follows.pure trivial
  | cons decl decls ih =>
    refine Follows.bind (keeps_checkDeclaration decl) fun stage answer hstage => ?_
    cases answer with
    | some answer => exact Follows.pure trivial
    | none =>
      obtain rfl := hstage rfl
      refine Follows.bind (keeps_recordDeclaration i decl) fun stage result hstage => ?_
      subst hstage
      exact ih (i + 1) _

/-- Every request keeps to the protocol. -/
theorem keeps_enter (c : ApiCall) : Keeps (fun _ _ => True) none (c.enter cfg) := by
  cases c with
  | apply req =>
    refine Follows.bind (Q := fun _ _ => True) ?_ fun stage answer _ => Follows.pure trivial
    unfold handleApply
    split_ifs
    · exact Follows.pure trivial
    · split
      · exact Follows.pure trivial
      · exact keeps_applyLoop 0 _ []
  | delete req =>
    refine Follows.bind (Q := fun _ _ => True) ?_ fun stage answer _ => Follows.pure trivial
    unfold handleDelete
    split_ifs
    · exact Follows.pure trivial
    · refine Follows.bind (keeps_appendEvent rfl (by simp [deletedEvent, EventEnvelope.new]) _)
        fun stage outcome _ => ?_
      cases outcome <;> exact Follows.pure trivial

/-- What a program has checked is the stage it is in. -/
theorem stage_of_checkedBy {stage : Option String} {t : ApiTask} {name : String}
    (h : Keeps (fun _ _ => True) stage t) (hchecked : checkedBy t = some name) :
    stage = some name := by
  cases t with
  | done r => cases hchecked
  | act label update next => exact h.1.1.symm.trans hchecked

/-! ## Lifecycles -/

theorem scanProduct_concat (name : String) (es : List EventEnvelope) (e : EventEnvelope) :
    scanProduct name (es ++ [e]) =
      if deploys name e then true else if deletes name e then false else scanProduct name es := by
  unfold scanProduct
  rw [List.foldl_append, List.foldl_cons, List.foldl_nil]
  by_cases hdeployed : e.eventType = "ProductDeployed"
  · by_cases hname : e.str "product_name" = some name <;>
      simp [deploys, deletes, hdeployed, hname]
  · by_cases hdeleted : e.eventType = "ProductDeleted"
    · by_cases hname : e.str "product_name" = some name <;>
        simp [deploys, deletes, hdeleted, hname]
    · simp [deploys, deletes, hdeployed, hdeleted]

/-- What the scan does not find has been deleted after every deployment. -/
theorem exists_deletes {name : String} {es : List EventEnvelope} (h : scanProduct name es = false)
    {d : EventEnvelope} (hi : es[i]? = some d) (hd : deploys name d = true) :
    ∃ k f, i < k ∧ es[k]? = some f ∧ deletes name f = true := by
  induction es using List.reverseRecOn with
  | nil => cases hi
  | append_singleton es e ih =>
    rw [scanProduct_concat] at h
    have hlt : ¬ deploys name e = true → i < es.length := by
      intro hdeploys
      have hle := (List.getElem?_eq_some_iff.mp hi).1
      rw [List.length_append, List.length_singleton] at hle
      by_contra hge
      obtain rfl : i = es.length := by omega
      rw [List.getElem?_concat_length, Option.some.injEq] at hi
      exact hdeploys (hi ▸ hd)
    split_ifs at h with hdeploys hdeletes
    · exact ⟨es.length, e, hlt hdeploys, List.getElem?_concat_length, hdeletes⟩
    · rw [List.getElem?_append_left (hlt hdeploys)] at hi
      obtain ⟨k, f, hik, hk, hf⟩ := ih h hi
      exact ⟨k, f, hik, (List.getElem?_append_left (List.getElem?_eq_some_iff.mp hk).1).trans hk, hf⟩

/-- A deployment of what the scan does not find keeps to one version. -/
theorem OneActiveVersion.concat {es : List EventEnvelope} (h : OneActiveVersion es)
    (he : ∀ name, deploys name e = true → scanProduct name es = false) :
    OneActiveVersion (es ++ [e]) := by
  intro name i j d f hij hi hj hd hf
  have hjlt := (List.getElem?_eq_some_iff.mp hj).1
  rw [List.length_append, List.length_singleton] at hjlt
  rw [List.getElem?_append_left (by omega)] at hi
  rcases Nat.lt_succ_iff_lt_or_eq.mp hjlt with hlt | rfl
  · rw [List.getElem?_append_left hlt] at hj
    obtain ⟨k, g, hik, hkj, hk, hg⟩ := h name i j d f hij hi hj hd hf
    exact ⟨k, g, hik, hkj, (List.getElem?_append_left (by omega)).trans hk, hg⟩
  · rw [List.getElem?_concat_length, Option.some.injEq] at hj
    obtain ⟨k, g, hik, hk, hg⟩ := exists_deletes (he name (hj ▸ hf)) hi hd
    have hklt := (List.getElem?_eq_some_iff.mp hk).1
    exact ⟨k, g, hik, hklt, (List.getElem?_append_left hklt).trans hk, hg⟩

/-! ## The invariant -/

/-- There is one version of each product; no ontology is loaded, and the graph gives nothing the
class of products; and the log has no active version of what a task has checked. -/
structure OneVersionSound (p : Pool ApiState ApiTask) : Prop where
  versions : OneActiveVersion p.shared.log.events
  sent : ∀ e ∈ p.shared.log.sent, e.eventType ≠ "OntologyLoaded"
  graph : ∀ q ∈ p.shared.graph, ¬ (q.predicate = ⟨rdfType⟩ ∧ q.object = picloudTerm "Product")
  tasks : ∀ (i : ℕ) (t : ApiTask), p.tasks[i]? = some t → (∃ stage, Keeps (fun _ _ => True) stage t) ∧
    ∀ name, checkedBy t = some name → scanProduct name p.shared.log.events = false

theorem oneVersionSound_apiStart : OneVersionSound apiStart where
  versions := by
    intro name i j d e hij hi
    cases hi
  sent := by simp [apiStart, InMemoryEventLog.new]
  graph := by simp [apiStart]
  tasks := by simp [apiStart]

/-- Everything an append can do. -/
theorem appended_cases (s : ApiState) (e : EventEnvelope) (refused : Option PiCloudError) :
    s.appended e refused = s ∨
      (s.appended e refused).log.events = s.log.events ++ [e] ∧
        (s.appended e refused).log.sent = s.log.sent ++ [e] ∧
        (s.appended e refused).graph = s.graph := by
  cases refused with
  | some error => exact Or.inl rfl
  | none =>
    by_cases hdup : s.log.isDuplicate e = true
    · left
      simp [ApiState.appended, InMemoryEventLog.append, hdup]
    · right
      simp [ApiState.appended, InMemoryEventLog.append, hdup]

variable {env : ProjectorEnv} {p p' : Pool ApiState ApiTask}

theorem vocabulary_not_product {q : Quad} (h : Vocabulary q.predicate q.object) :
    ¬ (q.predicate = ⟨rdfType⟩ ∧ q.object = picloudTerm "Product") := by
  rintro ⟨hpred, hobj⟩
  rcases h with ⟨name, hname⟩ | ⟨-, c, hc, hobj'⟩
  · exact pc_ne_rdfType name (NamedNode.mk.inj (hname.symm.trans hpred))
  · have heq : pc c = pc "Product" :=
      NamedNode.mk.inj (Term.named.inj (hobj'.symm.trans hobj))
    rw [pc_injective heq] at hc
    exact absurd hc (by decide)

/-- A section that changes nothing of the log keeps the invariant, if its task goes on as it
should. -/
theorem OneVersionSound.readSection (h : OneVersionSound p) {t : ApiTask}
    (ht : (∃ stage, Keeps (fun _ _ => True) stage t) ∧
      ∀ name, checkedBy t = some name → scanProduct name p.shared.log.events = false) :
    OneVersionSound ⟨p.shared, p.tasks.set i t⟩ := by
  refine ⟨h.versions, h.sent, h.graph, fun j u hj => ?_⟩
  rcases Pool.getElem?_set_cases hj with ⟨-, rfl⟩ | ⟨-, hu⟩
  · exact ht
  · exact h.tasks j u hu

/-- An append keeps the invariant, if it deploys nothing that another task has checked. -/
theorem OneVersionSound.appendSection (h : OneVersionSound p) {update : ApiState → ApiState}
    {next : ApiState → ApiTask} (ht : p.tasks[i]? = some (.act (.append e) update next))
    (htype : e.eventType ≠ "OntologyLoaded") (hexclusive : Exclusive p (.request (.step i)))
    (refused : Option PiCloudError) (hnext : Keeps (fun _ _ => True) none (next p.shared)) :
    OneVersionSound ⟨p.shared.appended e refused, p.tasks.set i (next p.shared)⟩ := by
  have htask : (∃ stage, Keeps (fun _ _ => True) stage (next p.shared)) ∧
      ∀ name, checkedBy (next p.shared) ≠ some name := by
    refine ⟨⟨none, hnext⟩, fun name hname => ?_⟩
    cases stage_of_checkedBy hnext hname
  rcases appended_cases p.shared e refused with hsame | ⟨hevents, hsent, hgraph⟩
  · rw [hsame]
    exact h.readSection ⟨htask.1, fun name hname => absurd hname (htask.2 name)⟩
  have hdeploys : ∀ name, deploys name e = true →
      ApiSection.checked (.append e) = some name := by
    intro name hname
    simp only [deploys, Bool.and_eq_true, decide_eq_true_eq] at hname
    rw [ApiSection.checked, if_pos hname.1, hname.2]
  refine ⟨?_, ?_, by rw [hgraph]; exact h.graph, fun j u hj => ?_⟩
  · rw [hevents]
    exact h.versions.concat fun name hname => (h.tasks i _ ht).2 name (hdeploys name hname)
  · rw [hsent]
    intro f hf
    rcases List.mem_append.mp hf with hold | hnew
    · exact h.sent f hold
    · rw [List.mem_singleton.mp hnew]
      exact htype
  · rcases Pool.getElem?_set_cases hj with ⟨-, rfl⟩ | ⟨hne, hu⟩
    · exact ⟨htask.1, fun name hname => absurd hname (htask.2 name)⟩
    · refine ⟨(h.tasks j u hu).1, fun name hname => ?_⟩
      have hother : ¬ deploys name e = true := by
        intro hdep
        have hdeploying : (p.tasks[i]?).bind deploying = some name := by
          rw [ht]
          exact hdeploys name hdep
        refine hexclusive name hdeploying j (List.getElem?_eq_some_iff.mp hu).1 hne ?_
        rw [hu]
        exact hname
      rw [hevents, scanProduct_concat, if_neg hother, (h.tasks j u hu).2 name hname]
      split_ifs <;> rfl

/-- **An action keeps the invariant, unless it deploys what another request has checked.** -/
theorem oneVersionSound_apiNext {a : ApiAct} (h : OneVersionSound p) (hexclusive : Exclusive p a)
    (hnext : apiNext cfg env p a = some p') : OneVersionSound p' := by
  cases a with
  | project =>
    obtain ⟨e, he, rfl⟩ := Option.map_eq_some_iff.mp hnext
    refine ⟨h.versions, h.sent, ?_, h.tasks⟩
    exact forall_mem_projected_of_vocabulary (fun q => vocabulary_not_product)
      (h.sent e (List.mem_of_getElem? he)) h.graph
  | request a =>
    rcases Pool.next_cases hnext with ⟨c, rfl, rfl⟩ | ⟨i, t, s', t', rfl, ht, hstep, rfl⟩
    · refine ⟨h.versions, h.sent, h.graph, fun i t ht => ?_⟩
      rcases List.mem_append.mp (List.mem_of_getElem? ht) with hold | hnew
      · obtain ⟨j, hj⟩ := List.mem_iff_getElem?.mp hold
        exact h.tasks j t hj
      · rw [List.mem_singleton.mp hnew]
        refine ⟨⟨none, keeps_enter c⟩, fun name hname => ?_⟩
        cases stage_of_checkedBy (keeps_enter c) hname
    · obtain ⟨label, update, next, rfl, rfl, rfl⟩ := Program.step_cases hstep
      obtain ⟨⟨stage, ⟨hchecked, hupdate⟩, hnextkeeps⟩, hscan⟩ := h.tasks i _ ht
      have hafter := hnextkeeps p.shared
      cases label with
      | append e =>
        obtain ⟨htype, refused, rfl⟩ := hupdate
        exact h.appendSection ht htype hexclusive refused hafter
      | scan product =>
        obtain rfl := hupdate
        refine h.readSection ⟨⟨_, hafter⟩, fun name hname => ?_⟩
        have hstage := stage_of_checkedBy hafter hname
        simp only [apiProtocol] at hstage
        split_ifs at hstage with hfound
        rw [← Option.some.inj hstage]
        simpa using hfound
      | lookup product | scanDependency product | lookupDependency product =>
        obtain rfl := hupdate
        refine h.readSection ⟨⟨_, hafter⟩, fun name hname => hscan name ?_⟩
        exact hchecked.trans (stage_of_checkedBy hafter hname)

/-- **There is a deletion between two deployments of a product, and what has been deleted last can be
applied again**, in every run in which no request appends the deployment of a product that another
request has checked and not yet appended. The overwrite protection then leaves the product to the
checks of its dependencies, whether or not the deletion has been projected. -/
theorem one_active_version (cfg : ApiConfig) (env : ProjectorEnv) (hfinds : FindsProducts cfg env)
    {as : List ApiAct} (hmeet : StepsMeet (apiNext cfg env) Exclusive apiStart as)
    (hrun : runSteps (apiNext cfg env) apiStart as = some p) :
    OneActiveVersion p.shared.log.events ∧
    ∀ product : ProductDecl, env.checks.iri (cfg.iris.product product.name) = none →
      scanProduct product.name p.shared.log.events = false →
      refusal cfg p.shared (.product product) =
        product.dataProducts.findSome? (dependencyRefusal cfg p.shared product) := by
  have hsound : OneVersionSound p := runSteps_invariant (apiNext cfg env)
    (fun p a p' h hexclusive hnext => oneVersionSound_apiNext h hexclusive hnext) as _ p oneVersionSound_apiStart hmeet
    hrun
  refine ⟨hsound.versions, fun product hiri hscan => ?_⟩
  have hgraph : graphHasProduct cfg p.shared.graph product.name = false := by
    unfold graphHasProduct
    cases hquery : cfg.sparql p.shared.graph (productQuery (cfg.iris.product product.name)) with
    | none => rfl
    | some rows =>
      cases rows with
      | nil => rfl
      | cons row rows =>
        have hquad := hfinds _ _ _ hiri hquery (by simp)
        exact absurd ⟨rfl, rfl⟩ (hsound.graph _ hquad)
  rw [refusal, existsIn, hscan, hgraph, Bool.and_false, Bool.or_false, if_neg (by simp)]

/-! ## Runs -/

/-- A request to apply a product. -/
def applyShop (correlationId : Uuid) : ApiAct :=
  .request (.call (.apply (sampleApply correlationId [sampleProduct "shop"])))

/-- A section of a request. -/
def sectionOf (i : ℕ) : ApiAct := .request (.step i)

/-- A product is applied, deleted and applied again. -/
def appliedAgain : List ApiAct :=
  [applyShop 1, sectionOf 0, sectionOf 0, sectionOf 0, .project,
    .request (.call (.delete ⟨"shop", 2, ⟨20, 0, none⟩⟩)), sectionOf 1,
    applyShop 3, sectionOf 2, sectionOf 2, sectionOf 2, .project]

/-- The engine of the sample server finds nothing. -/
theorem findsProducts_sampleApi : FindsProducts sampleApi plainEnv := by
  intro graph iri rows _ hquery hrows
  exact absurd (Option.some.inj hquery).symm hrows

theorem one_active_version_applied_again :
    ∃ p, runSteps (apiNext sampleApi plainEnv) apiStart appliedAgain = some p ∧
      p.shared.log.events.map (fun e => e.eventType) =
        ["ProductDeployed", "ProductDeleted", "ProductDeployed"] ∧
      OneActiveVersion p.shared.log.events := by
  obtain ⟨p, hp⟩ : ∃ p, runSteps (apiNext sampleApi plainEnv) apiStart appliedAgain = some p :=
    ⟨_, rfl⟩
  have hmeet : StepsMeet (apiNext sampleApi plainEnv) Exclusive apiStart appliedAgain := by
    decide +kernel
  refine ⟨p, hp, ?_, (one_active_version sampleApi plainEnv findsProducts_sampleApi hmeet hp).1⟩
  obtain rfl := Option.some.inj hp
  decide +kernel

/-- Both requests check before one of them appends. -/
def bothCheck : List ApiAct :=
  [applyShop 1, applyShop 2, sectionOf 0, sectionOf 0, sectionOf 1, sectionOf 1, sectionOf 0,
    sectionOf 1]

/-- Two requests deploy one product, and nothing has deleted it. -/
theorem deployed_twice :
    ∃ p, runSteps (apiNext sampleApi plainEnv) apiStart bothCheck = some p ∧
      p.shared.log.events.map (fun e => (e.eventType, e.str "product_name")) =
        [("ProductDeployed", some "shop"), ("ProductDeployed", some "shop")] ∧
      ¬ OneActiveVersion p.shared.log.events := by
  refine ⟨_, rfl, by decide +kernel, fun h => ?_⟩
  obtain ⟨k, f, hk, hk', -⟩ := h "shop" 0 1 _ _ (by omega) rfl rfl (by decide +kernel)
    (by decide +kernel)
  omega

end Picloud
