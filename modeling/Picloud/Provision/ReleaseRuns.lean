import Picloud.Provision.Release

/-!
# Runs of a node

Every orderly action keeps what the log, the graph and the backends have to do with each other: the
graph has what stands after the events projected, the backends hold what stands after the events taken
or is about to be released, and nothing stands of a product whose deletion is not finished.
-/

namespace Picloud

open Lib

/-! ## The invariant -/

/-- The children whose calls are still to be made. -/
def Work.pending : Work → List (String × String)
  | .cascade _ _ rows false => rows
  | .cascade _ _ rows true => rows.tail
  | _ => []

/-- The provisioner is rescheduling the workloads of a failed node. -/
def Work.reschedules : Work → Bool
  | .reschedule _ _ _ _ => true
  | _ => false

/-- The log of a run. -/
structure LogSound (cfg : NodeConfig) (log : List EventEnvelope) : Prop where
  known : ∀ e ∈ log, KnownEvent cfg e
  apart : Apart log
  /-- Nothing that is provisioned stands for a deleted product. -/
  fallen : ∀ x, x.resourceType ∈ "Ingress" :: releasedTypes → isDeleted x.product log = true →
    isStanding x log = false
  valid : ∀ e ∈ log, ∀ x, childOf e = some x → x.resourceType ∈ releasedTypes →
    cfg.env.checks.iri x.iri = none
  /-- A deleted product has had no routes. -/
  noRoutes : ∀ product, isDeleted product log = true → ∀ e ∈ log, ∀ x, childOf e = some x →
    x.resourceType = "Ingress" → x.product ≠ product
  /-- A resource does not stand when its removal is recorded. -/
  removed : ∀ before e after, log = before ++ e :: after → e.eventType = "ResourceDeleted" →
    ∀ x, x.resourceType ∈ releasedTypes → x.iri = resourceOf e → isStanding x before = false

/-- The invariant of a run. -/
structure ReleaseSound (cfg : NodeConfig) (s : NodeState) : Prop extends LogSound cfg s.log where
  projected_le : s.projected ≤ s.log.length
  taken_le : s.provisioner.taken ≤ s.log.length
  /-- No node fails. -/
  stays : s.provisioner.work.reschedules = false
  /-- A product whose deletion is not finished is deleted. -/
  unfinished : ∀ product, ¬ Finished s product → isDeleted product s.log = true
  /-- Products in the graph come from events. -/
  products : ∀ q ∈ s.graph, q.predicate = ⟨pc "product"⟩ → ∃ e ∈ s.log,
    q.subject = .named ⟨e.source.value⟩ ∧ ∃ p, e.str "product" = some p ∧ q.object = simple p
  /-- The graph has what stands after the events projected. -/
  listed : ∀ x, x.resourceType ∈ releasedTypes → isStanding x (s.log.take s.projected) = true →
    Listed s.graph x.iri x.resourceType
  /-- The children being released are within their product, which has been deleted. -/
  children : ∀ event product rows called, s.provisioner.work = .cascade event product rows called →
    (∃ d ∈ s.log, deletedBy d = some product) ∧ ∀ row ∈ rows, within product row.1 = true
  /-- What the backends hold stands after the events taken, or is about to be released. -/
  held : ∀ c, s.provisioner.backends.Holds c →
    (∃ x : Child, childCall x.iri x.resourceType = some c ∧
      isStanding x (s.log.take s.provisioner.taken) = true) ∨
    ∃ row ∈ s.provisioner.work.pending, childCall row.1 row.2 = some c
  /-- Routes come from declarations. -/
  routes : ∀ product ∈ s.provisioner.backends.routeProducts, ∃ e ∈ s.log, ∃ x, childOf e = some x ∧
    x.resourceType = "Ingress" ∧ x.product = product
  /-- What was released is within a product that was deleted at that time. -/
  released : ∀ x ∈ s.provisioner.released, x.2 ≤ s.log.length ∧ ∃ product,
    (∃ d ∈ s.log, deletedBy d = some product) ∧ within product x.1.value = true ∧
    isDeleted product (s.log.take x.2) = true

theorem releaseSound_start (cfg : NodeConfig) : ReleaseSound cfg nodeStart where
  known := by simp [nodeStart]
  apart := by simp [nodeStart, Apart]
  fallen := fun _ _ _ => rfl
  valid := by simp [nodeStart]
  noRoutes := by simp [nodeStart]
  removed := by simp [nodeStart]
  projected_le := Nat.le_refl 0
  taken_le := Nat.le_refl 0
  stays := rfl
  unfinished := fun product h => absurd ⟨by simp [nodeStart], rfl⟩ h
  products := by simp [nodeStart]
  listed := fun x _ h => by cases h
  children := fun _ _ _ _ h => by cases h
  held := fun c h => by cases c <;> simp [nodeStart, Backends.empty, Backends.Holds, Assoc.keys] at h
  routes := by simp [nodeStart, Backends.empty, Backends.routeProducts, IngressRouter.new]
  released := by simp [nodeStart]

/-! ### Appending -/

section Append

variable {cfg : NodeConfig} {log : List EventEnvelope} {e : EventEnvelope}

theorem LogSound.append (h : LogSound cfg log) (hknown : KnownEvent cfg e)
    (hapart : Apart (log ++ [e]))
    (hdeclared : ∀ x, childOf e = some x → x.resourceType ∈ "Ingress" :: releasedTypes →
      isDeleted x.product log = false)
    (hvalid : ∀ x, childOf e = some x → x.resourceType ∈ releasedTypes →
      cfg.env.checks.iri x.iri = none)
    (hroutes : ∀ product, deletedBy e = some product → ∀ f ∈ log, ∀ x, childOf f = some x →
      x.resourceType = "Ingress" → x.product ≠ product)
    (hremoved : e.eventType = "ResourceDeleted" → ∀ x, x.resourceType ∈ releasedTypes →
      x.iri = resourceOf e → isStanding x log = false) :
    LogSound cfg (log ++ [e]) where
  known := by
    simp only [List.mem_append, List.mem_singleton]
    rintro f (hf | rfl)
    · exact h.known f hf
    · exact hknown
  apart := hapart
  fallen := by
    intro x hx hdeleted
    rw [isDeleted_concat] at hdeleted
    rw [isStanding_concat]
    have hchild : childOf e = some x → isDeleted x.product log = false := fun hc => hdeclared x hc hx
    split_ifs at hdeleted with hdeploy hdelete
    · have hnone : childOf e = none := childOf_eq_none (by
        rw [(deletedBy_eq_some_iff.mp hdelete).1]
        decide)
      rw [if_neg (by simp [hnone]), if_pos hdelete]
    · have hnot : childOf e ≠ some x := by
        intro hc
        rw [hchild hc] at hdeleted
        cases hdeleted
      rw [if_neg hnot, if_neg hdelete]
      exact h.fallen x hx hdeleted
  valid := by
    simp only [List.mem_append, List.mem_singleton]
    rintro f (hf | rfl)
    · exact h.valid f hf
    · exact hvalid
  noRoutes := by
    intro product hdeleted f hf x hx htype
    rw [isDeleted_concat] at hdeleted
    rcases List.mem_append.mp hf with hf | hf
    · split_ifs at hdeleted with hdeploy hdelete
      · exact hroutes product hdelete f hf x hx htype
      · exact h.noRoutes product hdeleted f hf x hx htype
    · obtain rfl := List.mem_singleton.mp hf
      rintro rfl
      have hevent := (childOf_eq_some_iff.mp hx).1
      rw [deployedBy_eq_none (by rw [hevent]; decide), deletedBy_eq_none (by rw [hevent]; decide),
        if_neg (by simp), if_neg (by simp),
        hdeclared x hx (htype ▸ List.mem_cons_self)] at hdeleted
      cases hdeleted
  removed := by
    intro before f after heq htype x hx hiri
    rcases after.eq_nil_or_concat' with rfl | ⟨after, g, rfl⟩
    · obtain ⟨rfl, hf⟩ := List.append_inj' heq rfl
      obtain rfl := List.singleton_inj.mp hf
      exact hremoved htype x hx hiri
    · rw [← List.cons_append, ← List.append_assoc] at heq
      obtain ⟨rfl, -⟩ := List.append_inj' heq rfl
      exact h.removed before f after rfl htype x hx hiri

variable {s : NodeState}

/-- The state after an event has been appended. -/
def NodeState.append (s : NodeState) (e : EventEnvelope) : NodeState := { s with log := s.log ++ [e] }

theorem finished_append_iff (hle : s.provisioner.taken ≤ s.log.length) {product : String} :
    Finished (s.append e) product ↔ Finished s product ∧ deletedBy e ≠ some product := by
  unfold Finished NodeState.append
  simp only [List.drop_append_of_le_length hle, List.mem_append, List.mem_singleton]
  constructor
  · rintro ⟨hall, hwork⟩
    exact ⟨⟨fun f hf => hall f (Or.inl hf), hwork⟩, hall e (Or.inr rfl)⟩
  · rintro ⟨⟨hall, hwork⟩, he⟩
    refine ⟨?_, hwork⟩
    rintro f (hf | rfl)
    · exact hall f hf
    · exact he

theorem ReleaseSound.append (h : ReleaseSound cfg s) (hlog : LogSound cfg (s.log ++ [e]))
    (hdeployed : ∀ product, deployedBy e = some product → Finished s product) :
    ReleaseSound cfg (s.append e) where
  toLogSound := hlog
  projected_le := by
    have := h.projected_le
    simp only [NodeState.append, List.length_append, List.length_singleton]
    omega
  taken_le := by
    have := h.taken_le
    simp only [NodeState.append, List.length_append, List.length_singleton]
    omega
  stays := h.stays
  unfinished := by
    intro product hunfinished
    rw [finished_append_iff h.taken_le, not_and_or, not_not] at hunfinished
    change isDeleted product (s.log ++ [e]) = true
    rw [isDeleted_concat]
    rcases hunfinished with hold | hdelete
    · rw [if_neg fun hdeploy => hold (hdeployed product hdeploy), h.unfinished product hold,
        ite_self]
    · have hnone : deployedBy e = none := deployedBy_eq_none (by
        rw [(deletedBy_eq_some_iff.mp hdelete).1]
        decide)
      rw [if_neg (by simp [hnone]), if_pos hdelete]
  products := by
    intro q hq hpred
    obtain ⟨f, hf, hproduct⟩ := h.products q hq hpred
    exact ⟨f, List.mem_append_left _ hf, hproduct⟩
  listed := by
    intro x hx hstanding
    refine h.listed x hx ?_
    rwa [NodeState.append, List.take_append_of_le_length h.projected_le] at hstanding
  children := by
    intro event product rows called hwork
    obtain ⟨⟨d, hd, hdel⟩, hrows⟩ := h.children event product rows called hwork
    exact ⟨⟨d, List.mem_append_left _ hd, hdel⟩, hrows⟩
  held := by
    intro c hc
    rw [NodeState.append, List.take_append_of_le_length h.taken_le]
    exact h.held c hc
  routes := by
    intro product hproduct
    obtain ⟨f, hf, hchild⟩ := h.routes product hproduct
    exact ⟨f, List.mem_append_left _ hf, hchild⟩
  released := by
    intro x hx
    obtain ⟨hle, product, ⟨d, hd, hdel⟩, hwithin, hdeleted⟩ := h.released x hx
    refine ⟨hle.trans (by simp [NodeState.append]), product,
      ⟨d, List.mem_append_left _ hd, hdel⟩, hwithin, ?_⟩
    rwa [NodeState.append, List.take_append_of_le_length hle]

end Append

/-! ### The steps -/

section Steps

variable {cfg : NodeConfig} {s : NodeState} {e : EventEnvelope}

theorem HandlerEvent.eventType_ne {h : HandlerEvent} {api : ApiConfig} (he : h.event api = some e) :
    e.eventType ≠ "ResourceDeleted" := by
  cases h with
  | declaration req slot decl =>
    obtain ⟨d, hd, rfl⟩ := Option.map_eq_some_iff.mp he
    intro htype
    have hmem := eventType_declared hd
    rw [show d.eventType = "ResourceDeleted" from htype] at hmem
    exact absurd hmem (by decide)
  | tag req slot decl entry =>
    cases he
    exact show "TagAdded" ≠ "ResourceDeleted" by decide
  | deletion req =>
    cases he
    exact show "ProductDeleted" ≠ "ResourceDeleted" by decide

/-- A handler appends an event. -/
theorem ReleaseSound.handle (h : ReleaseSound cfg s) {handler : HandlerEvent}
    (he : handler.event cfg.api = some e) (hmay : MayAppend cfg s e) :
    ReleaseSound cfg (s.append e) := by
  refine h.append (h.toLogSound.append (.handled he) hmay.apart
    (fun x hx htype => (hmay.declared x hx htype).1) hmay.valid hmay.routes
    fun htype => absurd htype (HandlerEvent.eventType_ne he)) hmay.deployed

theorem take_succ_of_getElem? {α : Type} {l : List α} {n : ℕ} {a : α} (h : l[n]? = some a) :
    l.take (n + 1) = l.take n ++ [a] := by
  rw [List.take_add_one, h]
  rfl

theorem str_eq_text (e : EventEnvelope) (key : String) : e.str key = e.payload.text key := by
  unfold EventEnvelope.str Json.index Json.text
  cases e.payload.get? key <;> rfl

/-- A resource that stands is out of reach of the deletion of another product. -/
theorem LogSound.outOfReach {log : List EventEnvelope} (h : LogSound cfg log) {x : Child}
    (htype : x.resourceType ∈ releasedTypes) (hx : ∃ e ∈ log, childOf e = some x) {d : EventEnvelope}
    (hd : d ∈ log) {product : String} (hdel : deletedBy d = some product)
    (hne : product ≠ x.product) : OutOfReach log product x.iri := by
  obtain ⟨e, he, hchild⟩ := hx
  exact h.apart e he x hchild htype d hd product hdel hne

/-- What is listed stays listed, unless it falls. -/
theorem ReleaseSound.listed_projected (h : ReleaseSound cfg s) {i : ℕ} (he : s.log[i]? = some e)
    (hgraph : s.projected = i) {x : Child} (htype : x.resourceType ∈ releasedTypes)
    (hstanding : isStanding x (s.log.take i) = true) (hdelete : deletedBy e ≠ some x.product) :
    Listed (projected cfg.env s.graph e) x.iri x.resourceType := by
  subst hgraph
  have hmem : e ∈ s.log := List.mem_of_getElem? he
  have hlisted := h.listed x htype hstanding
  rcases (h.known e hmem).cases_script with hscript | hremoved | ⟨req, rfl⟩
  · exact ⟨hscript.mem hlisted.1 (by simp [quad]), hscript.mem hlisted.2 (by simp [quad])⟩
  · have hne : x.iri ≠ resourceOf e := by
      intro heq
      rw [h.removed _ e _ (Pool.split_at he).1 hremoved x htype heq] at hstanding
      cases hstanding
    have hsubj : ∀ predicate o, (quad x.iri predicate o .default).subject ≠
        .named ⟨resourceOf e⟩ := by
      intro predicate o heq
      exact hne (congrArg NamedNode.value (Subject.named.inj heq))
    exact ⟨mem_projected_resourceDeleted hremoved hlisted.1 (hsubj _ _),
      mem_projected_resourceDeleted hremoved hlisted.2 (hsubj _ _)⟩
  · have hproduct : req.product ≠ x.product := fun heq => hdelete (congrArg some heq)
    obtain ⟨f, hf, hchild⟩ := exists_childOf hstanding
    obtain ⟨hwithin, hgiven⟩ := h.outOfReach htype ⟨f, List.mem_of_mem_take hf, hchild⟩ hmem rfl
      hproduct
    have hnot : NotOf req.product x.iri s.graph := by
      intro u hu hpred hobject htext
      obtain ⟨g, hg, hsubject, p, hp, hobject'⟩ := h.products u hu hpred
      rw [hsubject] at htext
      refine hgiven g hg htext ?_
      rw [hp]
      rw [hobject'] at hobject
      simpa [simple] using hobject
    exact ⟨mem_projected_deletedEvent hwithin hnot hlisted.1 rfl rfl,
      mem_projected_deletedEvent hwithin hnot hlisted.2 rfl rfl⟩

/-- The projection loop projects an event. -/
theorem ReleaseSound.project (h : ReleaseSound cfg s) (he : s.log[s.projected]? = some e) :
    ReleaseSound cfg
      { s with graph := projected cfg.env s.graph e, projected := s.projected + 1 } where
  toLogSound := h.toLogSound
  projected_le := (List.getElem?_eq_some_iff.mp he).1
  taken_le := h.taken_le
  stays := h.stays
  unfinished := h.unfinished
  products := by
    intro q hq hpred
    have hmem : e ∈ s.log := List.mem_of_getElem? he
    rcases (h.known e hmem).cases_script with hscript | hremoved | ⟨req, rfl⟩
    · rcases hscript.product hq hpred with hold | ⟨hsubject, hproduct⟩
      · exact h.products q hold hpred
      · exact ⟨e, hmem, hsubject, hproduct⟩
    · exact h.products q (mem_of_mem_projected_resourceDeleted hremoved hq) hpred
    · exact h.products q (mem_of_mem_projected_deletedEvent hq) hpred
  listed := by
    intro x htype hstanding
    rw [take_succ_of_getElem? he, isStanding_concat] at hstanding
    split_ifs at hstanding with hchild hdelete
    · obtain ⟨hevent, -, hresourceType, hiri⟩ := childOf_eq_some_iff.mp hchild
      have hresource : resourceOf e = x.iri := by
        rw [resourceOf, EventEnvelope.iriOrSource, str_eq_text, hiri]
        rfl
      have hkind : e.strD "resource_type" "Resource" = x.resourceType := by
        rw [EventEnvelope.strD, str_eq_text, hresourceType]
        rfl
      rw [← hresource, ← hkind]
      refine Picloud.listed_projected hevent ?_
      rw [hresource]
      exact h.valid e (List.mem_of_getElem? he) x hchild htype
    · exact h.listed_projected he rfl htype hstanding hdelete
  children := h.children
  held := h.held
  routes := h.routes
  released := h.released

/-- The state after the provisioner has gone on. -/
def NodeState.withProvisioner (s : NodeState) (p : Provisioner) : NodeState :=
  { s with provisioner := p }

/-- The provisioner takes an event. -/
theorem ReleaseSound.take (h : ReleaseSound cfg s) (hidle : s.provisioner.work = .idle)
    (he : s.log[s.provisioner.taken]? = some e) {w : Work} {b : Backends}
    (hstays : w.reschedules = false)
    (hreleases : ∀ product, w.releases product = true → deletedBy e = some product)
    (hrows : ∀ event product rows called, w = .cascade event product rows called →
      ∀ row ∈ rows, within product row.1 = true)
    (hpending : ∀ x, x.resourceType ∈ releasedTypes → deletedBy e = some x.product →
      isStanding x (s.log.take s.provisioner.taken) = true → (x.iri, x.resourceType) ∈ w.pending)
    (hheld : ∀ c, b.Holds c → s.provisioner.backends.Holds c ∨
      ∃ x, childOf e = some x ∧ childCall x.iri x.resourceType = some c)
    (hroutes : ∀ product ∈ b.routeProducts, product ∈ s.provisioner.backends.routeProducts ∨
      ∃ x, childOf e = some x ∧ x.resourceType = "Ingress" ∧ x.product = product) :
    ReleaseSound cfg (s.withProvisioner { s.provisioner with
      taken := s.provisioner.taken + 1, work := w, backends := b }) where
  toLogSound := h.toLogSound
  projected_le := h.projected_le
  taken_le := (List.getElem?_eq_some_iff.mp he).1
  stays := hstays
  unfinished := by
    intro product hunfinished
    refine h.unfinished product fun hfinished => hunfinished ?_
    have hdrop : s.log.drop s.provisioner.taken = e :: s.log.drop (s.provisioner.taken + 1) := by
      obtain ⟨hlt, rfl⟩ := List.getElem?_eq_some_iff.mp he
      exact List.drop_eq_getElem_cons hlt
    obtain ⟨hall, -⟩ := hfinished
    rw [hdrop] at hall
    refine ⟨fun f hf => hall f (List.mem_cons_of_mem e hf), ?_⟩
    rw [Bool.eq_false_iff]
    exact fun hw => hall e List.mem_cons_self (hreleases product hw)
  products := h.products
  listed := h.listed
  children := by
    intro event product rows called hwork
    have hproduct : w.releases product = true := by
      rw [show w = .cascade event product rows called from hwork]
      exact decide_eq_true rfl
    exact ⟨⟨e, List.mem_of_getElem? he, hreleases product hproduct⟩,
      hrows event product rows called hwork⟩
  held := by
    intro c hc
    change (∃ x : Child, _ ∧ isStanding x (s.log.take (s.provisioner.taken + 1)) = true) ∨ _
    simp only [take_succ_of_getElem? he, isStanding_concat]
    rcases hheld c hc with hold | ⟨x, hchild, hcall⟩
    · obtain ⟨x, hcall, hstanding⟩ : ∃ x : Child, childCall x.iri x.resourceType = some c ∧
          isStanding x (s.log.take s.provisioner.taken) = true := by
        refine (h.held c hold).resolve_right ?_
        rintro ⟨row, hrow, -⟩
        rw [hidle] at hrow
        cases hrow
      by_cases hdelete : deletedBy e = some x.product
      · exact Or.inr ⟨_, hpending x (childCall_eq_some hcall).1 hdelete hstanding, hcall⟩
      · refine Or.inl ⟨x, hcall, ?_⟩
        rw [if_neg hdelete, hstanding, ite_self]
    · exact Or.inl ⟨x, hcall, by rw [if_pos hchild]⟩
  routes := by
    intro product hproduct
    rcases hroutes product hproduct with hold | ⟨x, hchild, htype, hx⟩
    · exact h.routes product hold
    · exact ⟨e, List.mem_of_getElem? he, x, hchild, htype, hx⟩
  released := h.released

/-- The provisioner goes on with other work. -/
theorem ReleaseSound.setWork (h : ReleaseSound cfg s) {w : Work} (hstays : w.reschedules = false)
    (hreleases : ∀ product, w.releases product = true → s.provisioner.work.releases product = true)
    (hrows : ∀ event product rows called, w = .cascade event product rows called →
      ∀ row ∈ rows, within product row.1 = true)
    (hpending : ∀ row ∈ s.provisioner.work.pending, ∀ c, childCall row.1 row.2 = some c →
      row ∈ w.pending) :
    ReleaseSound cfg (s.withProvisioner { s.provisioner with work := w }) where
  toLogSound := h.toLogSound
  projected_le := h.projected_le
  taken_le := h.taken_le
  stays := hstays
  unfinished := by
    intro product hunfinished
    refine h.unfinished product fun hfinished => hunfinished ⟨hfinished.1, ?_⟩
    rw [Bool.eq_false_iff]
    intro hw
    have hold := hreleases product hw
    rw [hfinished.2] at hold
    cases hold
  products := h.products
  listed := h.listed
  children := by
    intro event product rows called hwork
    have hproduct : w.releases product = true := by
      rw [show w = .cascade event product rows called from hwork]
      exact decide_eq_true rfl
    have hold := hreleases product hproduct
    refine ⟨?_, hrows event product rows called hwork⟩
    cases hw : s.provisioner.work with
    | cascade event' product' rows' called' =>
      rw [hw] at hold
      obtain rfl : product' = product := of_decide_eq_true hold
      exact (h.children event' product' rows' called' hw).1
    | idle => rw [hw] at hold; cases hold
    | report event' iri error => rw [hw] at hold; cases hold
    | reschedule nodeIri nodeName rows' announced => rw [hw] at hold; cases hold
  held := by
    intro c hc
    refine (h.held c hc).imp_right ?_
    rintro ⟨row, hrow, hcall⟩
    exact ⟨row, hpending row hrow c hcall, hcall⟩
  routes := h.routes
  released := h.released

/-- The provisioner calls a backend for a child. -/
theorem ReleaseSound.call (h : ReleaseSound cfg s) {event : EventEnvelope}
    {product iri resourceType : String} {rows : List (String × String)} {c : BackendCall}
    (hwork : s.provisioner.work = .cascade event product ((iri, resourceType) :: rows) false)
    (hcall : childCall iri resourceType = some c) :
    ReleaseSound cfg (s.withProvisioner { s.provisioner with
      work := .cascade event product ((iri, resourceType) :: rows) true
      backends := s.provisioner.backends.call c
      released := (⟨iri⟩, s.log.length) :: s.provisioner.released }) where
  toLogSound := h.toLogSound
  projected_le := h.projected_le
  taken_le := h.taken_le
  stays := rfl
  unfinished := by
    intro p hunfinished
    refine h.unfinished p fun hfinished => hunfinished ⟨hfinished.1, ?_⟩
    have hold := hfinished.2
    rw [hwork] at hold
    exact hold
  products := h.products
  listed := h.listed
  children := by
    intro event' product' rows' called' hwork'
    obtain ⟨rfl, rfl, rfl, -⟩ := Work.cascade.inj hwork'
    exact h.children _ _ _ _ hwork
  held := by
    intro c' hc'
    obtain ⟨hold, hne⟩ := holds_call_of_childCall hcall hc'
    refine (h.held c' hold).imp_right ?_
    rintro ⟨row, hrow, hrowCall⟩
    rw [hwork] at hrow
    rcases List.mem_cons.mp hrow with rfl | hrest
    · exact absurd (Option.some.inj (hrowCall.symm.trans hcall)) hne
    · exact ⟨row, hrest, hrowCall⟩
  routes := by
    intro p hp
    refine h.routes p ?_
    rwa [← routeProducts_call_of_childCall hcall]
  released := by
    intro x hx
    rcases List.mem_cons.mp hx with rfl | hold
    · obtain ⟨hdel, hrows⟩ := h.children _ _ _ _ hwork
      refine ⟨Nat.le_refl _, product, hdel, hrows (iri, resourceType) List.mem_cons_self, ?_⟩
      change isDeleted product (s.log.take s.log.length) = true
      rw [List.take_length]
      refine h.unfinished product fun hfinished => ?_
      have hnot := hfinished.2
      rw [hwork] at hnot
      exact absurd rfl (of_decide_eq_false hnot)
    · exact h.released x hold

/-! ### The step of the provisioner -/

/-- Taking a declaration. -/
theorem ReleaseSound.take_declared (h : ReleaseSound cfg s) (hidle : s.provisioner.work = .idle)
    (he : s.log[s.provisioner.taken]? = some e) (htype : e.eventType = "ResourceDeclared")
    (error : Option String) :
    ReleaseSound cfg (s.withProvisioner { s.provisioner with
      taken := s.provisioner.taken + 1
      work := (takeEvent cfg s.graph e error s.provisioner.backends).1
      backends := (takeEvent cfg s.graph e error s.provisioner.backends).2 }) := by
  have hknown := h.known e (List.mem_of_getElem? he)
  have hdelete : ∀ product, deletedBy e ≠ some product := by
    intro product hdel
    rw [deletedBy_eq_none (by rw [htype]; decide)] at hdel
    cases hdel
  generalize hwb : takeEvent cfg s.graph e error s.provisioner.backends = wb
  unfold takeEvent at hwb
  rw [if_pos htype] at hwb
  split at hwb
  · next resourceType iri hresourceType hiri =>
    subst hwb
    refine h.take hidle he rfl (fun _ hw => by cases hw) (fun _ _ _ _ hw => by cases hw)
      (fun x _ hdel => absurd hdel (hdelete _)) (fun c hc => ?_) fun product hproduct => ?_
    · cases error with
      | some reason => exact Or.inl hc
      | none =>
        rcases holds_provisionCalls hc with hold | ⟨t, r, ht, hr, hcall⟩
        · exact Or.inl hold
        · obtain ⟨p, hp, -, -⟩ := hknown.builtFrom htype ht hr
            (List.mem_cons_of_mem _ (childCall_eq_some hcall).1)
          exact Or.inr ⟨⟨p, t, r⟩, childOf_eq_some_iff.mpr ⟨htype, hp, ht, hr⟩, hcall⟩
    · cases error with
      | some reason => exact Or.inl hproduct
      | none =>
        rcases routeProducts_provisionCalls hproduct with hold | ⟨ht, ⟨r, hr⟩, rfl⟩
        · exact Or.inl hold
        · obtain ⟨p, hp, hnamed, -⟩ := hknown.builtFrom htype ht hr List.mem_cons_self
          refine Or.inr ⟨⟨p, "Ingress", r⟩, childOf_eq_some_iff.mpr ⟨htype, hp, ht, hr⟩, rfl, ?_⟩
          rw [hnamed]
          rfl
  · subst hwb
    exact h.take hidle he rfl (fun _ hw => by cases hw) (fun _ _ _ _ hw => by cases hw)
      (fun x _ hdel => absurd hdel (hdelete _)) (fun c hc => Or.inl hc)
      fun product hproduct => Or.inl hproduct

/-- Taking the deletion of a product: the query finds everything that is to be released. -/
theorem ReleaseSound.take_deleted (h : ReleaseSound cfg s) (hidle : s.provisioner.work = .idle)
    (he : s.log[s.provisioner.taken]? = some e) (htype : e.eventType = "ProductDeleted")
    (hmay : MayTake cfg s e) (error : Option String) :
    ReleaseSound cfg (s.withProvisioner { s.provisioner with
      taken := s.provisioner.taken + 1
      work := (takeEvent cfg s.graph e error s.provisioner.backends).1
      backends := (takeEvent cfg s.graph e error s.provisioner.backends).2 }) := by
  obtain ⟨req, rfl⟩ := (h.known e (List.mem_of_getElem? he)).eq_deletedEvent htype
  obtain ⟨hplain, hstands⟩ := hmay req.product rfl
  have hquery : childQuery cfg s.graph (cfg.api.iris.product req.product) =
      childRows cfg.env s.graph (cfg.env.iris.product req.product) := by
    rw [childQuery, cfg.sameDomain, if_pos hplain]
  have htake : takeEvent cfg s.graph (deletedEvent cfg.api req) error s.provisioner.backends =
      (.cascade (deletedEvent cfg.api req) req.product
        (childRows cfg.env s.graph (cfg.env.iris.product req.product)) false,
        s.provisioner.backends) := by
    unfold takeEvent
    rw [if_neg (by rw [htype]; decide), if_pos htype, ← hquery]
    rfl
  rw [htake]
  refine h.take hidle he rfl (fun product hw => congrArg some (of_decide_eq_true hw)) ?_ ?_
    (fun c hc => Or.inl hc) fun product hproduct => Or.inl hproduct
  · intro event product rows called hwork row hrow
    obtain ⟨-, rfl, rfl, -⟩ := Work.cascade.inj hwork
    exact within_of_startsWith (startsWith_of_mem_childRows hrow)
  · intro x hx hdel hstanding
    have hproduct : x.product = req.product := (Option.some.inj hdel).symm
    obtain ⟨f, hf, hchild⟩ := exists_childOf hstanding
    obtain ⟨-, hprojected⟩ := hstands f hf x hchild hproduct hx hstanding
    refine mem_childRows (h.listed x hx hprojected) ?_
    obtain ⟨hevent, hp, ht, hr⟩ := childOf_eq_some_iff.mp hchild
    obtain ⟨p, hp', -, kind, name, hiri⟩ := (h.known f (List.mem_of_mem_take hf)).builtFrom hevent
      ht hr (List.mem_cons_of_mem _ hx)
    obtain rfl : x.product = p := Option.some.inj (hp.symm.trans hp')
    rw [hiri, hproduct, cfg.sameDomain]
    exact startsWith_resource cfg.env.iris req.product kind name

/-- Taking any event. -/
theorem ReleaseSound.take_event (h : ReleaseSound cfg s) (hidle : s.provisioner.work = .idle)
    (he : s.log[s.provisioner.taken]? = some e) (hmay : MayTake cfg s e) (error : Option String) :
    ReleaseSound cfg (s.withProvisioner { s.provisioner with
      taken := s.provisioner.taken + 1
      work := (takeEvent cfg s.graph e error s.provisioner.backends).1
      backends := (takeEvent cfg s.graph e error s.provisioner.backends).2 }) := by
  by_cases hdeclared : e.eventType = "ResourceDeclared"
  · exact h.take_declared hidle he hdeclared error
  by_cases hdeleted : e.eventType = "ProductDeleted"
  · exact h.take_deleted hidle he hdeleted hmay error
  have hnone : ∀ x : Child, deletedBy e = some x.product → False := by
    intro x hdel
    rw [deletedBy_eq_none hdeleted] at hdel
    cases hdel
  have hstays := (h.known e (List.mem_of_getElem? he)).ne_nodeUnreachable
  unfold takeEvent
  rw [if_neg hdeclared, if_neg hdeleted, if_neg hstays]
  exact h.take hidle he rfl (fun _ hw => by cases hw) (fun _ _ _ _ hw => by cases hw)
    (fun x _ hdel => (hnone x hdel).elim) (fun c hc => Or.inl hc)
    fun product hproduct => Or.inl hproduct

/-- An event that says nothing on products and declares nothing. -/
structure Neutral (e : EventEnvelope) : Prop where
  child : childOf e = none
  deleted : deletedBy e = none
  deployed : deployedBy e = none
  product : e.str "product" = none

theorem Apart.append {log : List EventEnvelope} (h : Apart log) (he : Neutral e) :
    Apart (log ++ [e]) := by
  intro f hf x hx htype d hd product hdel hne
  rw [List.mem_append, List.mem_singleton] at hf hd
  obtain hf : f ∈ log := by
    refine hf.resolve_right ?_
    rintro rfl
    rw [he.child] at hx
    cases hx
  obtain hd : d ∈ log := by
    refine hd.resolve_right ?_
    rintro rfl
    rw [he.deleted] at hdel
    cases hdel
  obtain ⟨hwithin, hgiven⟩ := h f hf x hx htype d hd product hdel hne
  refine ⟨hwithin, fun g hg hsource => ?_⟩
  rcases List.mem_append.mp hg with hg | hg
  · exact hgiven g hg hsource
  · rw [List.mem_singleton.mp hg, he.product]
    simp

/-- The provisioner appends an event of its own. -/
theorem ReleaseSound.append_own (h : ReleaseSound cfg s) (hknown : KnownEvent cfg e)
    (he : Neutral e) (hremoved : e.eventType = "ResourceDeleted" → ∀ x,
      x.resourceType ∈ releasedTypes → x.iri = resourceOf e → isStanding x s.log = false) :
    ReleaseSound cfg (s.append e) := by
  have hchild : ∀ x, childOf e ≠ some x := by simp [he.child]
  have hdel : ∀ product, deletedBy e ≠ some product := by simp [he.deleted]
  have hdeploy : ∀ product, deployedBy e ≠ some product := by simp [he.deployed]
  exact h.append (h.toLogSound.append hknown (h.apart.append he)
    (fun x hx => absurd hx (hchild x)) (fun x hx => absurd hx (hchild x))
    (fun product hp => absurd hp (hdel product)) hremoved)
    fun product hp => absurd hp (hdeploy product)

/-- An append that the log may refuse. -/
theorem ReleaseSound.append_slot (h : ReleaseSound cfg s) (happend : ReleaseSound cfg (s.append e))
    (slot : Slot) : ReleaseSound cfg { s with log := s.log ++ slot.appended e } := by
  unfold Slot.appended
  cases slot.refused with
  | none => exact happend
  | some error =>
    rw [List.append_nil]
    exact h

theorem neutral_provisionResult (pcfg : ProvisionConfig) (id : Uuid) (now : ℤ)
    (event : EventEnvelope) (iri : String) (error : Option String) :
    Neutral (provisionResult pcfg id now event iri error) := by
  cases error with
  | none => exact ⟨childOf_eq_none (show "ResourceReady" ≠ _ by decide),
      deletedBy_eq_none (show "ResourceReady" ≠ _ by decide),
      deployedBy_eq_none (show "ResourceReady" ≠ _ by decide), rfl⟩
  | some reason => exact ⟨childOf_eq_none (show "ResourceFailed" ≠ _ by decide),
      deletedBy_eq_none (show "ResourceFailed" ≠ _ by decide),
      deployedBy_eq_none (show "ResourceFailed" ≠ _ by decide), rfl⟩

theorem neutral_resourceDeletedEvent (iris : IriBuilder) (slot : Slot) (event : EventEnvelope)
    (product iri : String) : Neutral (resourceDeletedEvent iris slot event product iri) :=
  ⟨childOf_eq_none (show "ResourceDeleted" ≠ _ by decide),
    deletedBy_eq_none (show "ResourceDeleted" ≠ _ by decide),
    deployedBy_eq_none (show "ResourceDeleted" ≠ _ by decide), rfl⟩

/-- Nothing stands of a product that is being released. -/
theorem ReleaseSound.not_standing (h : ReleaseSound cfg s) {event : EventEnvelope}
    {product : String} {rows : List (String × String)} {called : Bool}
    (hwork : s.provisioner.work = .cascade event product rows called) {x : Child}
    (htype : x.resourceType ∈ releasedTypes) (hwithin : within product x.iri = true) :
    isStanding x s.log = false := by
  rw [Bool.eq_false_iff]
  intro hstanding
  obtain ⟨⟨d, hd, hdel⟩, -⟩ := h.children _ _ _ _ hwork
  by_cases hproduct : product = x.product
  · have hdeleted : isDeleted product s.log = true := by
      refine h.unfinished product fun hfinished => ?_
      have hnot := hfinished.2
      rw [hwork] at hnot
      exact absurd rfl (of_decide_eq_false hnot)
    rw [h.fallen x (List.mem_cons_of_mem _ htype) (hproduct ▸ hdeleted)] at hstanding
    cases hstanding
  · rw [(h.outOfReach htype (exists_childOf hstanding) hd hdel hproduct).1] at hwithin
    cases hwithin

/-- A step of the provisioner. -/
theorem ReleaseSound.provision (h : ReleaseSound cfg s) {o : StepOutcome}
    (hmay : MayProvision cfg s o s.provisioner.work) {p : Provisioner} {events : List EventEnvelope}
    (hnext : s.provisioner.next cfg s.log s.graph o = some (p, events)) :
    ReleaseSound cfg { s with log := s.log ++ events, provisioner := p } := by
  unfold Provisioner.next at hnext
  dsimp only at hnext
  split at hnext
  case h_1 hidle =>
    obtain ⟨e, he, heq⟩ := Option.map_eq_some_iff.mp hnext
    cases heq
    rw [hidle] at hmay
    rw [List.append_nil]
    exact h.take_event hidle he (hmay e he) o.error
  case h_2 event iri error hwork =>
    cases hnext
    have hown := h.append_own (.reported o.slot.id o.slot.now event iri error)
      (neutral_provisionResult _ _ _ event iri error) fun htype => by
        cases error with
        | none => exact absurd htype (show "ResourceReady" ≠ "ResourceDeleted" by decide)
        | some reason => exact absurd htype (show "ResourceFailed" ≠ "ResourceDeleted" by decide)
    have hlog := h.append_slot hown o.slot
    generalize o.slot.appended _ = events at hlog ⊢
    exact hlog.setWork rfl (fun _ hw => by cases hw) (fun _ _ _ _ hw => by cases hw)
      (by simp [hwork, Work.pending])
  case h_3 event product called hwork =>
    cases hnext
    rw [List.append_nil]
    exact h.setWork rfl (fun _ hw => by cases hw) (fun _ _ _ _ hw => by cases hw)
      (by cases called <;> simp [hwork, Work.pending])
  case h_4 event product iri resourceType rows hwork =>
    rw [hwork] at hmay
    have herror : o.error = none := hmay
    obtain ⟨-, hrows⟩ := h.children _ _ _ _ hwork
    cases hcall : childCall iri resourceType with
    | some c =>
      rw [hcall, herror] at hnext
      cases hnext
      rw [List.append_nil]
      exact h.call hwork hcall
    | none =>
      rw [hcall, herror] at hnext
      cases hnext
      rw [List.append_nil]
      refine h.setWork rfl (fun _ hw => by rw [hwork]; exact hw) ?_ ?_
      · intro event' product' rows' called' hwork'
        obtain ⟨-, rfl, rfl, -⟩ := Work.cascade.inj hwork'
        exact hrows
      · intro row hrow c hc
        rw [hwork] at hrow
        rcases List.mem_cons.mp hrow with rfl | hrest
        · rw [hcall] at hc
          cases hc
        · exact hrest
  case h_5 event product iri resourceType rows hwork =>
    cases hnext
    obtain ⟨-, hrows⟩ := h.children _ _ _ _ hwork
    have hown : ReleaseSound cfg
        (s.append (resourceDeletedEvent cfg.env.iris o.slot event product iri)) := by
      refine h.append_own (.removed o.slot event product iri)
        (neutral_resourceDeletedEvent _ o.slot event product iri) fun _ x htype hiri => ?_
      have hx : x.iri = iri := hiri
      refine h.not_standing hwork htype ?_
      rw [hx]
      exact hrows (iri, resourceType) List.mem_cons_self
    have hlog := h.append_slot hown o.slot
    generalize o.slot.appended _ = events at hlog ⊢
    refine hlog.setWork rfl (fun _ hw => ?_) ?_ ?_
    · change s.provisioner.work.releases _ = true
      rw [hwork]
      exact hw
    · intro event' product' rows' called' hwork'
      obtain ⟨-, rfl, rfl, -⟩ := Work.cascade.inj hwork'
      exact fun row hrow => hrows row (List.mem_cons_of_mem _ hrow)
    · intro row hrow c _
      change row ∈ s.provisioner.work.pending at hrow
      rw [hwork] at hrow
      exact hrow
  case h_6 hwork =>
    have hstays := h.stays
    rw [hwork] at hstays
    cases hstays
  case h_7 hwork =>
    have hstays := h.stays
    rw [hwork] at hstays
    cases hstays
  case h_8 hwork =>
    have hstays := h.stays
    rw [hwork] at hstays
    cases hstays

/-- **One action keeps the invariant.** -/
theorem ReleaseSound.next (h : ReleaseSound cfg s) {a : NodeAct} (hmeet : Orderly cfg s a)
    {s' : NodeState} (hnext : nodeNext cfg s a = some s') : ReleaseSound cfg s' := by
  cases a with
  | handle handler =>
    obtain ⟨e, he, rfl⟩ := Option.map_eq_some_iff.mp hnext
    exact h.handle he (hmeet e he)
  | project =>
    obtain ⟨e, he, rfl⟩ := Option.map_eq_some_iff.mp hnext
    exact h.project he
  | provision o =>
    obtain ⟨⟨p, events⟩, hp, rfl⟩ := Option.map_eq_some_iff.mp hnext
    exact h.provision hmeet hp

end Steps

/-! ## Runs -/

section Runs

variable {cfg : NodeConfig} {s : NodeState}

/-- What stands is of no deleted product. -/
theorem LogSound.not_ofProduct {log : List EventEnvelope} (h : LogSound cfg log) {x : Child}
    (htype : x.resourceType ∈ releasedTypes) (hstanding : isStanding x log = true)
    {product : String} (hdeleted : isDeleted product log = true) :
    ¬ OfProduct log product x.iri := by
  rintro ⟨e, he, t, ht, hchild⟩
  by_cases hproduct : product = x.product
  · rw [h.fallen x (List.mem_cons_of_mem _ htype) (hproduct ▸ hdeleted)] at hstanding
    cases hstanding
  · obtain ⟨d, hd, hdel⟩ := exists_deletedBy hdeleted
    have houtside := (h.outOfReach htype (exists_childOf hstanding) hd hdel hproduct).1
    obtain ⟨hevent, hp, hresourceType, hiri⟩ := childOf_eq_some_iff.mp hchild
    obtain ⟨p, hp', -, kind, name, hbuilt⟩ := (h.known e he).builtFrom hevent hresourceType hiri
      (List.mem_cons_of_mem _ ht)
    obtain rfl : product = p := Option.some.inj (hp.symm.trans hp')
    have hwithin : within product x.iri = true := by
      refine @within_of_startsWith cfg.api.iris _ _ ?_
      rw [show x.iri = _ from hbuilt]
      exact startsWith_resource cfg.api.iris product kind name
    rw [houtside] at hwithin
    cases hwithin

theorem ReleaseSound.standing_of_settled (h : ReleaseSound cfg s) (hsettled : s.Settled)
    {c : BackendCall} (hc : s.provisioner.backends.Holds c) :
    ∃ x : Child, childCall x.iri x.resourceType = some c ∧ isStanding x s.log = true := by
  obtain ⟨-, htaken, hidle⟩ := hsettled
  rcases h.held c hc with ⟨x, hcall, hstanding⟩ | ⟨row, hrow, -⟩
  · rw [htaken, List.take_length] at hstanding
    exact ⟨x, hcall, hstanding⟩
  · rw [hidle] at hrow
    cases hrow

theorem ReleaseSound.releasesDeleted (h : ReleaseSound cfg s) : ReleasesDeleted s where
  released := by
    intro hsettled product hdeleted
    refine ⟨fun w hw => ?_, fun v hv => ?_, fun hproduct => ?_⟩
    · have hholds : s.provisioner.backends.Holds (.stop w.1) := List.mem_map_of_mem hw
      obtain ⟨x, hcall, hstanding⟩ := h.standing_of_settled hsettled hholds
      obtain ⟨htype, ⟨-, heq⟩ | ⟨-, heq⟩⟩ := childCall_eq_some hcall
      · rw [show w.1 = ⟨x.iri⟩ from BackendCall.stop.inj heq]
        exact h.not_ofProduct htype hstanding hdeleted
      · cases heq
    · have hholds : s.provisioner.backends.Holds (.deleteVolume v) := hv
      obtain ⟨x, hcall, hstanding⟩ := h.standing_of_settled hsettled hholds
      obtain ⟨htype, ⟨-, heq⟩ | ⟨-, heq⟩⟩ := childCall_eq_some hcall
      · cases heq
      · rw [show v = ⟨x.iri⟩ from BackendCall.deleteVolume.inj heq]
        exact h.not_ofProduct htype hstanding hdeleted
    · obtain ⟨e, he, x, hchild, htype, hx⟩ := h.routes product hproduct
      exact h.noRoutes product hdeleted e he x hchild htype hx
  others := by
    rintro x hx product ⟨e, he, t, ht, hchild⟩
    obtain ⟨-, p, ⟨d, hd, hdel⟩, hwithin, hdeleted⟩ := h.released x hx
    by_cases hproduct : p = product
    · exact hproduct ▸ hdeleted
    · have houtside := (h.apart e he _ hchild ht d hd p hdel hproduct).1
      rw [show within p x.1.value = false from houtside] at hwithin
      cases hwithin

/-- **In a run of orderly actions, deleted products are released, and nothing else is.** -/
theorem deletion_releases (cfg : NodeConfig) {acts : List NodeAct} {s : NodeState}
    (hmeet : StepsMeet (nodeNext cfg) (Orderly cfg) nodeStart acts)
    (hrun : runSteps (nodeNext cfg) nodeStart acts = some s) : ReleasesDeleted s :=
  (runSteps_invariant (nodeNext cfg) (I := ReleaseSound cfg)
    (fun _ _ _ h hmay hnext => h.next hmay hnext) acts nodeStart s (releaseSound_start cfg) hmeet
    hrun).releasesDeleted

end Runs

/-! ### A product with a volume -/

/-- A node whose queries all answer. -/
def sampleNode : NodeConfig where
  env := plainEnv
  api := sampleApi
  isUrl := fun _ => true
  injected := fun _ _ => []
  injectedWorkloads := fun _ _ => []
  sameDomain := rfl

/-- A handler appends a declaration. -/
def handleDeclaration (id : Uuid) (decl : ResourceDeclaration) : NodeAct :=
  .handle (.declaration (sampleApply 1 []) ⟨id, 0, none⟩ decl)

/-- A step of the provisioner in which everything succeeds. -/
def provisionStep (id : Uuid) : NodeAct := .provision ⟨⟨id, 0, none⟩, 0, none⟩

/-- The product is applied, its volume is allocated, and the product is deleted. -/
def appliedAndDeleted : List NodeAct :=
  [handleDeclaration 1 (sampleProduct "shop"), handleDeclaration 2 (sampleVolume "shop" "data"),
    .project, .project, provisionStep 3, provisionStep 4, provisionStep 5, .project,
    provisionStep 6, .handle (.deletion ⟨"shop", 2, ⟨7, 0, none⟩⟩)]

/-- The provisioner takes the deletion before the projection loop does. -/
def releasedFirst : List NodeAct :=
  appliedAndDeleted ++ [provisionStep 8, provisionStep 9, provisionStep 10, provisionStep 11,
    .project, .project, provisionStep 12]

/-- The node has processed everything, the product is deleted, and these volumes are allocated. -/
def deletedWith (volumes : List ResourceIri) (s : NodeState) : Prop :=
  s.Settled ∧ isDeleted "shop" s.log = true ∧ s.provisioner.backends.volumes = volumes

instance (s : NodeState) : Decidable s.Settled := inferInstanceAs (Decidable (_ ∧ _))

instance (volumes : List ResourceIri) (s : NodeState) : Decidable (deletedWith volumes s) :=
  inferInstanceAs (Decidable (_ ∧ _))

theorem deletion_releases_volume :
    ∃ s, runSteps (nodeNext sampleNode) nodeStart releasedFirst = some s ∧ deletedWith [] s ∧
      ReleasesDeleted s := by
  have hmeet : StepsMeet (nodeNext sampleNode) (Orderly sampleNode) nodeStart releasedFirst := by
    decide +kernel
  have hrun : ∃ s ∈ runSteps (nodeNext sampleNode) nodeStart releasedFirst, deletedWith [] s := by
    decide +kernel
  obtain ⟨s, hs, hdeleted⟩ := hrun
  exact ⟨s, hs, hdeleted, deletion_releases sampleNode hmeet hs⟩

/-- The projection loop takes the deletion before the provisioner does. -/
def projectedFirst : List NodeAct :=
  appliedAndDeleted ++ [.project, provisionStep 8, provisionStep 9]

/-- The volume of the sample product. -/
def shopData : ResourceIri := ⟨"https://picloud.local/products/shop/volumes/data"⟩

/-- The volume of the deleted product stays allocated. -/
theorem volume_left_allocated :
    ∃ s, runSteps (nodeNext sampleNode) nodeStart projectedFirst = some s ∧
      deletedWith [shopData] s ∧ ¬ ReleasesDeleted s := by
  have hrun : ∃ s ∈ runSteps (nodeNext sampleNode) nodeStart projectedFirst,
      deletedWith [shopData] s ∧
        ∃ e ∈ s.log, childOf e = some ⟨"shop", "Volume", shopData.value⟩ := by
    decide +kernel
  obtain ⟨s, hs, hdeleted, e, he, hchild⟩ := hrun
  refine ⟨s, hs, hdeleted, fun h => ?_⟩
  obtain ⟨hsettled, hshop, hvolumes⟩ := hdeleted
  obtain ⟨-, hleft, -⟩ := h.released hsettled "shop" hshop
  exact hleft shopData (by simp [hvolumes]) ⟨e, he, "Volume", by decide, hchild⟩

end Picloud
