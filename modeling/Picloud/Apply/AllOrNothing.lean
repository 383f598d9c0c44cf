import Picloud.Apply.Alone
import Picloud.Domain.ProvisioningOrder

/-!
# Refused requests

A file whose second product is refused has recorded its first one by then: the checks of a product
stand in the same loop as the appends of the declarations before it. A refused request leaves the log
alone exactly when the refusal comes before the first declaration that the log accepts.
-/

namespace Picloud

open Lib

/-- The answers 400 and 409. -/
def ApplyAnswer.isRefusal : ApplyAnswer → Bool
  | .badRequest _ | .conflict _ => true
  | _ => false

/-- The log as it was, if the request is refused. -/
def AllOrNothing (cfg : ApiConfig) (req : ApplyRequest) (s : ApiState) : Prop :=
  ((handleApply cfg req).run s).1.isRefusal = true → ((handleApply cfg req).run s).2.log = s.log

/-- The correlation identifier is new: the log has seen no key of this request. -/
def FreshKeys (req : ApplyRequest) (s : ApiState) : Prop :=
  ∀ decl ∈ req.file.resources, applyKey decl req.correlationId ∉ s.log.seenKeys

/-- In the order of provisioning, a product after a declaration that the log accepts is not refused
by the state before the request, and is not that declaration once more; or the state before the
request refuses a declaration that comes no later than the accepted one. -/
def RefusedFirst (cfg : ApiConfig) (req : ApplyRequest) (s : ApiState) : Prop :=
  ∀ j k decl p, j < k → req.file.sortForProvisioning[j]? = some decl →
    req.file.sortForProvisioning[k]? = some (.product p) → (req.slot j 0).refused = none →
    (∃ i ≤ j, ∃ e, req.file.sortForProvisioning[i]? = some e ∧ (refusal cfg s e).isSome) ∨
    (refusal cfg s (.product p) = none ∧ ∀ q, decl = .product q → q.name ≠ p.name)

/-! ## What the events of a request change in the checks -/

/-- The event is none of those that the checks read, but for deployments. -/
def ReadByNoCheck (e : EventEnvelope) : Prop :=
  e.eventType ≠ "ProductDeleted" ∧ e.eventType ≠ "DataProductDeclared" ∧
    e.eventType ≠ "DataProductDeleted"

variable {es : List EventEnvelope}

theorem scanProduct_append {es' : List EventEnvelope} (name : String)
    (h : ∀ e ∈ es', e.eventType ≠ "ProductDeleted") :
    scanProduct name (es ++ es') = (scanProduct name es || es'.any (deploys name)) := by
  unfold scanProduct
  rw [List.foldl_append]
  generalize es.foldl _ false = b
  induction es' generalizing b with
  | nil => simp
  | cons e es' ih =>
    rw [List.foldl_cons, ih fun e he => h e (List.mem_cons_of_mem _ he), List.any_cons,
      ← Bool.or_assoc]
    congr 1
    have hdel := h e List.mem_cons_self
    by_cases htype : e.eventType = "ProductDeployed"
    · by_cases hname : e.str "product_name" = some name <;> simp [deploys, htype, hname]
    · simp [deploys, htype, hdel]

theorem scanDataProduct_append {es' : List EventEnvelope} (dpIri owningProduct dpName : String)
    (h : ∀ e ∈ es', ReadByNoCheck e) :
    scanDataProduct dpIri owningProduct dpName (es ++ es') =
      scanDataProduct dpIri owningProduct dpName es := by
  unfold scanDataProduct
  rw [List.foldl_append]
  generalize es.foldl _ _ = found
  induction es' generalizing found with
  | nil => rfl
  | cons e es' ih =>
    obtain ⟨-, hdeclared, hdeleted⟩ := h e List.mem_cons_self
    rw [List.foldl_cons, ← ih (fun e he => h e (List.mem_cons_of_mem _ he)) found]
    simp [hdeclared, hdeleted]

/-- ReadByNoCheck events change the checks of a product only if they deploy it. -/
theorem refusal_isSome_of_append {cfg : ApiConfig} {s s' : ApiState}
    (hlog : s'.log.events = s.log.events ++ es) (hgraph : s'.graph = s.graph)
    (h : ∀ e ∈ es, ReadByNoCheck e) (p : ProductDecl) :
    (refusal cfg s' (.product p)).isSome ↔
      (refusal cfg s (.product p)).isSome ∨ es.any (deploys p.name) = true := by
  have hexists : existsIn cfg s' p.name = (existsIn cfg s p.name || es.any (deploys p.name)) := by
    rw [existsIn, existsIn, hlog, hgraph, scanProduct_append p.name fun e he => (h e he).1,
      Bool.or_right_comm]
  have hdeps : dependencyRefusal cfg s' p = dependencyRefusal cfg s p := by
    funext dep
    simp only [dependencyRefusal, dataProductIn, hlog, hgraph, scanDataProduct_append _ _ _ h]
  simp only [refusal, hexists, hdeps]
  cases existsIn cfg s p.name <;> cases es.any (deploys p.name) <;> simp

/-! ## The events of the first declarations -/

/-- The events of what is provisioned before a product, or as one. -/
theorem declared_early {cfg : ApiConfig} {decl : ResourceDeclaration} {d : Declared}
    (horder : decl.provisioningOrder ≤ 1) (hd : declared cfg decl = some d) :
    (d.eventType = "CapabilityDeclared" ∨ d.eventType = "DataDomainDeclared") ∧
        (∀ q, decl ≠ .product q) ∨
      d.eventType = "ProductDeployed" ∧ ∃ q, decl = .product q := by
  cases decl with
  | product p =>
    obtain rfl := Option.some.inj hd
    exact Or.inr ⟨rfl, p, rfl⟩
  | capability c =>
    obtain rfl := Option.some.inj hd
    exact Or.inl ⟨Or.inl rfl, by simp⟩
  | dataDomain c =>
    obtain rfl := Option.some.inj hd
    exact Or.inl ⟨Or.inr rfl, by simp⟩
  | _ => simp [ResourceDeclaration.provisioningOrder] at horder

section

variable {cfg : ApiConfig} {req : ApplyRequest}

@[simp] theorem declaredEvent_eventType (slot : Slot) (decl : ResourceDeclaration) (d : Declared) :
    (declaredEvent cfg req slot decl d).eventType = d.eventType := rfl

@[simp] theorem declaredEvent_idempotencyKey (slot : Slot) (decl : ResourceDeclaration)
    (d : Declared) : (declaredEvent cfg req slot decl d).idempotencyKey =
      some (applyKey decl req.correlationId) := rfl

@[simp] theorem tagEvent_eventType (slot : Slot) (decl : ResourceDeclaration)
    (tag : String × String) : (tagEvent cfg req slot decl tag).eventType = "TagAdded" := rfl

@[simp] theorem tagEvent_idempotencyKey (slot : Slot) (decl : ResourceDeclaration)
    (tag : String × String) : (tagEvent cfg req slot decl tag).idempotencyKey = none := rfl

theorem deploys_declaredEvent {slot : Slot} {q : ProductDecl} {d : Declared} {name : String}
    (hd : declared cfg (.product q) = some d) :
    deploys name (declaredEvent cfg req slot (.product q) d) = true ↔ q.name = name := by
  obtain rfl := Option.some.inj hd
  have hstr : (declaredEvent cfg req slot (.product q) ⟨cfg.iris.product q.name, "ProductDeployed",
      none, .object [("product_iri", .string (cfg.iris.product q.name)),
        ("product_name", .string q.name), ("version", .string q.version),
        ("description", optText q.description),
        ("data_products", .array (q.dataProducts.map fun d =>
          .object [("source", .string d.source), ("min_version", .string d.minVersion)]))]⟩).str
        "product_name" = some q.name := rfl
  simp [deploys, hstr]

variable {decls : List ResourceDeclaration} {s : ApiState}

theorem attempts_readByNoCheck {i : ℕ} (horder : ∀ decl ∈ decls, decl.provisioningOrder ≤ 1) :
    ∀ e ∈ attempts cfg req i decls, ReadByNoCheck e := by
  intro e he
  obtain ⟨j, decl, d, hj, hd, -, rfl | htag⟩ := attempts_cases he
  · rcases declared_early (horder decl (List.mem_of_getElem? hj)) hd with
      ⟨htype | htype, -⟩ | ⟨htype, -⟩ <;> simp [ReadByNoCheck, htype]
  · obtain ⟨slot, tag, rfl⟩ := mem_tagAttempts htag
    simp [ReadByNoCheck]

/-- A product is deployed by the request when the log accepts one of that name. -/
theorem any_deploys_iff {i : ℕ} {seen : List String}
    (horder : ∀ decl ∈ decls, decl.provisioningOrder ≤ 1)
    (hfresh : ∀ decl ∈ decls, applyKey decl req.correlationId ∉ seen) (name : String) :
    (keepFirst EventEnvelope.idempotencyKey seen (attempts cfg req i decls)).any (deploys name) =
      true ↔ ∃ j q, decls[j]? = some (.product q) ∧ q.name = name ∧
        (req.slot (i + j) 0).refused = none := by
  rw [List.any_eq_true]
  constructor
  · rintro ⟨e, he, hdeploys⟩
    obtain ⟨j, decl, d, hj, hd, hslot, rfl | htag⟩ :=
      attempts_cases ((keepFirst_sublist seen _).subset he)
    · rcases declared_early (horder decl (List.mem_of_getElem? hj)) hd with
        ⟨htype | htype, -⟩ | ⟨-, q, rfl⟩
      · simp [deploys, htype] at hdeploys
      · simp [deploys, htype] at hdeploys
      · exact ⟨j, q, hj, (deploys_declaredEvent hd).mp hdeploys, hslot⟩
    · obtain ⟨slot, tag, rfl⟩ := mem_tagAttempts htag
      simp [deploys] at hdeploys
  · rintro ⟨j, q, hj, rfl, hslot⟩
    obtain ⟨d, hd⟩ : ∃ d, declared cfg (.product q) = some d := ⟨_, rfl⟩
    obtain ⟨e, he, hkey⟩ := exists_mem_keepFirst (declaredEvent_mem_attempts hj hd hslot)
      (declaredEvent_idempotencyKey _ _ d) (hfresh _ (List.mem_of_getElem? hj))
    refine ⟨e, he, ?_⟩
    -- the event that is kept has the same key, so it deploys a product of the same name
    obtain ⟨l, decl, d', hl, hd', -, rfl | htag⟩ :=
      attempts_cases ((keepFirst_sublist seen _).subset he)
    · rw [declaredEvent_idempotencyKey, Option.some.injEq] at hkey
      obtain ⟨htype, hname⟩ := applyKey_inj hkey
      rcases declared_early (horder decl (List.mem_of_getElem? hl)) hd' with
        ⟨-, hother⟩ | ⟨-, r, rfl⟩
      · exact absurd htype (by cases decl <;> simp_all [ResourceDeclaration.resourceType])
      · exact (deploys_declaredEvent hd').mpr hname
    · obtain ⟨slot, tag, rfl⟩ := mem_tagAttempts htag
      simp at hkey

/-- The log has changed as soon as it has accepted an event. -/
theorem log_recordedAll_eq_iff (horder : ∀ decl ∈ decls, decl.provisioningOrder ≤ 1)
    (hfresh : ∀ decl ∈ decls, applyKey decl req.correlationId ∉ s.log.seenKeys) :
    (recordedAll cfg req 0 decls s).log = s.log ↔
      ∀ j decl, decls[j]? = some decl → (req.slot j 0).refused ≠ none := by
  constructor
  · intro hlog j decl hj hslot
    obtain ⟨d, hd⟩ : ∃ d, declared cfg decl = some d := by
      have := horder decl (List.mem_of_getElem? hj)
      cases decl <;> simp [ResourceDeclaration.provisioningOrder, declared] at this ⊢
    obtain ⟨e, he, -⟩ := exists_mem_keepFirst
      (declaredEvent_mem_attempts hj hd ((Nat.zero_add j).symm ▸ hslot))
      (declaredEvent_idempotencyKey _ _ d) (hfresh _ (List.mem_of_getElem? hj))
    have hevents := @events_recordedAll cfg req 0 decls s
    rw [hlog, List.self_eq_append_right] at hevents
    exact absurd (hevents ▸ he) List.not_mem_nil
  · intro hrefused
    have hnone : attempts cfg req 0 decls = [] := by
      refine List.eq_nil_iff_forall_not_mem.mpr fun e he => ?_
      obtain ⟨j, decl, d, hj, -, hslot, -⟩ := attempts_cases he
      exact hrefused j decl hj (Nat.zero_add j ▸ hslot)
    rw [recordedAll_eq, hnone]
    rfl

/-- Refusals are 400 or 409, and only products are refused. -/
theorem refusal_cases {decl : ResourceDeclaration} {answer : ApplyAnswer}
    (h : refusal cfg s decl = some answer) :
    answer.isRefusal = true ∧ ∃ p, decl = .product p := by
  cases decl with
  | product p =>
    refine ⟨?_, p, rfl⟩
    rw [refusal] at h
    split_ifs at h
    · obtain rfl := Option.some.inj h
      rfl
    · obtain ⟨dep, -, hdep⟩ := List.exists_of_findSome?_eq_some h
      unfold dependencyRefusal at hdep
      split at hdep
      · obtain rfl := Option.some.inj hdep
        rfl
      · unfold judgeDependency at hdep
        split_ifs at hdep
        · obtain rfl := Option.some.inj hdep
          rfl
        · split at hdep
          · split_ifs at hdep
            obtain rfl := Option.some.inj hdep
            rfl
          · cases hdep
  | _ => cases h

/-! ## The requests that leave the log alone -/

/-- What comes before a product is provisioned no later than products. -/
theorem provisioningOrder_le_of_lt {file : ResourceFile} {k : ℕ} {p : ProductDecl}
    (hk : file.sortForProvisioning[k]? = some (.product p)) :
    ∀ decl ∈ file.sortForProvisioning.take k, decl.provisioningOrder ≤ 1 := by
  intro decl hdecl
  obtain ⟨j, hj, rfl⟩ := List.mem_iff_getElem.mp hdecl
  rw [List.length_take] at hj
  obtain ⟨hlt, hget⟩ := List.getElem?_eq_some_iff.mp hk
  have hle := List.pairwise_iff_getElem.mp ResourceFile.pairwise_sortForProvisioning j k (by omega)
    hlt (by omega)
  rw [hget] at hle
  rw [List.getElem_take]
  exact hle

/-- When a product is refused in the course of a request. -/
theorem refusal_recordedAll_isSome_iff (hfresh : FreshKeys req s) {k : ℕ} {p : ProductDecl}
    (hk : req.file.sortForProvisioning[k]? = some (.product p)) :
    (refusal cfg (recordedAll cfg req 0 (req.file.sortForProvisioning.take k) s)
        (.product p)).isSome ↔
      (refusal cfg s (.product p)).isSome ∨ ∃ j < k, ∃ q,
        req.file.sortForProvisioning[j]? = some (.product q) ∧ q.name = p.name ∧
          (req.slot j 0).refused = none := by
  have horder := provisioningOrder_le_of_lt hk
  have hkeys : ∀ decl ∈ req.file.sortForProvisioning.take k,
      applyKey decl req.correlationId ∉ s.log.seenKeys :=
    fun decl hdecl => hfresh decl ((List.mem_insertionSort _).mp (List.mem_of_mem_take hdecl))
  rw [refusal_isSome_of_append (events_recordedAll 0 _ s) (graph_recordedAll 0 _ s)
    (fun e he => attempts_readByNoCheck horder e ((keepFirst_sublist _ _).subset he)) p,
    any_deploys_iff horder hkeys]
  refine or_congr_right ⟨?_, ?_⟩
  · rintro ⟨j, q, hj, hname, hslot⟩
    rw [List.getElem?_take] at hj
    split_ifs at hj with hjk
    exact ⟨j, hjk, q, hj, hname, Nat.zero_add j ▸ hslot⟩
  · rintro ⟨j, hjk, q, hj, hname, hslot⟩
    exact ⟨j, q, by rw [List.getElem?_take, if_pos hjk, hj], hname, (Nat.zero_add j).symm ▸ hslot⟩

/-- **A refused request leaves the log alone exactly when it is refused before the log has accepted
anything of it.** -/
theorem refused_apply_leaves_log (cfg : ApiConfig) (req : ApplyRequest) (s : ApiState)
    (hfresh : FreshKeys req s) :
    AllOrNothing cfg req s ↔
      (cfg.hasEventLog = true → req.file.validate = .ok () → RefusedFirst cfg req s) := by
  unfold AllOrNothing handleApply
  cases hlog : cfg.hasEventLog with
  | false => simp [ApplyAnswer.isRefusal]
  | true =>
    cases hvalid : req.file.validate with
    | error reason => simp
    | ok u =>
      simp only [Bool.not_true, Bool.false_eq_true, if_false, forall_const]
      -- a declaration that the state before refuses ends the loop at the latest
      have hrefuses : ∀ {i e}, req.file.sortForProvisioning[i]? = some e →
          (refusal cfg s e).isSome →
          refusal cfg (recordedAll cfg req 0 (req.file.sortForProvisioning.take i) s) e ≠ none := by
        intro i e hi he hnone
        obtain ⟨answer, hanswer⟩ := Option.isSome_iff_exists.mp he
        obtain ⟨-, p, rfl⟩ := refusal_cases hanswer
        have := (refusal_recordedAll_isSome_iff hfresh hi).mpr (Or.inl he)
        rw [hnone] at this
        cases this
      rcases @applyLoop_cases cfg req 0 req.file.sortForProvisioning [] s with
        ⟨k, decl, answer, hk, hanswer, hrun, hbefore⟩ | ⟨hrun, hall⟩
      · obtain ⟨hrefusal, p, rfl⟩ := refusal_cases hanswer
        have hsome := Option.isSome_iff_exists.mpr ⟨answer, hanswer⟩
        rw [refusal_recordedAll_isSome_iff hfresh hk] at hsome
        rw [hrun, log_recordedAll_eq_iff (provisioningOrder_le_of_lt hk) fun d hd =>
          hfresh d ((List.mem_insertionSort _).mp (List.mem_of_mem_take hd))]
        simp only [hrefusal, forall_const]
        have hstops : ∀ i < k, ∀ e, req.file.sortForProvisioning[i]? = some e →
            ¬ (refusal cfg s e).isSome := fun i hi e he hsome =>
          hrefuses he hsome (hbefore i hi e he)
        constructor
        · -- nothing is accepted before the refusal, so the refusal is one of the state before
          intro hnone j l d q hjl hj hl hslot
          have hkj : k ≤ j := by
            by_contra hlt
            rw [not_le] at hlt
            exact hnone j d (by rw [List.getElem?_take, if_pos hlt, hj]) hslot
          refine Or.inl ⟨k, hkj, .product p, hk, hsome.resolve_right ?_⟩
          rintro ⟨i, hi, r, hir, -, haccepted⟩
          exact hnone i _ (by rw [List.getElem?_take, if_pos hi, hir]) haccepted
        · intro hfirst j d hj hslot
          rw [List.getElem?_take] at hj
          split_ifs at hj with hjk
          rcases hsome with hstate | ⟨i, hi, q, hiq, hname, haccepted⟩
          · rcases hfirst j k d p hjk hj hk hslot with ⟨i, hij, e, he, hsome⟩ | ⟨hnone, -⟩
            · exact hstops i (by omega) e he hsome
            · rw [hnone] at hstate
              cases hstate
          · rcases hfirst i k _ p hi hiq hk haccepted with ⟨l, hl, e, he, hsome⟩ | ⟨-, hne⟩
            · exact hstops l (by omega) e he hsome
            · exact hne q rfl hname
      · rw [hrun]
        simp only [ApplyAnswer.isRefusal, Bool.false_eq_true, false_implies, true_iff]
        intro j k d p hjk hj hk hslot
        have hnone := hall k _ hk
        have hiff := @refusal_recordedAll_isSome_iff cfg req s hfresh k p hk
        rw [hnone] at hiff
        simp only [Option.isSome_none, Bool.false_eq_true, false_iff, not_or] at hiff
        refine Or.inr ⟨by simpa using hiff.1, fun q hq hname => hiff.2 ⟨j, hjk, q, ?_, hname, hslot⟩⟩
        rw [hj, hq]

end

/-! ## A file with two products -/

/-- The server after a product has been applied. -/
def oneProduct : ApiState :=
  ((applyLoop sampleApi (sampleApply 1 [sampleProduct "shop"]) 0 [sampleProduct "shop"] []).run
    ⟨InMemoryEventLog.new, [], 0⟩).2

/-- The file has the product that exists before a new one: the request is refused before anything is
appended. -/
theorem refused_apply_leaves_log_existing_first :
    ((handleApply sampleApi (sampleApply 2 [sampleProduct "shop", sampleProduct "blog"])).run
      oneProduct).1 = conflictOf "shop" ∧
    AllOrNothing sampleApi (sampleApply 2 [sampleProduct "shop", sampleProduct "blog"]) oneProduct := by
  have hfresh : FreshKeys (sampleApply 2 [sampleProduct "shop", sampleProduct "blog"]) oneProduct := by
    unfold FreshKeys
    decide +kernel
  refine ⟨by decide +kernel, (refused_apply_leaves_log sampleApi _ _ hfresh).mpr fun _ _ => ?_⟩
  intro j k decl p hjk hj hk hslot
  exact Or.inl ⟨0, Nat.zero_le j, sampleProduct "shop", rfl, by decide +kernel⟩

/-- The file deploys a new product and then one that exists: the request is refused, and the new
product stays deployed. -/
theorem refused_apply_deploys :
    FreshKeys (sampleApply 2 [sampleProduct "blog", sampleProduct "shop"]) oneProduct ∧
    ((handleApply sampleApi (sampleApply 2 [sampleProduct "blog", sampleProduct "shop"])).run
      oneProduct).1 = conflictOf "shop" ∧
    ((handleApply sampleApi (sampleApply 2 [sampleProduct "blog", sampleProduct "shop"])).run
      oneProduct).2.log.events.map (fun e => (e.eventType, e.str "product_name")) =
        [("ProductDeployed", some "shop"), ("ProductDeployed", some "blog")] ∧
    ¬ AllOrNothing sampleApi (sampleApply 2 [sampleProduct "blog", sampleProduct "shop"])
      oneProduct := by
  unfold FreshKeys AllOrNothing
  decide +kernel

end Picloud
