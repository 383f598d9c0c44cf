import Picloud.Apply.AllOrNothing

/-!
# Recorded declarations

The idempotency key of a declaration is made of its type and its name, without its product, and the
log passes over an event whose key it has seen. Of several declarations of one type and name in a file
only the first reaches the log, and all of them are reported as declared.
-/

namespace Picloud

open Lib

variable {cfg : ApiConfig} {req : ApplyRequest}

/-! ## Reading a payload -/

/-- The resource types of payloads, with the types they are declared by. -/
def payloadTypes : List (String × String) :=
  [("Volume", "volume"), ("Container", "container"), ("Binary", "binary"),
    ("EventSubscription", "event-subscription"), ("Ingress", "ingress"), ("Secret", "secret"),
    ("Role", "role"), ("ConfigStore", "config"), ("FeatureFlag", "feature-flag"),
    ("Group", "group"), ("InferenceRule", "inference-rule")]

/-- The payloads without a resource type: the field that tells them, the field of the name, and the
type they are declared by. -/
def payloadIris : List (String × String × String) :=
  [("product_iri", "product_name", "product"), ("capability_iri", "name", "capability"),
    ("domain_iri", "name", "data-domain"), ("data_product_iri", "name", "data-product")]

/-- The type and the name of the declaration that a payload records. -/
def identify (payload : Json) : Option (String × String) :=
  match (payload.get? "resource_type").bind Json.asStr with
  | some kind => (payloadTypes.lookup kind).bind fun resourceType =>
    ((payload.get? "name").bind Json.asStr).map fun name => (resourceType, name)
  | none => payloadIris.findSome? fun (iriField, nameField, resourceType) =>
    (payload.get? iriField).bind fun _ =>
      ((payload.get? nameField).bind Json.asStr).map fun name => (resourceType, name)

/-- A payload tells the type and the name of its declaration. -/
theorem identify_declared {decl : ResourceDeclaration} {d : Declared}
    (h : declared cfg decl = some d) :
    identify d.payload = some (decl.resourceType, decl.resourceName) := by
  cases decl with
  | scope s => cases h
  | m2mPermission m => cases h
  | _ =>
    obtain rfl := Option.some.inj h
    rfl

theorem identify_tagEvent (slot : Slot) (decl : ResourceDeclaration) (tag : String × String) :
    identify (tagEvent cfg req slot decl tag).payload = none := rfl

/-! ## The events that carry a declaration -/

/-- The event has the resource IRI and the payload of a declaration. -/
def carries (d : Declared) (e : EventEnvelope) : Bool := e.source = ⟨d.iri⟩ && e.payload = d.payload

/-- The events that a request has added to the log. -/
def newEvents (cfg : ApiConfig) (req : ApplyRequest) (s : ApiState) : List EventEnvelope :=
  ((handleApply cfg req).run s).2.log.events.drop s.log.events.length

/-- The request was answered with 200, and no append has failed. -/
def Applied (cfg : ApiConfig) (req : ApplyRequest) (s : ApiState) : Prop :=
  ∃ results, ((handleApply cfg req).run s).1 = .ok req.correlationId results ∧
    ∀ r ∈ results, r.error = none

/-- The log has got exactly one event for each declaration that is recorded at all, and what is
reported as declared is a declaration that is in the log. -/
def NothingLost (cfg : ApiConfig) (req : ApplyRequest) (s : ApiState) : Prop :=
  (∀ decl ∈ req.file.resources, ∀ d, declared cfg decl = some d →
    (newEvents cfg req s).countP (carries d) = 1) ∧
  ∀ results, ((handleApply cfg req).run s).1 = .ok req.correlationId results →
    ∀ r ∈ results, r.error = none → ∃ decl ∈ req.file.resources, ∃ d, declared cfg decl = some d ∧
      r.name = decl.resourceName ∧ r.resourceType = decl.resourceType ∧
      ∃ e ∈ newEvents cfg req s, carries d e = true

/-- Two declarations of one type and name are recorded with the same IRI and the same payload. -/
def NamedOnce (cfg : ApiConfig) (file : ResourceFile) : Prop :=
  ∀ decl ∈ file.resources, ∀ decl' ∈ file.resources, ∀ d d',
    declared cfg decl = some d → declared cfg decl' = some d' →
    decl.resourceType = decl'.resourceType → decl.resourceName = decl'.resourceName →
    d.iri = d'.iri ∧ d.payload = d'.payload

theorem carries_declaredEvent {slot : Slot} {decl : ResourceDeclaration} {d d' : Declared} :
    carries d (declaredEvent cfg req slot decl d') = true ↔ d'.iri = d.iri ∧ d'.payload = d.payload := by
  rw [carries, Bool.and_eq_true, decide_eq_true_eq, decide_eq_true_eq]
  exact and_congr_left' ⟨ResourceIri.mk.inj, congrArg ResourceIri.mk⟩

/-- What carries a declaration has its key. -/
theorem key_of_carries {i : ℕ} {decls : List ResourceDeclaration} {e : EventEnvelope}
    (he : e ∈ attempts cfg req i decls) {decl : ResourceDeclaration} {d : Declared}
    (hd : declared cfg decl = some d) (h : carries d e = true) :
    e.idempotencyKey = some (applyKey decl req.correlationId) := by
  obtain ⟨j, decl', d', -, hd', -, rfl | htag⟩ := attempts_cases he
  · have hident := identify_declared hd'
    rw [(carries_declaredEvent.mp h).2, identify_declared hd, Option.some.injEq, Prod.mk.injEq]
      at hident
    rw [declaredEvent_idempotencyKey, applyKey, applyKey, hident.1, hident.2]
  · obtain ⟨slot, tag, rfl⟩ := mem_tagAttempts htag
    simp only [carries, Bool.and_eq_true, decide_eq_true_eq] at h
    have hident := (congrArg identify h.2).trans (identify_declared hd)
    rw [identify_tagEvent] at hident
    cases hident

/-- Of the declarations with one key, the log gets the event of the first. -/
theorem exists_first {decls : List ResourceDeclaration} {seen : List String}
    (haccepted : ∀ j decl d, decls[j]? = some decl → declared cfg decl = some d →
      (req.slot j 0).refused = none)
    {decl : ResourceDeclaration} (hdecl : decl ∈ decls) {d : Declared}
    (hd : declared cfg decl = some d) (hfresh : applyKey decl req.correlationId ∉ seen) :
    ∃ slot, ∃ first ∈ decls, ∃ d₀, declared cfg first = some d₀ ∧
      applyKey first req.correlationId = applyKey decl req.correlationId ∧
      (keepFirst EventEnvelope.idempotencyKey seen (attempts cfg req 0 decls)).filter
        (fun e => e.idempotencyKey = some (applyKey decl req.correlationId)) =
          [declaredEvent cfg req slot first d₀] := by
  obtain ⟨j, hj⟩ := List.mem_iff_getElem?.mp hdecl
  have hmem := declaredEvent_mem_attempts hj hd ((Nat.zero_add j).symm ▸ haccepted j decl d hj hd)
  rw [filter_keepFirst, if_neg hfresh]
  cases hfind : (attempts cfg req 0 decls).find?
      fun e => e.idempotencyKey = some (applyKey decl req.correlationId) with
  | none => exact absurd (List.find?_eq_none.mp hfind _ hmem) (by simp)
  | some e =>
    have hkey : e.idempotencyKey = some (applyKey decl req.correlationId) := by
      simpa using List.find?_some hfind
    obtain ⟨l, first, d₀, hl, hd₀, -, rfl | htag⟩ := attempts_cases (List.mem_of_find?_eq_some hfind)
    · exact ⟨_, first, List.mem_of_getElem? hl, d₀, hd₀,
        Option.some.inj ((declaredEvent_idempotencyKey _ _ _).symm.trans hkey), rfl⟩
    · obtain ⟨slot, tag, rfl⟩ := mem_tagAttempts htag
      cases hkey

/-- How many events carry a declaration: one, if the first declaration with its key is recorded in
the same way. -/
theorem countP_carries_eq_one_iff {decls : List ResourceDeclaration} {seen : List String}
    {decl : ResourceDeclaration} {d : Declared} (hd : declared cfg decl = some d) {slot : Slot}
    {first : ResourceDeclaration} {d₀ : Declared}
    (hfirst : (keepFirst EventEnvelope.idempotencyKey seen (attempts cfg req 0 decls)).filter
      (fun e => e.idempotencyKey = some (applyKey decl req.correlationId)) =
        [declaredEvent cfg req slot first d₀]) :
    (keepFirst EventEnvelope.idempotencyKey seen (attempts cfg req 0 decls)).countP (carries d) = 1 ↔
      d₀.iri = d.iri ∧ d₀.payload = d.payload := by
  have hcount : (keepFirst EventEnvelope.idempotencyKey seen (attempts cfg req 0 decls)).countP
      (carries d) = [declaredEvent cfg req slot first d₀].countP (carries d) := by
    rw [← hfirst, List.countP_filter]
    refine List.countP_congr fun e he => ?_
    simp only [Bool.and_eq_true, decide_eq_true_eq, iff_self_and]
    exact key_of_carries ((keepFirst_sublist seen _).subset he) hd
  rw [hcount, List.countP_singleton, ← @carries_declaredEvent cfg req slot first d d₀]
  split_ifs with h <;> simp [h]

theorem mem_recordedResults {i : ℕ} {decls : List ResourceDeclaration} {r : ApplyResult} :
    r ∈ recordedResults cfg req i decls ↔ ∃ j decl d, decls[j]? = some decl ∧
      declared cfg decl = some d ∧
      r = ⟨decl.resourceName, decl.resourceType, (req.slot (i + j) 0).refused⟩ := by
  induction decls generalizing i with
  | nil => simp [recordedResults]
  | cons decl decls ih =>
    rw [recordedResults, List.mem_append, ih]
    constructor
    · rintro (hfirst | ⟨j, e, d, hj, hd, rfl⟩)
      · unfold recordedResult at hfirst
        split at hfirst
        · cases hfirst
        · next d hd => exact ⟨0, decl, d, rfl, hd, List.mem_singleton.mp hfirst⟩
      · refine ⟨j + 1, e, d, hj, hd, ?_⟩
        rw [← Nat.add_assoc, Nat.add_right_comm]
    · rintro ⟨j, e, d, hj, hd, rfl⟩
      cases j with
      | zero =>
        obtain rfl : decl = e := Option.some.inj hj
        left
        simp [recordedResult, hd]
      | succ j =>
        right
        refine ⟨j, e, d, hj, hd, ?_⟩
        rw [← Nat.add_assoc, Nat.add_right_comm]

/-- A request that was applied has given the log the events of all its declarations. -/
theorem applied_cases {s : ApiState} (h : Applied cfg req s) :
    ((handleApply cfg req).run s).1 = .ok req.correlationId
      (recordedResults cfg req 0 req.file.sortForProvisioning) ∧
    newEvents cfg req s = keepFirst EventEnvelope.idempotencyKey s.log.seenKeys
      (attempts cfg req 0 req.file.sortForProvisioning) ∧
    ∀ j decl d, req.file.sortForProvisioning[j]? = some decl → declared cfg decl = some d →
      (req.slot j 0).refused = none := by
  obtain ⟨results, hok, hnone⟩ := h
  unfold newEvents
  unfold handleApply at hok ⊢
  split_ifs at hok ⊢ with hlog
  · cases hok
  · split at hok
    · cases hok
    · rcases @applyLoop_cases cfg req 0 req.file.sortForProvisioning [] s with
        ⟨k, decl, answer, -, hanswer, hrun, -⟩ | ⟨hrun, -⟩
      · rw [hrun] at hok
        dsimp only at hok
        rw [hok] at hanswer
        cases (refusal_cases hanswer).1
      · rw [hrun] at hok ⊢
        rw [List.nil_append] at hok
        obtain ⟨-, rfl⟩ := ApplyAnswer.ok.inj hok
        refine ⟨rfl, ?_, fun j decl d hj hd => ?_⟩
        · rw [events_recordedAll, List.drop_left]
        · have hr := hnone _ (mem_recordedResults.mpr ⟨j, decl, d, hj, hd, rfl⟩)
          rwa [Nat.zero_add] at hr

/-- **An applied file is in the log completely exactly when no two of its declarations have one type
and name and are different.** -/
theorem applied_file_recorded (cfg : ApiConfig) (req : ApplyRequest) (s : ApiState)
    (hfresh : FreshKeys req s) (happlied : Applied cfg req s) :
    NothingLost cfg req s ↔ NamedOnce cfg req.file := by
  obtain ⟨hok, hnew, haccepted⟩ := applied_cases happlied
  unfold NothingLost
  rw [hnew, hok]
  have hmem : ∀ {decl}, decl ∈ req.file.resources ↔ decl ∈ req.file.sortForProvisioning :=
    (List.mem_insertionSort _).symm
  constructor
  · rintro ⟨hone, -⟩ decl hdecl decl' hdecl' d d' hd hd' htype hname
    have hkey : applyKey decl' req.correlationId = applyKey decl req.correlationId := by
      rw [applyKey, applyKey, htype, hname]
    obtain ⟨slot, first, -, d₀, -, -, hfirst⟩ :=
      exists_first haccepted (hmem.mp hdecl) hd (hfresh decl hdecl)
    obtain ⟨hiri, hpayload⟩ := (countP_carries_eq_one_iff hd hfirst).mp (hone decl hdecl d hd)
    rw [← hkey] at hfirst
    obtain ⟨hiri', hpayload'⟩ := (countP_carries_eq_one_iff hd' hfirst).mp (hone decl' hdecl' d' hd')
    exact ⟨hiri.symm.trans hiri', hpayload.symm.trans hpayload'⟩
  · intro hnamed
    have hone : ∀ decl ∈ req.file.resources, ∀ d, declared cfg decl = some d →
        (keepFirst EventEnvelope.idempotencyKey s.log.seenKeys
          (attempts cfg req 0 req.file.sortForProvisioning)).countP (carries d) = 1 := by
      intro decl hdecl d hd
      obtain ⟨slot, first, hmemfirst, d₀, hd₀, hkey, hfirst⟩ :=
        exists_first haccepted (hmem.mp hdecl) hd (hfresh decl hdecl)
      obtain ⟨htype, hname⟩ := applyKey_inj hkey
      exact (countP_carries_eq_one_iff hd hfirst).mpr
        (hnamed first (hmem.mpr hmemfirst) decl hdecl d₀ d hd₀ hd htype hname)
    refine ⟨hone, fun results hresults r hr _ => ?_⟩
    obtain ⟨-, rfl⟩ := ApplyAnswer.ok.inj hresults
    obtain ⟨j, decl, d, hj, hd, rfl⟩ := mem_recordedResults.mp hr
    have hdecl := hmem.mpr (List.mem_of_getElem? hj)
    refine ⟨decl, hdecl, d, hd, rfl, rfl, ?_⟩
    exact List.countP_pos_iff.mp (by rw [hone decl hdecl d hd]; exact Nat.one_pos)

/-! ## Volumes of one name in two products -/

/-- A volume with the default settings. -/
def sampleVolume (product name : String) : ResourceDeclaration :=
  .volume ⟨name, product, 10, none, none, none, none, []⟩

/-- The server before any request. -/
def emptyApi : ApiState := ⟨InMemoryEventLog.new, [], 0⟩

/-- A product with a volume. -/
def shopWithData : List ResourceDeclaration := [sampleProduct "shop", sampleVolume "shop" "data"]

/-- Two products, each with a volume of the same name. -/
def twiceData : List ResourceDeclaration :=
  [sampleProduct "shop", sampleProduct "blog", sampleVolume "shop" "data",
    sampleVolume "blog" "data"]

theorem applied_file_recorded_one_product :
    Applied sampleApi (sampleApply 1 shopWithData) emptyApi ∧
      NothingLost sampleApi (sampleApply 1 shopWithData) emptyApi := by
  have hfresh : FreshKeys (sampleApply 1 shopWithData) emptyApi := by
    unfold FreshKeys
    decide +kernel
  have happlied : Applied sampleApi (sampleApply 1 shopWithData) emptyApi := by
    exact ⟨_, rfl, by decide +kernel⟩
  refine ⟨happlied, (applied_file_recorded sampleApi _ _ hfresh happlied).mpr ?_⟩
  intro decl hdecl decl' hdecl' d d' hd hd' htype hname
  simp only [sampleApply, shopWithData, List.mem_cons, List.not_mem_nil, or_false] at hdecl hdecl'
  rcases hdecl with rfl | rfl <;> rcases hdecl' with rfl | rfl
  · simp [Option.some.inj (hd.symm.trans hd')]
  · exact absurd htype (by decide)
  · exact absurd htype (by decide)
  · simp [Option.some.inj (hd.symm.trans hd')]

/-- Both volumes are reported as declared, and only the first is in the log. -/
theorem second_volume_lost :
    ResourceFile.validate ⟨twiceData⟩ = .ok () ∧
    FreshKeys (sampleApply 1 twiceData) emptyApi ∧
    Applied sampleApi (sampleApply 1 twiceData) emptyApi ∧
    ((newEvents sampleApi (sampleApply 1 twiceData) emptyApi).filter
      fun e => e.eventType = "ResourceDeclared").map (fun e => (e.product, e.str "name")) =
        [(some "shop", some "data")] ∧
    ¬ NothingLost sampleApi (sampleApply 1 twiceData) emptyApi := by
  refine ⟨by decide +kernel, ?_, ⟨_, rfl, by decide +kernel⟩, by decide +kernel, fun h => ?_⟩
  · unfold FreshKeys
    decide +kernel
  · have hone := h.1 (sampleVolume "blog" "data") (by decide +kernel) _ rfl
    revert hone
    decide +kernel

end Picloud
