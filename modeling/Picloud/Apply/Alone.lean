import Picloud.Apply.Handlers

/-!
# A request executed alone

What `handle_apply` does when nothing else touches the log or the graph: the checks of a product are
a function of the state, recording a declaration is an update of the log, and the loop records
declarations up to the first that is refused (`applyLoop_cases`).
-/

namespace Picloud

open Lib

/-- The event deploys the product. -/
def deploys (name : String) (e : EventEnvelope) : Bool :=
  e.eventType = "ProductDeployed" && e.str "product_name" = some name

variable (cfg : ApiConfig) (req : ApplyRequest)

/-! ## The checks -/

/-- The overwrite protection, in a state. -/
def existsIn (s : ApiState) (name : String) : Bool :=
  scanProduct name s.log.events || cfg.hasProjector && graphHasProduct cfg s.graph name

/-- What is known of a data product, in a state. -/
def dataProductIn (s : ApiState) (dpIri owningProduct dpName : String) : DataProductFound :=
  let found := scanDataProduct dpIri owningProduct dpName s.log.events
  if found.dpExists || !cfg.hasProjector then found
  else if askedDataProduct cfg s.graph dpIri then
    ⟨true, askedVersion cfg s.graph dpIri found.latestVersion⟩
  else found

/-- The refusal for a dependency, in a state. -/
def dependencyRefusal (s : ApiState) (p : ProductDecl) (dep : DataProductDepDecl) :
    Option ApplyAnswer :=
  match splitOnce dep.source with
  | none => some (invalidSource dep.source)
  | some (owningProduct, dpName) => judgeDependency p dep
    (dataProductIn cfg s (dataProductIri cfg.iris owningProduct dpName) owningProduct dpName)

/-- The refusal for a declaration, in a state. -/
def refusal (s : ApiState) : ResourceDeclaration → Option ApplyAnswer
  | .product p =>
    if existsIn cfg s p.name then some (conflictOf p.name)
    else p.dataProducts.findSome? (dependencyRefusal cfg s p)
  | _ => none

variable {cfg req}

theorem run_productExists (name : String) (s : ApiState) :
    (productExists cfg name).run s = (existsIn cfg s name, s) := by
  have hlookup : ∀ inLog : Bool, (if !inLog && cfg.hasProjector then
      Program.read (ApiSection.lookup name) fun s : ApiState => graphHasProduct cfg s.graph name
      else pure inLog).run s =
        (inLog || cfg.hasProjector && graphHasProduct cfg s.graph name, s) := by
    intro inLog
    cases inLog <;> cases cfg.hasProjector <;> simp
  rw [productExists, Program.run_bind, existsIn, ← List.drop_zero (l := s.log.events),
    ← InMemoryEventLog.eventsSince_eq_drop]
  exact hlookup _

theorem run_lookupDataProduct (p : ProductDecl) (dpIri owningProduct dpName : String)
    (s : ApiState) :
    (lookupDataProduct cfg p dpIri
      (scanDataProduct dpIri owningProduct dpName s.log.events)).run s =
      (dataProductIn cfg s dpIri owningProduct dpName, s) := by
  unfold lookupDataProduct dataProductIn
  dsimp only
  split_ifs with hfound hask
  · rfl
  · simp [hask]
  · simp [hask]

theorem run_checkDependency (p : ProductDecl) (dep : DataProductDepDecl) (s : ApiState) :
    (checkDependency cfg p dep).run s = (dependencyRefusal cfg s p dep, s) := by
  unfold checkDependency dependencyRefusal
  cases splitOnce dep.source with
  | none => rfl
  | some parts =>
    simp only [Program.run_bind, Program.run_read, InMemoryEventLog.eventsSince_eq_drop,
      List.drop_zero, run_lookupDataProduct, Program.run_pure]

theorem run_checkDependencies (p : ProductDecl) (deps : List DataProductDepDecl) (s : ApiState) :
    (checkDependencies cfg p deps).run s = (deps.findSome? (dependencyRefusal cfg s p), s) := by
  induction deps with
  | nil => rfl
  | cons dep deps ih =>
    rw [checkDependencies, Program.run_bind, run_checkDependency, List.findSome?_cons]
    cases dependencyRefusal cfg s p dep with
    | none => exact ih
    | some answer => rfl

/-- The checks change nothing, and their outcome is the refusal in the state they see. -/
theorem run_checkDeclaration (decl : ResourceDeclaration) (s : ApiState) :
    (checkDeclaration cfg decl).run s = (refusal cfg s decl, s) := by
  cases decl with
  | product p =>
    rw [checkDeclaration, checkProduct, Program.run_bind, run_productExists, refusal]
    cases existsIn cfg s p.name with
    | true => rfl
    | false => exact run_checkDependencies p p.dataProducts s
  | _ => rfl

/-! ## Recording -/

variable (cfg req)

/-- The state after the tags of a declaration. -/
def taggedState (i : ℕ) (decl : ResourceDeclaration) :
    ℕ → List (String × String) → ApiState → ApiState
  | _, [], s => s
  | t, tag :: tags, s =>
    let slot := req.slot i (t + 1)
    taggedState i decl (t + 1) tags (s.appended (tagEvent cfg req slot decl tag) slot.refused)

/-- The state after a declaration. -/
def recordedState (i : ℕ) (decl : ResourceDeclaration) (s : ApiState) : ApiState :=
  match declared cfg decl, (req.slot i 0).refused with
  | some d, none => taggedState cfg req i decl 0 decl.tags
    (s.appended (declaredEvent cfg req (req.slot i 0) decl d) none)
  | _, _ => s

/-- The entry of a declaration in the results. -/
def recordedResult (i : ℕ) (decl : ResourceDeclaration) : List ApplyResult :=
  match declared cfg decl with
  | none => []
  | some _ => [⟨decl.resourceName, decl.resourceType, (req.slot i 0).refused⟩]

/-- The state after several declarations, the first of them at a position. -/
def recordedAll : ℕ → List ResourceDeclaration → ApiState → ApiState
  | _, [], s => s
  | i, decl :: decls, s => recordedAll (i + 1) decls (recordedState cfg req i decl s)

/-- The results of several declarations. -/
def recordedResults : ℕ → List ResourceDeclaration → List ApplyResult
  | _, [] => []
  | i, decl :: decls => recordedResult cfg req i decl ++ recordedResults (i + 1) decls

variable {cfg req}

theorem run_appendEvent (event : EventEnvelope) (refused : Option PiCloudError) (s : ApiState) :
    (appendEvent event refused).run s = (refused, s.appended event refused) := rfl

theorem run_appendTags (i : ℕ) (decl : ResourceDeclaration) (t : ℕ) (tags : List (String × String))
    (s : ApiState) :
    (appendTags cfg req i decl t tags).run s = ((), taggedState cfg req i decl t tags s) := by
  induction tags generalizing t s with
  | nil => rfl
  | cons tag tags ih =>
    rw [appendTags, Program.run_bind, run_appendEvent]
    exact ih (t + 1) _

theorem run_recordDeclaration (i : ℕ) (decl : ResourceDeclaration) (s : ApiState) :
    (recordDeclaration cfg req i decl).run s =
      (recordedResult cfg req i decl, recordedState cfg req i decl s) := by
  unfold recordDeclaration recordedResult recordedState
  cases declared cfg decl with
  | none => rfl
  | some d =>
    simp only [Program.run_bind, run_appendEvent]
    cases hslot : (req.slot i 0).refused with
    | none => simp only [Program.run_bind, run_appendTags, Program.run_pure]
    | some e => rfl

/-! ### The events of a request -/

variable (cfg req)

/-- The tags of a declaration that the log does not refuse. -/
def tagAttempts (i : ℕ) (decl : ResourceDeclaration) :
    ℕ → List (String × String) → List EventEnvelope
  | _, [] => []
  | t, tag :: tags =>
    (if (req.slot i (t + 1)).refused = none then [tagEvent cfg req (req.slot i (t + 1)) decl tag]
      else []) ++ tagAttempts i decl (t + 1) tags

/-- The events of a declaration that the log does not refuse. -/
def attemptsOf (i : ℕ) (decl : ResourceDeclaration) : List EventEnvelope :=
  match declared cfg decl, (req.slot i 0).refused with
  | some d, none => declaredEvent cfg req (req.slot i 0) decl d ::
    tagAttempts cfg req i decl 0 decl.tags
  | _, _ => []

/-- The events of several declarations that the log does not refuse. -/
def attempts : ℕ → List ResourceDeclaration → List EventEnvelope
  | _, [] => []
  | i, decl :: decls => attemptsOf cfg req i decl ++ attempts (i + 1) decls

/-- The state after some events have been given to the log. -/
def ApiState.given (s : ApiState) (es : List EventEnvelope) : ApiState :=
  { s with log := es.foldl InMemoryEventLog.append s.log }

variable {cfg req}

theorem given_append (s : ApiState) (es es' : List EventEnvelope) :
    s.given (es ++ es') = (s.given es).given es' := by
  simp [ApiState.given, List.foldl_append]

theorem taggedState_eq (i : ℕ) (decl : ResourceDeclaration) (t : ℕ) (tags : List (String × String))
    (s : ApiState) :
    taggedState cfg req i decl t tags s = s.given (tagAttempts cfg req i decl t tags) := by
  induction tags generalizing t s with
  | nil => rfl
  | cons tag tags ih =>
    rw [taggedState, tagAttempts, given_append, ← ih]
    cases (req.slot i (t + 1)).refused <;> rfl

/-- Recording declarations gives the log the events that it does not refuse. -/
theorem recordedAll_eq (i : ℕ) (decls : List ResourceDeclaration) (s : ApiState) :
    recordedAll cfg req i decls s = s.given (attempts cfg req i decls) := by
  induction decls generalizing i s with
  | nil => rfl
  | cons decl decls ih =>
    rw [recordedAll, ih, attempts, given_append]
    congr 1
    unfold recordedState attemptsOf
    cases declared cfg decl with
    | none => rfl
    | some d =>
      cases (req.slot i 0).refused with
      | none => exact taggedState_eq i decl 0 decl.tags _
      | some e => rfl

theorem events_recordedAll (i : ℕ) (decls : List ResourceDeclaration) (s : ApiState) :
    (recordedAll cfg req i decls s).log.events = s.log.events ++
      keepFirst EventEnvelope.idempotencyKey s.log.seenKeys (attempts cfg req i decls) := by
  rw [recordedAll_eq]
  exact (InMemoryEventLog.foldl_append s.log _).1

@[simp] theorem graph_recordedAll (i : ℕ) (decls : List ResourceDeclaration) (s : ApiState) :
    (recordedAll cfg req i decls s).graph = s.graph := by
  rw [recordedAll_eq]
  rfl

variable {i : ℕ} {decl : ResourceDeclaration}

/-- An event of a request is that of a declaration, or one of its tags. -/
theorem attempts_cases {decls : List ResourceDeclaration} {e : EventEnvelope}
    (h : e ∈ attempts cfg req i decls) :
    ∃ j decl d, decls[j]? = some decl ∧ declared cfg decl = some d ∧
      (req.slot (i + j) 0).refused = none ∧
      (e = declaredEvent cfg req (req.slot (i + j) 0) decl d ∨
        e ∈ tagAttempts cfg req (i + j) decl 0 decl.tags) := by
  induction decls generalizing i with
  | nil => cases h
  | cons decl decls ih =>
    rcases List.mem_append.mp h with hfirst | hrest
    · unfold attemptsOf at hfirst
      split at hfirst
      · next d hd hslot => exact ⟨0, decl, d, rfl, hd, hslot, List.mem_cons.mp hfirst⟩
      · cases hfirst
    · obtain ⟨j, e, d, hj, hd, hslot, he⟩ := ih hrest
      rw [Nat.add_assoc, Nat.add_comm 1] at hslot he
      exact ⟨j + 1, e, d, hj, hd, hslot, he⟩

/-- The event of a declaration that the log does not refuse is among the events of the request. -/
theorem declaredEvent_mem_attempts {j : ℕ} {decls : List ResourceDeclaration} {d : Declared}
    (hj : decls[j]? = some decl) (hd : declared cfg decl = some d)
    (hslot : (req.slot (i + j) 0).refused = none) :
    declaredEvent cfg req (req.slot (i + j) 0) decl d ∈ attempts cfg req i decls := by
  induction decls generalizing i j with
  | nil => cases hj
  | cons first decls ih =>
    rw [attempts, List.mem_append]
    cases j with
    | zero =>
      obtain rfl : first = decl := Option.some.inj hj
      left
      rw [Nat.add_zero] at hslot ⊢
      simp [attemptsOf, hd, hslot]
    | succ j =>
      rw [← Nat.add_assoc, Nat.add_right_comm] at hslot ⊢
      exact Or.inr (ih hj hslot)

theorem mem_tagAttempts {t : ℕ} {tags : List (String × String)} {e : EventEnvelope}
    (h : e ∈ tagAttempts cfg req i decl t tags) : ∃ slot tag, e = tagEvent cfg req slot decl tag := by
  induction tags generalizing t with
  | nil => cases h
  | cons tag tags ih =>
    rcases List.mem_append.mp h with hfirst | hrest
    · split_ifs at hfirst
      · exact ⟨_, tag, List.mem_singleton.mp hfirst⟩
      · cases hfirst
    · exact ih hrest

/-! ### Keys -/

/-- The names of the types. -/
def resourceTypes : List String :=
  ["product", "volume", "container", "binary", "event-subscription", "ingress", "secret", "role",
    "config", "feature-flag", "group", "inference-rule", "scope", "m2m-permission", "capability",
    "data-domain", "data-product"]

theorem resourceType_mem (decl : ResourceDeclaration) : decl.resourceType ∈ resourceTypes := by
  cases decl <;> simp [ResourceDeclaration.resourceType, resourceTypes]

/-- No type, with a dash behind it, begins another one. -/
theorem resourceTypes_apart : ∀ t ∈ resourceTypes, ∀ t' ∈ resourceTypes,
    t.toList ++ ['-'] <+: t'.toList ++ ['-'] → t = t' := by
  decide +kernel

/-- The key of a declaration tells its type and its name. -/
theorem applyKey_inj {decl' : ResourceDeclaration} {correlationId : Uuid}
    (h : applyKey decl correlationId = applyKey decl' correlationId) :
    decl.resourceType = decl'.resourceType ∧ decl.resourceName = decl'.resourceName := by
  have hlist : decl.resourceType.toList ++ ['-'] ++ decl.resourceName.toList =
      decl'.resourceType.toList ++ ['-'] ++ decl'.resourceName.toList := by
    have hall : "apply-".toList ++ (decl.resourceType.toList ++ ['-'] ++ decl.resourceName.toList) ++
        '-' :: correlationId.display.toList =
        "apply-".toList ++ (decl'.resourceType.toList ++ ['-'] ++ decl'.resourceName.toList) ++
          '-' :: correlationId.display.toList := by
      simpa [applyKey] using congrArg String.toList h
    exact List.append_cancel_left (List.append_cancel_right hall)
  have htype : decl.resourceType = decl'.resourceType := by
    rcases List.prefix_or_prefix_of_prefix (List.prefix_append _ decl.resourceName.toList)
      (hlist ▸ List.prefix_append _ decl'.resourceName.toList) with hpre | hpre
    · exact resourceTypes_apart _ (resourceType_mem decl) _ (resourceType_mem decl') hpre
    · exact (resourceTypes_apart _ (resourceType_mem decl') _ (resourceType_mem decl) hpre).symm
  rw [htype] at hlist
  exact ⟨htype, String.toList_inj.mp (List.append_cancel_left hlist)⟩

/-! ## The loop -/

/-- **The loop records declarations up to the first that is refused.** -/
theorem applyLoop_cases (i : ℕ) (decls : List ResourceDeclaration) (results : List ApplyResult)
    (s : ApiState) :
    (∃ k decl answer, decls[k]? = some decl ∧
      refusal cfg (recordedAll cfg req i (decls.take k) s) decl = some answer ∧
      (applyLoop cfg req i decls results).run s =
        (answer, recordedAll cfg req i (decls.take k) s) ∧
      ∀ j < k, ∀ d, decls[j]? = some d →
        refusal cfg (recordedAll cfg req i (decls.take j) s) d = none) ∨
    ((applyLoop cfg req i decls results).run s =
        (.ok req.correlationId (results ++ recordedResults cfg req i decls),
          recordedAll cfg req i decls s) ∧
      ∀ j d, decls[j]? = some d →
        refusal cfg (recordedAll cfg req i (decls.take j) s) d = none) := by
  induction decls generalizing i results s with
  | nil => exact Or.inr ⟨by simp [applyLoop, recordedResults, recordedAll], by simp⟩
  | cons decl decls ih =>
    cases hrefusal : refusal cfg s decl with
    | some answer =>
      refine Or.inl ⟨0, decl, answer, rfl, hrefusal, ?_, fun j hj => by omega⟩
      rw [applyLoop, Program.run_bind, run_checkDeclaration, hrefusal]
      rfl
    | none =>
      have hrun : (applyLoop cfg req i (decl :: decls) results).run s =
          (applyLoop cfg req (i + 1) decls (results ++ recordedResult cfg req i decl)).run
            (recordedState cfg req i decl s) := by
        rw [applyLoop, Program.run_bind, run_checkDeclaration, hrefusal]
        exact (Program.run_bind _ _ _).trans (by rw [run_recordDeclaration])
      -- the refusals from the second declaration on are those of the rest of the loop
      have hfirst : ∀ j d, (decl :: decls)[j]? = some d → (∀ l, j = l + 1 → decls[l]? = some d →
          refusal cfg (recordedAll cfg req (i + 1) (decls.take l) (recordedState cfg req i decl s)) d =
            none) → refusal cfg (recordedAll cfg req i ((decl :: decls).take j) s) d = none := by
        intro j d hj hrest
        cases j with
        | zero =>
          obtain rfl : decl = d := Option.some.inj hj
          exact hrefusal
        | succ l => exact hrest l rfl hj
      rcases ih (i + 1) (results ++ recordedResult cfg req i decl)
        (recordedState cfg req i decl s) with ⟨k, d, answer, hk, hanswer, hloop, hbefore⟩ | ⟨hloop, hall⟩
      · refine Or.inl ⟨k + 1, d, answer, hk, hanswer, hrun.trans hloop, fun j hj e he => ?_⟩
        exact hfirst j e he fun l hl hle => hbefore l (by omega) e hle
      · refine Or.inr ⟨hrun.trans (hloop.trans ?_), fun j e he => ?_⟩
        · rw [recordedResults, List.append_assoc]
          rfl
        · exact hfirst j e he fun l _ hle => hall l e hle

/-! ## A sample server -/

/-- A product without dependencies. -/
def sampleProduct (name : String) : ResourceDeclaration := .product ⟨name, "1.0.0", none, [], []⟩

/-- A server whose graph is empty: its engine finds no rows. -/
def sampleApi : ApiConfig where
  iris := ⟨"picloud.local"⟩
  hasEventLog := true
  hasProjector := true
  members := none
  formats := ⟨fun _ => "", fun _ => none⟩
  sparql := fun _ _ => some []

/-- A request whose appends all succeed. -/
def sampleApply (correlationId : Uuid) (decls : List ResourceDeclaration) : ApplyRequest where
  file := ⟨decls⟩
  traceparent := none
  correlationId := correlationId
  slot := fun i t => ⟨BitVec.ofNat 128 (1000 * correlationId.toNat + 10 * i + t), 0, none⟩

end Picloud
