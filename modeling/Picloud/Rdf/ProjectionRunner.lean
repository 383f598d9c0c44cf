import Picloud.Domain.Payload
import Picloud.Lib.ReverseIndex

/-!
# The projection runner of data products

Reference: `DataProductProjectionRunner` of `picloud-rdf/src/projection_runner.rs`.

The runner keeps the registrations by the IRI of their data product, and a reverse index from event types to
these IRIs. A registration that names an event type twice is listed twice in the index, and its projection
runs twice. The projector is a parameter with a state of its own.
-/

namespace Picloud

open Lib

/-! ## Registrations -/

/-- `DataProductRegistration`. -/
structure DataProductRegistration where
  dataProductIri : ResourceIri
  product : String
  name : String
  triggers : List String
  projectionQuery : String
  sourceGraphIri : ResourceIri
deriving DecidableEq

/-- `DataProductProjectionRunner`, without the projector. -/
structure ProjectionRunner where
  iris : IriBuilder
  registrations : Assoc String DataProductRegistration
  triggerIndex : ReverseIndex String String

namespace ProjectionRunner

/-- `with_domain`. -/
def new (iris : IriBuilder) : ProjectionRunner := ⟨iris, [], []⟩

/-- `deregister_internal`. -/
def deregister (runner : ProjectionRunner) (key : String) : ProjectionRunner :=
  match Assoc.get runner.registrations key with
  | none => { runner with registrations := Assoc.erase runner.registrations key }
  | some old =>
    { runner with
      registrations := Assoc.erase runner.registrations key
      triggerIndex := runner.triggerIndex.remove key old.triggers }

/-- `register`: an older registration of the data product is taken out first. -/
def register (runner : ProjectionRunner) (reg : DataProductRegistration) : ProjectionRunner :=
  let key := reg.dataProductIri.value
  let runner := runner.deregister key
  { runner with
    triggerIndex := runner.triggerIndex.add key reg.triggers
    registrations := Assoc.set runner.registrations key reg }

/-- `has_trigger`. -/
def hasTrigger (runner : ProjectionRunner) (eventType : String) : Bool :=
  ((Assoc.get runner.triggerIndex eventType).map fun keys => !keys.isEmpty).getD false

/-! ## Events -/

/-- `DataProductRefreshResult`. -/
structure DataProductRefreshResult where
  tripleCount : UInt64
  durationMs : UInt64
deriving DecidableEq

/-- The arguments of `refresh_projection`. -/
structure RefreshRequest where
  dataProductIri : ResourceIri
  constructQuery : String
  sourceGraphIri : ResourceIri
deriving DecidableEq

/-- What the refreshes take from outside: the projector with its state, the fresh identifiers and clock readings
of their events, and the text of a time. -/
structure RefreshEnv (σ : Type) where
  refreshProjection : σ → RefreshRequest → Except String DataProductRefreshResult × σ
  id : σ → Uuid
  now : σ → ℤ
  timeText : ℤ → String

/-- `ProjectionOutcome`. -/
inductive ProjectionOutcome where
  | refreshed (event : EventEnvelope) (tripleCount durationMs : UInt64)
  | failed (event : EventEnvelope) (reason : String)
deriving DecidableEq

variable {σ : Type}

/-- The request for a registration. -/
def request (reg : DataProductRegistration) : RefreshRequest :=
  ⟨reg.dataProductIri, reg.projectionQuery, reg.sourceGraphIri⟩

/-- `run_one`, with the request it makes. -/
def runOne (env : RefreshEnv σ) (iris : IriBuilder) (reg : DataProductRegistration) (triggerEvent : String)
    (correlationId : Uuid) (s : σ) : (RefreshRequest × ProjectionOutcome) × σ :=
  match env.refreshProjection s (request reg) with
  | (.ok refresh, s') =>
    let payload := Json.object [("data_product_iri", .string reg.dataProductIri.value),
      ("triple_count", .number (.posInt refresh.tripleCount)),
      ("duration_ms", .number (.posInt refresh.durationMs)), ("trigger_event", .string triggerEvent),
      ("refreshed_at", .string (env.timeText (env.now s')))]
    let event := EventEnvelope.new (env.id s') (env.now s') ⟨iris.eventSchema "DataProductRefreshed" 1⟩
      "DataProductRefreshed" reg.dataProductIri (some reg.product) correlationId payload
    ((request reg, .refreshed event refresh.tripleCount refresh.durationMs), s')
  | (.error reason, s') =>
    let payload := Json.object [("data_product_iri", .string reg.dataProductIri.value),
      ("trigger_event", .string triggerEvent), ("reason", .string reason),
      ("failed_at", .string (env.timeText (env.now s')))]
    let event := EventEnvelope.new (env.id s') (env.now s')
      ⟨iris.eventSchema "DataProductProjectionFailed" 1⟩ "DataProductProjectionFailed" reg.dataProductIri
      (some reg.product) correlationId payload
    ((request reg, .failed event reason), s')

/-- The loop of `handle_event` over the matching registrations. -/
def runAll (env : RefreshEnv σ) (iris : IriBuilder) (triggerEvent : String) (correlationId : Uuid) :
    σ → List DataProductRegistration → List (RefreshRequest × ProjectionOutcome) × σ
  | s, [] => ([], s)
  | s, reg :: regs =>
    let (outcome, s') := runOne env iris reg triggerEvent correlationId s
    let (outcomes, s'') := runAll env iris triggerEvent correlationId s' regs
    (outcome :: outcomes, s'')

/-- The registrations that an event matches. -/
def matching (runner : ProjectionRunner) (eventType : String) : List DataProductRegistration :=
  (runner.triggerIndex.keysAt eventType).filterMap (Assoc.get runner.registrations)

/-- `handle_event`: the outcomes, each with the request that it is the outcome of. -/
def handleEvent (env : RefreshEnv σ) (runner : ProjectionRunner) (event : EventEnvelope) (s : σ) :
    List (RefreshRequest × ProjectionOutcome) × σ :=
  runAll env runner.iris event.eventType event.correlationId s (runner.matching event.eventType)

/-! ## Runs -/

/-- A call that changes the registrations. -/
inductive Call where
  | register (reg : DataProductRegistration)
  | deregister (dataProductIri : ResourceIri)
deriving DecidableEq

/-- The runner after a call. -/
def next (runner : ProjectionRunner) : Call → ProjectionRunner
  | .register reg => runner.register reg
  | .deregister iri => runner.deregister iri.value

/-- What a call makes of the registration of a data product. -/
def Call.update (iri : String) (current : Option DataProductRegistration) :
    Call → Option DataProductRegistration
  | .register reg => if reg.dataProductIri.value = iri then some reg else current
  | .deregister iri' => if iri'.value = iri then none else current

/-- The registration of a data product after some calls: the last call about it decides. -/
def registeredAfter (calls : List Call) (iri : String) : Option DataProductRegistration :=
  calls.foldl (Call.update iri) none

/-- An event runs the projection of each registered data product that it triggers once, and no others. -/
structure RefreshesOnce (registered : String → Option DataProductRegistration) (runner : ProjectionRunner)
    (eventType : String) (requests : List RefreshRequest) : Prop where
  once : ∀ iri reg, registered iri = some reg → eventType ∈ reg.triggers →
    requests.filter (fun r => r.dataProductIri.value = iri) = [request reg]
  others : ∀ r ∈ requests, ∃ reg, registered r.dataProductIri.value = some reg ∧ eventType ∈ reg.triggers
  hasTrigger : runner.hasTrigger eventType = true ↔ ∃ iri reg, registered iri = some reg ∧ eventType ∈ reg.triggers

/-! ## The index -/

/-- The runner holds the registrations, and lists each key under an event type as often as its triggers name it. -/
structure Indexed (registered : String → Option DataProductRegistration) (runner : ProjectionRunner) :
    Prop where
  get : ∀ iri, Assoc.get runner.registrations iri = registered iri
  key : ∀ iri reg, registered iri = some reg → reg.dataProductIri.value = iri
  count : ∀ eventType iri, (runner.triggerIndex.keysAt eventType).count iri =
    ((registered iri).map fun reg => reg.triggers.count eventType).getD 0

section Indexed

variable {registered : String → Option DataProductRegistration} {runner : ProjectionRunner}
  {eventType : String}

theorem indexed_new (iris : IriBuilder) : Indexed (fun _ => none) (new iris) :=
  ⟨fun _ => rfl, by simp, fun _ _ => rfl⟩

theorem Indexed.deregister (h : Indexed registered runner) (key : String) :
    Indexed (fun iri => if key = iri then none else registered iri) (runner.deregister key) := by
  have hget : ∀ iri, Assoc.get (Assoc.erase runner.registrations key) iri =
      if key = iri then none else registered iri := by
    intro iri
    by_cases hk : key = iri
    · rw [if_pos hk, hk, Assoc.get_erase_self]
    · rw [if_neg hk, Assoc.get_erase_of_ne _ (Ne.symm hk), h.get]
  have hkey : ∀ iri reg, (if key = iri then none else registered iri) = some reg →
      reg.dataProductIri.value = iri := by
    intro iri reg hreg
    split at hreg
    · cases hreg
    · exact h.key iri reg hreg
  unfold ProjectionRunner.deregister
  split
  · next hnone =>
    refine ⟨hget, hkey, fun t iri => ?_⟩
    rw [h.get] at hnone
    rw [h.count]
    by_cases hk : key = iri
    · rw [if_pos hk, ← hk, hnone]
    · rw [if_neg hk]
  · next old hold =>
    refine ⟨hget, hkey, fun t iri => ?_⟩
    rw [h.get] at hold
    rw [ReverseIndex.count_remove, h.count]
    by_cases hk : key = iri
    · subst hk
      rw [if_pos rfl, hold]
      by_cases ht : t ∈ old.triggers
      · simp [ht]
      · simp [ht, List.count_eq_zero_of_not_mem ht]
    · rw [if_neg (fun hboth => hk hboth.1.symm), if_neg hk]

theorem Indexed.register (h : Indexed registered runner) (reg : DataProductRegistration) :
    Indexed (fun iri => if reg.dataProductIri.value = iri then some reg else registered iri)
      (runner.register reg) := by
  have hd := h.deregister reg.dataProductIri.value
  refine ⟨fun iri => ?_, fun iri reg' hreg => ?_, fun t iri => ?_⟩
  · by_cases hk : reg.dataProductIri.value = iri
    · rw [if_pos hk, ← hk]
      exact Assoc.get_set_self _ _ _
    · rw [if_neg hk]
      refine (Assoc.get_set_of_ne _ _ (Ne.symm hk)).trans ((hd.get iri).trans ?_)
      rw [if_neg hk]
  · split at hreg
    · next hk =>
      cases hreg
      exact hk
    · exact h.key iri reg' hreg
  · refine ReverseIndex.count_add.trans ?_
    rw [hd.count]
    by_cases hk : reg.dataProductIri.value = iri
    · subst hk
      simp
    · simp [hk, Ne.symm hk]

theorem Indexed.next (h : Indexed registered runner) (call : Call) :
    Indexed (fun iri => call.update iri (registered iri)) (runner.next call) := by
  cases call with
  | register reg => exact h.register reg
  | deregister iri => exact h.deregister iri.value

/-- After any calls the index agrees with the registrations. -/
theorem indexed_run (iris : IriBuilder) (calls : List Call) :
    Indexed (registeredAfter calls) (calls.foldl ProjectionRunner.next (new iris)) := by
  induction calls using List.reverseRecOn with
  | nil => exact indexed_new iris
  | append_singleton calls call ih =>
    rw [List.foldl_append]
    have hafter : registeredAfter (calls ++ [call]) = fun iri => call.update iri (registeredAfter calls iri) := by
      funext iri
      rw [registeredAfter, List.foldl_append]
      rfl
    rw [hafter]
    exact ih.next call

/-! ### What an event runs -/

variable {σ : Type} {env : RefreshEnv σ}

/-- The requests are those of the matching registrations. -/
theorem requests_runAll (iris : IriBuilder) (triggerEvent : String) (correlationId : Uuid) (s : σ)
    (regs : List DataProductRegistration) :
    (runAll env iris triggerEvent correlationId s regs).1.map Prod.fst = regs.map request := by
  induction regs generalizing s with
  | nil => rfl
  | cons reg regs ih =>
    have hone : (runOne env iris reg triggerEvent correlationId s).1.1 = request reg := by
      unfold runOne
      split <;> rfl
    rw [runAll, List.map_cons, List.map_cons, hone, ih]

/-- A data product is matched as often as its triggers name the event type. -/
theorem Indexed.filter_matching (h : Indexed registered runner) {iri : String} {reg : DataProductRegistration}
    (hreg : registered iri = some reg) :
    (runner.matching eventType).filter (fun r => r.dataProductIri.value = iri) =
      List.replicate (reg.triggers.count eventType) reg := by
  have hcount := h.count eventType iri
  rw [hreg, Option.map_some, Option.getD_some] at hcount
  rw [matching, ← hcount]
  generalize runner.triggerIndex.keysAt eventType = keys
  induction keys with
  | nil => rfl
  | cons k keys ih =>
    rw [List.filterMap_cons, h.get]
    by_cases hk : k = iri
    · subst hk
      rw [hreg, List.count_cons_self, List.replicate_succ, ← ih]
      simp only
      rw [List.filter_cons_of_pos (by simpa using h.key k reg hreg)]
    · rw [List.count_cons_of_ne hk, ← ih]
      cases hk' : registered k with
      | none => rfl
      | some r =>
        simp only
        rw [List.filter_cons_of_neg (by simpa [h.key k r hk'] using hk)]

theorem Indexed.mem_keysAt_iff (h : Indexed registered runner) {iri : String} :
    iri ∈ runner.triggerIndex.keysAt eventType ↔
      ∃ reg, registered iri = some reg ∧ eventType ∈ reg.triggers := by
  rw [← List.count_pos_iff, h.count]
  cases hreg : registered iri with
  | none => simp
  | some reg => simp [List.count_pos_iff]

theorem hasTrigger_iff : runner.hasTrigger eventType = true ↔
    ∃ iri, iri ∈ runner.triggerIndex.keysAt eventType := by
  rw [hasTrigger, ReverseIndex.keysAt]
  cases Assoc.get runner.triggerIndex eventType with
  | none => simp
  | some keys =>
    cases keys with
    | nil => simp
    | cons k keys => simp

/-- With an index that agrees, the projections run once exactly when no registration names the event type
twice. -/
theorem Indexed.refreshesOnce_iff (h : Indexed registered runner) (event : EventEnvelope) (s : σ) :
    RefreshesOnce registered runner event.eventType ((handleEvent env runner event s).1.map Prod.fst) ↔
      ∀ iri reg, registered iri = some reg → reg.triggers.count event.eventType ≤ 1 := by
  have hrequests : (handleEvent env runner event s).1.map Prod.fst =
      (runner.matching event.eventType).map request := requests_runAll _ _ _ _ _
  have hfilter : ∀ iri reg, registered iri = some reg →
      (((runner.matching event.eventType).map request).filter fun r => r.dataProductIri.value = iri) =
        List.replicate (reg.triggers.count event.eventType) (request reg) := by
    intro iri reg hreg
    rw [List.filter_map, ← List.map_replicate, ← h.filter_matching hreg]
    rfl
  rw [hrequests]
  constructor
  · intro hspec iri reg hreg
    by_cases hmem : event.eventType ∈ reg.triggers
    · have honce := hspec.once iri reg hreg hmem
      rw [hfilter iri reg hreg] at honce
      have hlength := congrArg List.length honce
      rw [List.length_replicate, List.length_singleton] at hlength
      omega
    · rw [List.count_eq_zero_of_not_mem hmem]
      omega
  · intro hcount
    constructor
    case once =>
      intro iri reg hreg hmem
      have hle := hcount iri reg hreg
      have hpos := List.count_pos_iff.mpr hmem
      rw [hfilter iri reg hreg, show reg.triggers.count event.eventType = 1 by omega]
      rfl
    case others =>
      intro r hr
      obtain ⟨reg, hreg, rfl⟩ := List.mem_map.mp hr
      obtain ⟨iri, hiri, hget⟩ := List.mem_filterMap.mp hreg
      obtain ⟨reg', hreg', hmem⟩ := h.mem_keysAt_iff.mp hiri
      rw [h.get] at hget
      obtain rfl : reg' = reg := Option.some.inj (hreg'.symm.trans hget)
      refine ⟨reg', ?_, hmem⟩
      rwa [request, h.key iri reg' hreg']
    case hasTrigger =>
      rw [hasTrigger_iff]
      exact exists_congr fun iri => h.mem_keysAt_iff

end Indexed

/-- **After any calls, an event runs each projection that it triggers once, and no others, exactly when no
registered data product names the type of the event twice.** -/
theorem refreshes_once_iff {σ : Type} (env : RefreshEnv σ) (iris : IriBuilder) (calls : List Call)
    (event : EventEnvelope) (s : σ) :
    RefreshesOnce (registeredAfter calls) (calls.foldl ProjectionRunner.next (new iris)) event.eventType
        ((handleEvent env (calls.foldl ProjectionRunner.next (new iris)) event s).1.map Prod.fst) ↔
      ∀ iri reg, registeredAfter calls iri = some reg → reg.triggers.count event.eventType ≤ 1 :=
  (indexed_run iris calls).refreshesOnce_iff event s

/-! ## A repeated trigger -/

/-- A projector that always succeeds. -/
def sampleRefreshEnv : RefreshEnv Unit where
  refreshProjection s _ := (.ok ⟨1, 0⟩, s)
  id _ := 0
  now _ := 0
  timeText _ := "1970-01-01T00:00:00Z"

/-- A data product with a trigger named twice. -/
def repeatedTrigger : DataProductRegistration where
  dataProductIri := ⟨"https://picloud.local/products/shop/data-products/orders"⟩
  product := "shop"
  name := "orders"
  triggers := ["OrderPlaced", "OrderPlaced"]
  projectionQuery := "CONSTRUCT WHERE \x7b \x7d"
  sourceGraphIri := ⟨"https://picloud.local/products/shop/graph"⟩

/-- The event that triggers it. -/
def orderPlaced : EventEnvelope :=
  EventEnvelope.new 1 0 ⟨"https://picloud.local/schemas/events/OrderPlaced/v1"⟩ "OrderPlaced"
    ⟨"https://picloud.local/products/shop"⟩ (some "shop") 2 .null

/-- One event runs the projection twice. -/
theorem not_refreshesOnce_repeatedTrigger :
    ¬ RefreshesOnce (registeredAfter [.register repeatedTrigger])
      ([Call.register repeatedTrigger].foldl ProjectionRunner.next (new ⟨"picloud.local"⟩))
      orderPlaced.eventType
      ((handleEvent sampleRefreshEnv ([Call.register repeatedTrigger].foldl ProjectionRunner.next
        (new ⟨"picloud.local"⟩)) orderPlaced ()).1.map Prod.fst) := by
  intro h
  have honce := h.once "https://picloud.local/products/shop/data-products/orders" repeatedTrigger (by decide)
    (by decide)
  revert honce
  decide

end ProjectionRunner

end Picloud
