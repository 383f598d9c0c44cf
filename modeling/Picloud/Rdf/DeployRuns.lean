import Picloud.Lib.Registers
import Picloud.Rdf.Facts

/-!
# Redeployments

Reference: `project_product_deployed`, the `project_product_upgrade_*` handlers, `count_data_product_consumers`
and `validate_data_product_deletion` of `picloud-rdf/src/implementation.rs`.

A deployment adds its version, its status and its dependencies to what is there. Of the upgrade events a
completion replaces the version, all of them replace the status, and none touches the dependencies.
-/

namespace Picloud

open Lib

/-! ## The deletion guard -/

/-- `count_data_product_consumers`, for a text that is an IRI. -/
def countDataProductConsumers (s : Store) (dataProductIri : String) : ℕ :=
  (s.quadsForPattern
    ⟨none, some ⟨pc "consumesDataProduct"⟩, some (node dataProductIri), some .default⟩).length

/-- `PiCloudError::DataProductDeletionBlocked`. -/
structure DataProductDeletionBlocked where
  dataProduct : String
  consumers : ℕ
deriving DecidableEq

/-- `validate_data_product_deletion`. -/
def validateDataProductDeletion (s : Store) (dataProductIri : String) :
    Except DataProductDeletionBlocked Unit :=
  let consumers := countDataProductConsumers s dataProductIri
  if 0 < consumers then .error ⟨dataProductIri, consumers⟩ else .ok ()

/-- A deletion is refused as long as some resource consumes the data product. -/
theorem validateDataProductDeletion_eq_ok_iff {s : Store} {dataProductIri : String} :
    validateDataProductDeletion s dataProductIri = .ok () ↔ ∀ x : Subject,
      ⟨x, ⟨pc "consumesDataProduct"⟩, node dataProductIri, .default⟩ ∉ s := by
  rw [validateDataProductDeletion, countDataProductConsumers]
  split
  · next h =>
    obtain ⟨q, hq⟩ := List.exists_mem_of_length_pos h
    obtain ⟨hmem, hmatch⟩ := Store.mem_quadsForPattern.mp hq
    rw [Pattern.matches_iff, admits_none, admits_some, admits_some, admits_some] at hmatch
    obtain ⟨-, hpred, hobj, hgraph⟩ := hmatch
    refine iff_of_false (by simp) fun hnone => hnone q.subject ?_
    rwa [hpred, hobj, hgraph]
  · next h =>
    refine iff_of_true rfl fun x hx => h (List.length_pos_of_mem (Store.mem_quadsForPattern.mpr ⟨hx, ?_⟩))
    simp [Pattern.matches_iff]

/-! ## What the events say -/

/-- The events about the versions of a product. -/
def deployTypes : List String :=
  ["ProductDeployed", "ProductUpgradeStarted", "ProductUpgradeCompleted", "ProductUpgradeAborted"]

/-- The upgrade events. -/
def upgradeTypes : List String :=
  ["ProductUpgradeStarted", "ProductUpgradeCompleted", "ProductUpgradeAborted"]

/-- The product of an event. -/
def deployedProduct (event : EventEnvelope) : String := event.iriOrSource "product_iri"

/-- The events about a product. -/
def aboutProduct (p : String) (events : List EventEnvelope) : List EventEnvelope :=
  events.filter fun e => deployedProduct e = p

/-- The last deployment of a product. -/
def lastDeployment (p : String) (events : List EventEnvelope) : Option EventEnvelope :=
  ((aboutProduct p events).filter fun e => e.eventType = "ProductDeployed").getLast?

/-- The data product of a well-formed dependency. -/
def dependencyIri (env : ProjectorEnv) (dep : Json) : Option String :=
  (((dependencySource dep).bind fun source => splitOnce source.1).map fun (owningProduct, dpName) =>
    String.ofList ((env.iris.product owningProduct).toList.rdropWhile (· = '/')) ++ "/data-products/" ++
      dpName).filter fun iri => env.checks.iri iri = none

/-- The well-formed `data_products` of a deployment. -/
def dataProductsOf (env : ProjectorEnv) (event : EventEnvelope) : List String :=
  (((event.payload.get? "data_products").bind Json.asArray).getD []).filterMap (dependencyIri env)

/-- The version that an event gives to its product. -/
def versionOf (event : EventEnvelope) : Option String :=
  if event.eventType = "ProductDeployed" then some (event.strD "version" "0.0.0")
  else if event.eventType = "ProductUpgradeCompleted" then
    some (((event.str "to_version").or (event.str "version")).getD "unknown")
  else none

/-- The status that an event gives to its product. -/
def statusOf (event : EventEnvelope) : String :=
  if event.eventType = "ProductUpgradeStarted" then "upgrading"
  else if event.eventType = "ProductUpgradeAborted" then "upgrade_failed"
  else "deployed"

/-- The graph tells of the product what its last deployment declared. -/
structure ReplacedState (env : ProjectorEnv) (events : List EventEnvelope) (s : Store) (p : String) : Prop where
  version : ∃ o, ∀ o', Has s p "version" o' ↔ o' = o
  status : ∃ o, ∀ o', Has s p "status" o' ↔ o' = o
  consumes : ∀ o, Has s p "consumesDataProduct" o ↔
    ∃ d ∈ lastDeployment p events, ∃ dp ∈ dataProductsOf env d, o = node dp

/-- A deployment replaces what is declared of its product, and the deletion guard goes by the last ones. -/
structure DeploymentsReplace (env : ProjectorEnv) (events : List EventEnvelope) (s : Store) : Prop where
  products : ∀ e ∈ events, ReplacedState env events s (deployedProduct e)
  guard : ∀ dp, env.checks.iri dp = none → (validateDataProductDeletion s dp ≠ .ok () ↔
    ∃ p, ∃ d ∈ lastDeployment p events, dp ∈ dataProductsOf env d)

/-- No event about the product leaves an older value beside its own. -/
structure NothingLeft (env : ProjectorEnv) (events : List EventEnvelope) (p : String) : Prop where
  /-- It has a version. -/
  named : ∃ e ∈ aboutProduct p events, versionOf e ≠ none
  /-- Its deployments since the last completed upgrade are of one version, that of the upgrade. -/
  version : ∀ e ∈ sinceLast (fun e => e.eventType = "ProductUpgradeCompleted") (aboutProduct p events),
    ∀ e' ∈ sinceLast (fun e => e.eventType = "ProductUpgradeCompleted") (aboutProduct p events),
      ∀ v ∈ versionOf e, ∀ v' ∈ versionOf e', v = v'
  /-- If it was deployed after its last upgrade event, then that event was a completion. -/
  status : ∀ d ∈ sinceLast (fun e => e.eventType ∈ upgradeTypes) (aboutProduct p events),
    d.eventType = "ProductDeployed" →
      ∀ u ∈ sinceLast (fun e => e.eventType ∈ upgradeTypes) (aboutProduct p events), statusOf u = "deployed"
  /-- The last deployment depends on all that earlier ones depended on. -/
  products : ∀ d ∈ aboutProduct p events, d.eventType = "ProductDeployed" →
    ∀ dp ∈ dataProductsOf env d, ∃ last ∈ lastDeployment p events, dp ∈ dataProductsOf env last

/-! ## What the handlers do -/

/-- A property of a product that events give values to: the events that replace the values, and the values. -/
structure ProductProperty where
  name : String
  replacing : List String
  given : EventEnvelope → Set Term

/-- `version`. -/
def versionProperty : ProductProperty where
  name := "version"
  replacing := ["ProductUpgradeCompleted"]
  given event := { o | ∃ v ∈ versionOf event, o = simple v }

/-- `status`. -/
def statusProperty : ProductProperty where
  name := "status"
  replacing := upgradeTypes
  given event := { simple (statusOf event) }

/-- `consumesDataProduct`. -/
def consumesProperty (env : ProjectorEnv) : ProductProperty where
  name := "consumesDataProduct"
  replacing := []
  given event := { o | event.eventType = "ProductDeployed" ∧ ∃ dp ∈ dataProductsOf env event, o = node dp }

section Handlers

variable {env : ProjectorEnv} {event : EventEnvelope} {s : Store} {p : String} {o : Term}

theorem script_productDeployed (htype : event.eventType = "ProductDeployed") :
    script env event = projectProductDeployed env event := by
  rw [script, htype]
  rfl

theorem script_productUpgradeStarted (htype : event.eventType = "ProductUpgradeStarted") :
    script env event = projectProductUpgradeStarted event := by
  rw [script, htype]
  rfl

theorem script_productUpgradeCompleted (htype : event.eventType = "ProductUpgradeCompleted") :
    script env event = projectProductUpgradeCompleted event := by
  rw [script, htype]
  rfl

theorem script_productUpgradeAborted (htype : event.eventType = "ProductUpgradeAborted") :
    script env event = projectProductUpgradeAborted event := by
  rw [script, htype]
  rfl

variable {iri iri' name : String}

/-- Facts of two platform properties. -/
@[simp] theorem quad_pc_inj {name' : String} {o' : Term} {g g' : GraphName} :
    quad iri (pc name) o g = quad iri' (pc name') o' g' ↔ iri = iri' ∧ name = name' ∧ o = o' ∧ g = g' := by
  simp [quad]

@[simp] theorem quad_pc_ne_rdfType {o' : Term} {g g' : GraphName} :
    quad iri (pc name) o g ≠ quad iri' rdfType o' g' := by
  simp [quad]

/-- The properties in question. -/
def productNames : List String := ["version", "status", "consumesDataProduct"]

/-- The quads of one dependency about its product. -/
theorem put_mem_dependencyTriples {productIri : String} {dep : Json} (hname : name ∈ productNames) :
    Op.put (quad p (pc name) o .default) ∈ dependencyTriples env productIri dep ↔
      p = productIri ∧ name = "consumesDataProduct" ∧ ∃ dp ∈ dependencyIri env dep, o = node dp := by
  have hne : ∀ other ∉ productNames, name ≠ other := fun other hother heq => hother (heq ▸ hname)
  have hlink := hne "dataProduct" (by decide)
  have hversion := hne "minVersion" (by decide)
  have hdependency := hne "dataProductDependency" (by decide)
  rw [dependencyTriples, dependencyIri]
  cases dependencySource dep with
  | none => simp
  | some source =>
    cases hsplit : splitOnce source.1 with
    | none => simp [hsplit]
    | some parts =>
      simp only [hsplit, Option.toList_some, List.flatMap_singleton, List.mem_append, mem_tryInsertNode,
        List.mem_flatMap, Option.mem_toList, Option.mem_def, put_mem_insertTriple, quad_pc_inj,
        quad_pc_ne_rdfType, hlink, hversion, hdependency, false_and, and_false, exists_false, or_false,
        Option.bind_some, Option.map_some, Option.filter_eq_some_iff, Option.some.injEq, decide_eq_true_eq]
      constructor
      · rintro ⟨hiri, hp, hn, ho, -⟩
        exact ⟨hp, hn, _, ⟨rfl, hiri⟩, ho⟩
      · rintro ⟨hp, hn, dp, ⟨rfl, hiri⟩, ho⟩
        exact ⟨hiri, hp, hn, ho, trivial⟩

theorem del_notMem_dependencyTriples {productIri : String} {dep : Json} {pattern : Pattern} :
    Op.del pattern ∉ dependencyTriples env productIri dep := by
  simp [dependencyTriples, mem_tryInsertNode]

theorem has_productDeployed (htype : event.eventType = "ProductDeployed")
    (hok : (projectStore env s event).1 = .ok ()) (hname : name ∈ productNames) :
    Has (projected env s event) p name o ↔ Has s p name o ∨ p = deployedProduct event ∧
      (name = "version" ∧ o = simple (event.strD "version" "0.0.0") ∨ name = "status" ∧ o = simple "deployed" ∨
        name = "consumesDataProduct" ∧ ∃ dp ∈ dataProductsOf env event, o = node dp) := by
  obtain ⟨hiff, heq⟩ := projectStore_ops s ((script_productDeployed htype).trans rfl)
  rw [heq, Has, mem_runOps_of_puts (hiff.mp hok)]
  · refine or_congr_right ?_
    simp only [List.mem_append, put_mem_insertTriple, put_mem_insertNode, quad_pc_ne_rdfType, quad_pc_inj,
      List.mem_flatMap, put_mem_dependencyTriples hname, dataProductsOf, List.mem_filterMap,
      and_true, false_or, or_false]
    simp only [productNames, List.mem_cons, List.not_mem_nil, or_false] at hname
    rw [deployedProduct]
    rcases hname with rfl | rfl | rfl
    · simp
    · simp
    · simp only [String.reduceEq, false_and, and_false, false_or, true_and]
      constructor
      · rintro ⟨dep, hdep, hp, dp, hdp, ho⟩
        exact ⟨hp, dp, ⟨dep, hdep, hdp⟩, ho⟩
      · rintro ⟨hp, dp, ⟨dep, hdep, hdp⟩, ho⟩
        exact ⟨dep, hdep, hp, dp, hdp, ho⟩
  · simp [del_notMem_dependencyTriples]

/-- Taking the values of a property in every graph. -/
@[simp] theorem has_clear_all {name' : String} :
    Has (s.removeIf (valuesOf iri' (pc name') none).matches) iri name o ↔
      Has s iri name o ∧ ¬ (iri = iri' ∧ name = name') := by
  unfold Has
  rw [Store.mem_removeIf, Bool.eq_false_iff, Ne, Pattern.matches_iff, valuesOf]
  simp [quad, @eq_comm _ iri', @eq_comm _ name']

/-- What an upgrade event does to a property. -/
theorem has_productUpgrade (htype : event.eventType ∈ upgradeTypes)
    (hok : (projectStore env s event).1 = .ok ()) (hname : name ∈ productNames) :
    Has (projected env s event) p name o ↔
      Has s p name o ∧ ¬ (p = deployedProduct event ∧ (name = "status" ∨
          name = "version" ∧ event.eventType = "ProductUpgradeCompleted")) ∨
        p = deployedProduct event ∧ (name = "version" ∧ (∃ v ∈ versionOf event, o = simple v) ∨
          name = "status" ∧ o = simple (statusOf event)) := by
  simp only [upgradeTypes, List.mem_cons, List.not_mem_nil, or_false] at htype
  simp only [productNames, List.mem_cons, List.not_mem_nil, or_false] at hname
  rcases htype with htype | htype | htype
  · obtain ⟨hiff, heq⟩ := projectStore_ops s ((script_productUpgradeStarted htype).trans rfl)
    rw [heq, runOps_eq_foldl (hiff.mp hok)]
    rcases hname with rfl | rfl | rfl <;>
      simp [insertTriple, replaceText, removeTriple, Op.effect, versionOf, statusOf, htype, deployedProduct]
  · obtain ⟨hiff, heq⟩ := projectStore_ops s ((script_productUpgradeCompleted htype).trans rfl)
    rw [heq, runOps_eq_foldl (hiff.mp hok)]
    rcases hname with rfl | rfl | rfl <;>
      simp [insertTriple, replaceText, removeTriple, Op.effect, versionOf, statusOf, htype, deployedProduct]
  · obtain ⟨hiff, heq⟩ := projectStore_ops s ((script_productUpgradeAborted htype).trans rfl)
    rw [heq, runOps_eq_foldl (hiff.mp hok)]
    rcases hname with rfl | rfl | rfl <;>
      simp [insertTriple, replaceText, removeTriple, Op.effect, versionOf, statusOf, htype, deployedProduct]

/-- What an event does to a property: some events take the old values, and each gives its own. -/
theorem has_projected_property (htype : event.eventType ∈ deployTypes)
    (hok : (projectStore env s event).1 = .ok ()) {r : ProductProperty}
    (hr : r ∈ [versionProperty, statusProperty, consumesProperty env]) :
    Has (projected env s event) p r.name o ↔
      Has s p r.name o ∧ ¬ (p = deployedProduct event ∧ event.eventType ∈ r.replacing) ∨
        p = deployedProduct event ∧ o ∈ r.given event := by
  have hname : r.name ∈ productNames := by
    simp only [List.mem_cons, List.not_mem_nil, or_false] at hr
    rcases hr with rfl | rfl | rfl <;> simp [productNames, versionProperty, statusProperty, consumesProperty]
  have hsplit : event.eventType = "ProductDeployed" ∨ event.eventType ∈ upgradeTypes := by
    simpa [deployTypes, upgradeTypes] using htype
  simp only [List.mem_cons, List.not_mem_nil, or_false] at hr
  rcases hsplit with htype | htype
  · rw [has_productDeployed htype hok hname]
    rcases hr with rfl | rfl | rfl <;>
      simp [versionProperty, statusProperty, consumesProperty, upgradeTypes, htype, versionOf, statusOf]
  · have hne : event.eventType ≠ "ProductDeployed" := by
      rintro heq
      simp [heq, upgradeTypes] at htype
    rw [has_productUpgrade htype hok hname]
    rcases hr with rfl | rfl | rfl <;>
      simp [versionProperty, statusProperty, consumesProperty, htype, hne]

end Handlers

/-! ## Runs -/

section Run

variable {env : ProjectorEnv} {events : List EventEnvelope} {s : Store} {p : String}

/-- The properties of every product hold what the events gave them. -/
def HoldsGiven (env : ProjectorEnv) (events : List EventEnvelope) (s : Store) : Prop :=
  ∀ p, ∀ r ∈ [versionProperty, statusProperty, consumesProperty env],
    HoldsSince (fun e => e.eventType ∈ r.replacing) r.given (aboutProduct p events) { o | Has s p r.name o }

variable {event : EventEnvelope} {predicate subject : String}

theorem HoldsGiven.step (h : HoldsGiven env events s) (htype : event.eventType ∈ deployTypes)
    (hok : (projectStore env s event).1 = .ok ()) :
    HoldsGiven env (events ++ [event]) (projected env s event) := by
  intro p r hr
  by_cases hp : p = deployedProduct event
  · have habout : aboutProduct p (events ++ [event]) = aboutProduct p events ++ [event] := by
      simp [aboutProduct, hp]
    rw [habout]
    refine (h p r hr).step fun o => ?_
    rw [Set.mem_ofPred_eq, Set.mem_ofPred_eq, has_projected_property htype hok hr, and_comm]
    simp [hp]
  · have habout : aboutProduct p (events ++ [event]) = aboutProduct p events := by
      simp [aboutProduct, Ne.symm hp]
    rw [habout]
    intro o
    rw [Set.mem_ofPred_eq, has_projected_property htype hok hr, ← h p r hr o, Set.mem_ofPred_eq]
    simp [hp]

/-- Subjects are IRIs. -/
def NamedSubjects (s : Store) : Prop := ∀ q ∈ s, ∃ n, q.subject = .named n

/-- The operation inserts nothing about a blank node. -/
def InsertsNamed : Op → Prop
  | .put q => ∃ n, q.subject = .named n
  | _ => True

@[simp] theorem insertsNamed_insertTriple {object : Term} :
    AllOps InsertsNamed (insertTriple subject predicate object) := by
  simp [insertTriple, InsertsNamed, quad]

@[simp] theorem insertsNamed_insertNode {context object : String} :
    AllOps InsertsNamed (insertNode subject predicate context object) := by
  simp [insertNode, InsertsNamed]

@[simp] theorem insertsNamed_removeTriple :
    AllOps InsertsNamed (removeTriple subject predicate) := by
  simp [removeTriple, InsertsNamed]

theorem insertsNamed_script (htype : event.eventType ∈ deployTypes) :
    ∀ step ∈ script env event, step.All InsertsNamed := by
  simp only [deployTypes, List.mem_cons, List.not_mem_nil, or_false] at htype
  rcases htype with htype | htype | htype | htype
  · have hdependency : ∀ iri dep, AllOps InsertsNamed (dependencyTriples env iri dep) := by
      intro iri dep
      simp [dependencyTriples, allOps_tryInsertNode]
    rw [script_productDeployed htype, projectProductDeployed]
    simp [Step.All, hdependency]
  · rw [script_productUpgradeStarted htype, projectProductUpgradeStarted]
    simp [Step.All, replaceText]
  · rw [script_productUpgradeCompleted htype, projectProductUpgradeCompleted]
    simp [Step.All, replaceText]
  · rw [script_productUpgradeAborted htype, projectProductUpgradeAborted]
    simp [Step.All, replaceText]

theorem NamedSubjects.step (h : NamedSubjects s) (htype : event.eventType ∈ deployTypes) :
    NamedSubjects (projected env s event) := by
  rw [projected_eq]
  refine runScript_invariant_of_all (insertsNamed_script htype) (fun op hop t ht => ?_) h
  cases op with
  | put q =>
    intro r hr
    rcases Store.mem_insert.mp hr with hr | rfl
    · exact ht r hr
    · exact hop
  | del p => exact fun r hr => ht r (Store.mem_removeIf.mp hr).1
  | _ => exact ht

section Values

variable (hgiven : HoldsGiven env events s)
include hgiven

variable {o : Term}

theorem HoldsGiven.version_iff : Has s p "version" o ↔
    ∃ e ∈ sinceLast (fun e => e.eventType = "ProductUpgradeCompleted") (aboutProduct p events),
      ∃ v ∈ versionOf e, o = simple v := by
  have h := hgiven p versionProperty (by simp) o
  simpa [versionProperty] using h

theorem HoldsGiven.status_iff : Has s p "status" o ↔
    ∃ e ∈ sinceLast (fun e => e.eventType ∈ upgradeTypes) (aboutProduct p events), o = simple (statusOf e) := by
  exact hgiven p statusProperty (by simp) o

theorem HoldsGiven.consumes_iff : Has s p "consumesDataProduct" o ↔
    ∃ d ∈ aboutProduct p events, d.eventType = "ProductDeployed" ∧
      ∃ dp ∈ dataProductsOf env d, o = node dp := by
  have h := hgiven p (consumesProperty env) (by simp) o
  rw [sinceLast_of_forall_not (by simp [consumesProperty])] at h
  simpa [consumesProperty] using h

/-- One version. -/
theorem HoldsGiven.single_version_iff : (∃ o, ∀ o', Has s p "version" o' ↔ o' = o) ↔
    (∃ e ∈ aboutProduct p events, versionOf e ≠ none) ∧
      ∀ e ∈ sinceLast (fun e => e.eventType = "ProductUpgradeCompleted") (aboutProduct p events),
        ∀ e' ∈ sinceLast (fun e => e.eventType = "ProductUpgradeCompleted") (aboutProduct p events),
          ∀ v ∈ versionOf e, ∀ v' ∈ versionOf e', v = v' := by
  simp only [hgiven.version_iff]
  constructor
  · rintro ⟨o, ho⟩
    obtain ⟨e, he, v, hv, -⟩ := (ho o).mpr rfl
    refine ⟨⟨e, mem_of_mem_sinceLast he, by simp [Option.mem_def.mp hv]⟩, fun e he e' he' v hv v' hv' => ?_⟩
    have heq := ((ho _).mp ⟨e, he, v, hv, rfl⟩).trans ((ho _).mp ⟨e', he', v', hv', rfl⟩).symm
    simpa [simple] using heq
  · rintro ⟨⟨e, he, hne⟩, hsame⟩
    -- the version of the event, or of the upgrade after it
    obtain ⟨e', he', v, hv⟩ : ∃ e' ∈ sinceLast (fun e => e.eventType = "ProductUpgradeCompleted")
        (aboutProduct p events), ∃ v, v ∈ versionOf e' := by
      rcases mem_sinceLast_or (fun e => e.eventType = "ProductUpgradeCompleted") he
        with hkept | ⟨c, hc, htype⟩
      · exact ⟨e, hkept, Option.ne_none_iff_exists'.mp hne⟩
      · exact ⟨c, hc, by simp [versionOf, htype]⟩
    refine ⟨simple v, fun o' => ⟨?_, ?_⟩⟩
    · rintro ⟨e₂, he₂, v₂, hv₂, rfl⟩
      rw [hsame e₂ he₂ e' he' v₂ hv₂ v hv]
    · rintro rfl
      exact ⟨e', he', v, hv, rfl⟩

/-- One status. -/
theorem HoldsGiven.single_status_iff (htypes : ∀ e ∈ events, e.eventType ∈ deployTypes)
    (hne : aboutProduct p events ≠ []) : (∃ o, ∀ o', Has s p "status" o' ↔ o' = o) ↔
      ∀ d ∈ sinceLast (fun e => e.eventType ∈ upgradeTypes) (aboutProduct p events),
        d.eventType = "ProductDeployed" →
          ∀ u ∈ sinceLast (fun e => e.eventType ∈ upgradeTypes) (aboutProduct p events),
            statusOf u = "deployed" := by
  simp only [hgiven.status_iff]
  constructor
  · rintro ⟨o, ho⟩ d hd htype u hu
    have heq := ((ho _).mp ⟨u, hu, rfl⟩).trans ((ho _).mp ⟨d, hd, rfl⟩).symm
    simpa [simple, statusOf, htype] using heq
  · intro hstatus
    obtain ⟨e, he⟩ : ∃ e, e ∈ sinceLast (fun e => e.eventType ∈ upgradeTypes) (aboutProduct p events) := by
      obtain ⟨e, he⟩ := List.exists_mem_of_ne_nil _ hne
      rcases mem_sinceLast_or (fun e => e.eventType ∈ upgradeTypes) he with hkept | ⟨c, hc, -⟩
      · exact ⟨e, hkept⟩
      · exact ⟨c, hc⟩
    have hsame : ∀ e' ∈ sinceLast (fun e => e.eventType ∈ upgradeTypes) (aboutProduct p events),
        statusOf e' = statusOf e := by
      intro e' he'
      have hsplit : ∀ e ∈ sinceLast (fun e => e.eventType ∈ upgradeTypes) (aboutProduct p events),
          e.eventType = "ProductDeployed" ∨ e.eventType ∈ upgradeTypes := by
        intro e he
        have htype := htypes e (List.mem_filter.mp (mem_of_mem_sinceLast he)).1
        simpa [deployTypes, upgradeTypes] using htype
      rcases hsplit e he with hdeployed | hupgrade
      · rw [hstatus e he hdeployed e' he', hstatus e he hdeployed e he]
      · rcases hsplit e' he' with hdeployed' | hupgrade'
        · rw [hstatus e' he' hdeployed' e' he', hstatus e' he' hdeployed' e he]
        · rw [eq_of_mem_sinceLast he' he hupgrade' hupgrade]
    refine ⟨simple (statusOf e), fun o' => ⟨?_, ?_⟩⟩
    · rintro ⟨e', he', rfl⟩
      rw [hsame e' he']
    · rintro rfl
      exact ⟨e, he, rfl⟩

/-- The data products of the last deployment. -/
theorem HoldsGiven.consumes_last_iff : (∀ o, Has s p "consumesDataProduct" o ↔
      ∃ d ∈ lastDeployment p events, ∃ dp ∈ dataProductsOf env d, o = node dp) ↔
    ∀ d ∈ aboutProduct p events, d.eventType = "ProductDeployed" →
      ∀ dp ∈ dataProductsOf env d, ∃ last ∈ lastDeployment p events, dp ∈ dataProductsOf env last := by
  simp only [hgiven.consumes_iff]
  constructor
  · intro h d hd htype dp hdp
    obtain ⟨last, hlast, dp', hdp', heq⟩ := (h (node dp)).mp ⟨d, hd, htype, dp, hdp, rfl⟩
    obtain rfl : dp = dp' := by simpa [node] using heq
    exact ⟨last, hlast, hdp'⟩
  · intro h o
    constructor
    · rintro ⟨d, hd, htype, dp, hdp, rfl⟩
      obtain ⟨last, hlast, hdp'⟩ := h d hd htype dp hdp
      exact ⟨last, hlast, dp, hdp', rfl⟩
    · rintro ⟨last, hlast, dp, hdp, rfl⟩
      obtain ⟨habout, htype⟩ := List.mem_filter.mp (List.mem_of_getLast? hlast)
      exact ⟨last, habout, of_decide_eq_true htype, dp, hdp, rfl⟩

end Values

/-- The guard goes by what products consume. -/
theorem guard_iff (hnamed : NamedSubjects s) {dp : String} : validateDataProductDeletion s dp ≠ .ok () ↔
    ∃ p, Has s p "consumesDataProduct" (node dp) := by
  rw [Ne, validateDataProductDeletion_eq_ok_iff]
  push Not
  constructor
  · rintro ⟨x, hx⟩
    obtain ⟨n, rfl⟩ := hnamed _ hx
    exact ⟨n.value, hx⟩
  · rintro ⟨p, hp⟩
    exact ⟨_, hp⟩

/-- In a graph that holds what events gave, deployments replace exactly when nothing is left of others. -/
theorem HoldsGiven.deploymentsReplace_iff (hgiven : HoldsGiven env events s) (hnamed : NamedSubjects s)
    (htypes : ∀ e ∈ events, e.eventType ∈ deployTypes) :
    DeploymentsReplace env events s ↔ ∀ e ∈ events, NothingLeft env events (deployedProduct e) := by
  have habout : ∀ e ∈ events, aboutProduct (deployedProduct e) events ≠ [] := fun e he =>
    List.ne_nil_of_mem (List.mem_filter.mpr ⟨he, decide_eq_true rfl⟩)
  constructor
  · intro h e he
    have hproduct := h.products e he
    obtain ⟨hne, hversion⟩ := hgiven.single_version_iff.mp hproduct.version
    exact ⟨hne, hversion, (hgiven.single_status_iff htypes (habout e he)).mp hproduct.status,
      hgiven.consumes_last_iff.mp hproduct.consumes⟩
  · intro h
    have hconsumes : ∀ p o, Has s p "consumesDataProduct" o ↔
        ∃ d ∈ lastDeployment p events, ∃ dp ∈ dataProductsOf env d, o = node dp := by
      intro p
      by_cases hp : aboutProduct p events = []
      · intro o
        rw [hgiven.consumes_iff, lastDeployment, hp]
        simp
      · obtain ⟨e, he⟩ := List.exists_mem_of_ne_nil _ hp
        obtain ⟨hmem, hproduct⟩ := List.mem_filter.mp he
        obtain rfl := of_decide_eq_true hproduct
        exact hgiven.consumes_last_iff.mpr (h e hmem).products
    refine ⟨fun e he => ⟨hgiven.single_version_iff.mpr ⟨(h e he).named, (h e he).version⟩,
      (hgiven.single_status_iff htypes (habout e he)).mpr (h e he).status, hconsumes _⟩, fun dp _ => ?_⟩
    rw [guard_iff hnamed]
    refine exists_congr fun p => ?_
    rw [hconsumes]
    simp [node]

end Run

/-- **Deployments replace the declared state of their products exactly when no event leaves an older value beside
its own.** -/
theorem deployments_replace_iff (env : ProjectorEnv) (events : List EventEnvelope) (p : Projector)
    (htypes : ∀ e ∈ events, e.eventType ∈ deployTypes)
    (hrun : Projector.new.replayLoop env events = (.ok (), p)) :
    DeploymentsReplace env events p.store ↔ ∀ e ∈ events, NothingLeft env events (deployedProduct e) := by
  have hstart : HoldsGiven env [] [] ∧ NamedSubjects [] := by
    refine ⟨fun p r _ => ?_, by simp [NamedSubjects]⟩
    simp [HoldsSince, aboutProduct]
  have hafter := Projector.replayLoop_history (R := fun h s => HoldsGiven env h s ∧ NamedSubjects s)
    (fun h s e he hs hok => ⟨hs.1.step (htypes e he) hok, hs.2.step (htypes e he)⟩) hrun hstart
  exact hafter.1.deploymentsReplace_iff hafter.2 htypes

/-! ## Examples -/

/-- A deployment of the sample product. -/
def sampleDeployment (dataProducts : List String) : EventEnvelope :=
  sampleEvent "ProductDeployed" none
    [("product_iri", .string "https://picloud.local/products/shop"), ("product_name", .string "shop"),
      ("version", .string "1.0.0"), ("data_products", .array (dataProducts.map Json.string))]

/-- The product is deployed again, with one more dependency. -/
def withMore : List EventEnvelope :=
  [sampleDeployment ["sales/orders"], sampleDeployment ["sales/orders", "sales/invoices"]]

/-- The second deployment replaces the first. -/
theorem deployments_replace_withMore :
    (Projector.new.replayLoop plainEnv withMore).1 = .ok () ∧
      DeploymentsReplace plainEnv withMore (Projector.new.replayLoop plainEnv withMore).2.store := by
  have hok : (Projector.new.replayLoop plainEnv withMore).1 = .ok () := by decide +kernel
  refine ⟨hok, (deployments_replace_iff plainEnv _ _ (by decide) (Prod.ext hok rfl)).mpr ?_⟩
  have hsame : ∀ e ∈ withMore, deployedProduct e = deployedProduct (sampleDeployment []) := by decide
  intro e he
  rw [hsame e he]
  exact ⟨by decide, by decide, by decide, by decide⟩

/-- The product is deployed again, without the dependency. -/
def withoutDependency : List EventEnvelope := [sampleDeployment ["sales/orders"], sampleDeployment []]

/-- The data product cannot be deleted although no deployed product depends on it. -/
theorem not_deployments_replace_withoutDependency :
    (Projector.new.replayLoop plainEnv withoutDependency).1 = .ok () ∧
      ¬ DeploymentsReplace plainEnv withoutDependency
        (Projector.new.replayLoop plainEnv withoutDependency).2.store := by
  refine ⟨by decide +kernel, fun h => ?_⟩
  have hconsumes := ((h.products (sampleDeployment []) (by simp [withoutDependency])).consumes
    (node "https://picloud.local/products/sales/data-products/orders")).mp (by decide +kernel)
  obtain ⟨d, hd, dp, hdp, -⟩ := hconsumes
  have hlast : lastDeployment (deployedProduct (sampleDeployment [])) withoutDependency =
      some (sampleDeployment []) := rfl
  rw [hlast, Option.mem_some_iff] at hd
  subst hd
  have hnone : dataProductsOf plainEnv (sampleDeployment []) = [] := rfl
  simp [hnone] at hdp

end Picloud
