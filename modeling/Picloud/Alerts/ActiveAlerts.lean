import Picloud.Alerts.Actions
import Picloud.Lib.Steps

/-!
# The alerts in the graph

The evaluator keeps its state by rule and resource, and the graph keeps one alert for a type and a
resource. Resolving one rule removes the alert, also when another rule of its type is still firing.
While this does not happen, the alerts in the graph are the firing rules.
-/

namespace Picloud

open Lib

/-! ## The events in the graph -/

section Projection

variable {env : ProjectorEnv} {event : EventEnvelope}

theorem script_alertFired (h : event.eventType = "AlertFired") :
    script env event = projectAlertFired env event := by
  rw [script, h]
  rfl

theorem script_alertResolved (h : event.eventType = "AlertResolved") :
    script env event = projectAlertResolved env event := by
  rw [script, h]
  rfl

/-- The optional quads about an alert. -/
def tryNodeQuads (env : ProjectorEnv) (subject predicate object : String) : List Quad :=
  match env.checks.iri object with
  | none => [quad subject predicate (node object) .default]
  | some _ => []

theorem runOps_tryInsertNode {subject predicate : String} (hs : env.checks.iri subject = none)
    (hp : env.checks.iri predicate = none) (object : String) (s : Store) (ops : List Op) :
    runOps env.checks s (tryInsertNode env subject predicate object ++ ops) =
      runOps env.checks ((tryNodeQuads env subject predicate object).foldl Store.insert s) ops := by
  unfold tryInsertNode tryNodeQuads
  cases env.checks.iri object with
  | none => exact runOps_insertTriple hs hp s _ ops
  | some error => rfl

/-- The quads about a fired alert. -/
def alertQuads (env : ProjectorEnv) (p : AlertFiredPayload) : List Quad :=
  let iri := alertIri env p.resourceIri.value p.alertType
  [quad iri rdfType (picloudTerm "Alert") .default,
    quad iri (pc "alertType") (simple p.alertType) .default,
    quad iri (pc "severity") (simple p.severity.text) .default,
    quad iri (pc "message") (simple p.message) .default] ++
    tryNodeQuads env iri (pc "alertResource") p.resourceIri.value ++
    if p.ruleIri.value = "" then [] else tryNodeQuads env iri (pc "alertRule") p.ruleIri.value

theorem mem_foldl_insert {s : Store} {qs : List Quad} {q : Quad} :
    q ∈ qs.foldl Store.insert s ↔ q ∈ s ∨ q ∈ qs := by
  induction qs generalizing s with
  | nil => simp
  | cons r qs ih =>
    rw [List.foldl_cons, ih, Store.mem_insert, List.mem_cons, or_assoc]

end Projection

namespace AlertEvaluator

variable {F : Type} {ev : AlertEvaluator F} {env : ProjectorEnv} {timeText : ℤ → String}
  {nodeIri : ResourceIri} {stamp : EventStamp}

variable {p : AlertFiredPayload} {actions : List AlertAction} {q : Quad} {states' : AlertStates}
  {r t iri : String} {v : Term}

theorem projected_fire (hiri : env.checks.iri (alertIri env p.resourceIri.value p.alertType) = none)
    (s : Store) :
    projected env s (ev.alertEvent timeText nodeIri stamp (.fire p)) =
      (alertQuads env p).foldl Store.insert s := by
  have hpc : ∀ name, (∀ c ∈ name.toList, c.isAlphanum = true) → env.checks.iri (pc name) = none :=
    env.iri_pc
  have hscript : script env (ev.alertEvent timeText nodeIri stamp (.fire p)) =
      [.ops (insertTriple (alertIri env p.resourceIri.value p.alertType) rdfType
          (picloudTerm "Alert") ++
        insertTriple (alertIri env p.resourceIri.value p.alertType) (pc "alertType")
          (simple p.alertType) ++
        insertTriple (alertIri env p.resourceIri.value p.alertType) (pc "severity")
          (simple p.severity.text) ++
        insertTriple (alertIri env p.resourceIri.value p.alertType) (pc "message")
          (simple p.message) ++
        tryInsertNode env (alertIri env p.resourceIri.value p.alertType) (pc "alertResource")
          p.resourceIri.value ++
        if p.ruleIri.value = "" then []
        else tryInsertNode env (alertIri env p.resourceIri.value p.alertType) (pc "alertRule")
          p.ruleIri.value)] := script_alertFired rfl
  rw [projected_eq, hscript, runScript_singleton, Step.run]
  simp only [List.append_assoc]
  rw [runOps_insertTriple hiri env.iri_rdfType, runOps_insertTriple hiri (hpc _ (by decide)),
    runOps_insertTriple hiri (hpc _ (by decide)), runOps_insertTriple hiri (hpc _ (by decide)),
    runOps_tryInsertNode hiri (hpc _ (by decide)), alertQuads]
  simp only [List.foldl_append]
  by_cases hrule : p.ruleIri.value = ""
  · rw [if_pos hrule, if_pos hrule]
    rfl
  · rw [if_neg hrule, if_neg hrule, ← List.append_nil (tryInsertNode env _ (pc "alertRule") _),
      runOps_tryInsertNode hiri (hpc _ (by decide))]
    rfl

theorem projected_resolve {p : AlertResolvedPayload}
    (hiri : env.checks.iri (alertIri env p.resourceIri.value p.alertType) = none) (s : Store) :
    projected env s (ev.alertEvent timeText nodeIri stamp (.resolve p)) =
      s.removeIf (aboutIri (alertIri env p.resourceIri.value p.alertType)).matches := by
  have hscript : script env (ev.alertEvent timeText nodeIri stamp (.resolve p)) =
      [.ops (removeTriplesAboutAllGraphs (alertIri env p.resourceIri.value p.alertType))] :=
    script_alertResolved rfl
  rw [projected_eq, hscript, runScript_singleton, Step.run, removeTriplesAboutAllGraphs,
    runOps_named_ok _ hiri]
  rfl

/-- The alert of an action. -/
def actionIri (env : ProjectorEnv) : AlertAction → String
  | .fire p => alertIri env p.resourceIri.value p.alertType
  | .resolve p => alertIri env p.resourceIri.value p.alertType

/-- What an action keeps of the graph. -/
def keeps (env : ProjectorEnv) : AlertAction → Set Quad
  | .fire _ => Set.univ
  | .resolve p => {q | q.subject ≠ .named ⟨alertIri env p.resourceIri.value p.alertType⟩}

/-- What an action adds to the graph. -/
def adds (env : ProjectorEnv) : AlertAction → Set Quad
  | .fire p => {q | q ∈ alertQuads env p}
  | .resolve _ => ∅

theorem mem_projected {a : AlertAction} (hiri : env.checks.iri (actionIri env a) = none) (s : Store)
    (q : Quad) : q ∈ projected env s (ev.alertEvent timeText nodeIri stamp a) ↔
      q ∈ s ∧ q ∈ keeps env a ∨ q ∈ adds env a := by
  cases a with
  | fire p =>
    rw [projected_fire hiri, mem_foldl_insert]
    simp [keeps, adds]
  | resolve p =>
    rw [projected_resolve hiri, Store.mem_removeIf, Bool.eq_false_iff, ne_eq, Pattern.matches_iff]
    simp only [aboutIri, admits_some, admits_none, and_true, keeps, adds, Set.mem_ofPred_eq,
      Set.mem_empty_iff_false, or_false]
    exact and_congr_right fun _ => not_congr eq_comm

theorem mem_foldl_projected {stamps : ℕ → EventStamp}
    (hiri : ∀ a ∈ actions, env.checks.iri (actionIri env a) = none)
    (hpair : actions.Pairwise fun a b => adds env a ⊆ keeps env b) (s : Store) (q : Quad) :
    q ∈ (actions.mapIdx fun i a => ev.alertEvent timeText nodeIri (stamps i) a).foldl
        (projected env) s ↔
      (q ∈ s ∧ ∀ a ∈ actions, q ∈ keeps env a) ∨ ∃ a ∈ actions, q ∈ adds env a := by
  have hfst : actions.zipIdx.map Prod.fst = actions := List.zipIdx_map_fst 0 actions
  have hmem : ∀ b ∈ actions.zipIdx, b.1 ∈ actions := fun b hb => hfst ▸ List.mem_map_of_mem hb
  rw [List.mapIdx_eq_zipIdx_map, List.foldl_map,
    mem_foldl_of_pairwise (fun b => keeps env b.1) (fun b => adds env b.1)
      (fun b hb s q => mem_projected (hiri b.1 (hmem b hb)) s q)
      (by rwa [← hfst, List.pairwise_map] at hpair)]
  have hlift : ∀ a ∈ actions, ∃ b ∈ actions.zipIdx, b.1 = a := fun a ha =>
    List.mem_map.mp (hfst.symm ▸ ha)
  refine or_congr (and_congr_right fun _ => ⟨fun h a ha => ?_, fun h b hb => h b.1 (hmem b hb)⟩)
    ⟨fun ⟨b, hb, h⟩ => ⟨b.1, hmem b hb, h⟩, fun ⟨a, ha, h⟩ => ?_⟩
  · obtain ⟨b, hb, rfl⟩ := hlift a ha
    exact h b hb
  · obtain ⟨b, hb, rfl⟩ := hlift a ha
    exact ⟨b, hb, h⟩

/-! ## The alerts of the firing rules -/

/-- An evaluation that keeps the alerts of the rules that go on firing. -/
structure Separate (ev : AlertEvaluator F) (env : ProjectorEnv) (run : AlertRun)
    (e : Evaluation F) : Prop where
  /-- The alerts of the rules that fire or are resolved are IRIs. -/
  valid : ∀ A ∈ ev.rules, ev.Fires run.states e A ∨ ev.Resolves run.states e A →
    env.checks.iri (alertIri env e.nodeIri.value A.alertType) = none
  /-- A rule is resolved together with all rules of its type that are firing on the node. -/
  together : ∀ A ∈ ev.rules, ev.Resolves run.states e A → ∀ B ∈ ev.rules,
    B.alertType = A.alertType → firing run.states B e.nodeIri.value = true →
    ev.Resolves run.states e B
  /-- No rule fires before one with the same alert is resolved. -/
  ordered : ev.rules.Pairwise fun B A => ev.Fires run.states e B → ev.Resolves run.states e A →
    alertIri env e.nodeIri.value B.alertType ≠ alertIri env e.nodeIri.value A.alertType
  /-- A rule that fires shares its alert with rules of its type on its node only. -/
  apart : ∀ A ∈ ev.rules, ev.Fires run.states e A → ∀ B ∈ ev.rules, ∀ r,
    (r = e.nodeIri.value ∧ ev.Fires run.states e B ∨ firing run.states B r = true ∧
      ¬ (r = e.nodeIri.value ∧ ev.Resolves run.states e B)) →
    alertIri env r B.alertType = alertIri env e.nodeIri.value A.alertType →
    r = e.nodeIri.value ∧ B.alertType = A.alertType

/-- The graph holds an alert of a type for a resource. -/
def HoldsAlert (env : ProjectorEnv) (s : Store) (resource alertType : String) : Prop :=
  quad (alertIri env resource alertType) rdfType (picloudTerm "Alert") .default ∈ s ∧
    quad (alertIri env resource alertType) (pc "alertType") (simple alertType) .default ∈ s

/-- The alerts in the graph are the firing rules. -/
structure AlertsAgree (ev : AlertEvaluator F) (env : ProjectorEnv) (run : AlertRun) : Prop where
  held : ∀ r t, HoldsAlert env run.store r t ↔
    ∃ rule ∈ ev.rules, rule.alertType = t ∧ firing run.states rule r = true
  severities : ∀ r t, HoldsAlert env run.store r t → ∀ v,
    quad (alertIri env r t) (pc "severity") v .default ∈ run.store ↔
      ∃ rule ∈ ev.rules, rule.alertType = t ∧ firing run.states rule r = true ∧
        v = simple rule.severity.text
  messages : ∀ r t, HoldsAlert env run.store r t → ∀ v,
    quad (alertIri env r t) (pc "message") v .default ∈ run.store ↔
      ∃ rule ∈ ev.rules, rule.alertType = t ∧ firing run.states rule r = true ∧
        ∃ p, (ev.actionsOf rule r run.actions).getLast? = some (.fire p) ∧ v = simple p.message
  alternate : ∀ rule ∈ ev.rules, ∀ r,
    Alternates (ev.dampeningSecs * 10 ^ 9) (ev.actionsOf rule r run.actions)

/-- The invariant of a run. -/
structure Tracked (ev : AlertEvaluator F) (env : ProjectorEnv) (run : AlertRun) : Prop where
  history : ∀ rule ∈ ev.rules, ∀ r, History ev rule r run.states run.actions
  apart : ∀ A ∈ ev.rules, ∀ B ∈ ev.rules, ∀ r r', firing run.states A r = true →
    firing run.states B r' = true → alertIri env r' B.alertType = alertIri env r A.alertType →
    r' = r ∧ B.alertType = A.alertType
  graph : ∀ q, (∃ r t, q.subject = .named ⟨alertIri env r t⟩) → (q ∈ run.store ↔
    ∃ rule ∈ ev.rules, ∃ r p,
      (ev.actionsOf rule r run.actions).getLast? = some (.fire p) ∧ q ∈ alertQuads env p)

variable {run run' : AlertRun} {e : Evaluation F}

theorem eq_of_mem_tryNodeQuads {subject predicate object : String}
    (h : q ∈ tryNodeQuads env subject predicate object) :
    q = quad subject predicate (node object) .default := by
  unfold tryNodeQuads at h
  cases hc : env.checks.iri object with
  | none =>
    rw [hc] at h
    exact List.mem_singleton.mp h
  | some error => simp [hc] at h

/-- The quads about a fired alert, one by one. -/
theorem mem_alertQuads_cases (h : q ∈ alertQuads env p) :
    ∃ predicate v, q = quad (alertIri env p.resourceIri.value p.alertType) predicate v .default ∧
      (predicate = rdfType ∨ (predicate = pc "alertType" ∧ v = simple p.alertType) ∨
        (predicate = pc "severity" ∧ v = simple p.severity.text) ∨
        (predicate = pc "message" ∧ v = simple p.message) ∨
        predicate = pc "alertResource" ∨ predicate = pc "alertRule") := by
  unfold alertQuads at h
  rcases List.mem_append.mp h with h | h
  · rcases List.mem_append.mp h with h | h
    · simp only [List.mem_cons, List.not_mem_nil, or_false] at h
      rcases h with rfl | rfl | rfl | rfl <;> exact ⟨_, _, rfl, by simp⟩
    · exact ⟨_, _, eq_of_mem_tryNodeQuads h, by simp⟩
  · split at h
    · simp at h
    · exact ⟨_, _, eq_of_mem_tryNodeQuads h, by simp⟩

theorem subject_of_mem_alertQuads (h : q ∈ alertQuads env p) :
    q.subject = .named ⟨alertIri env p.resourceIri.value p.alertType⟩ := by
  obtain ⟨predicate, v, rfl, -⟩ := mem_alertQuads_cases h
  rfl

theorem actionIri_of_isActionOf {states : AlertStates} {rule : BuiltInAlertRule F} {a : AlertAction}
    (h : ev.IsActionOf states e rule a) :
    actionIri env a = alertIri env e.nodeIri.value rule.alertType := by
  rcases h with ⟨-, value, rfl⟩ | ⟨-, rfl⟩ <;> rfl

theorem Separate.pairwise (hn : (ev.rules.map BuiltInAlertRule.name).Nodup)
    (hev : ev.evaluate run.states e.nodeIri e.metrics e.now = some (actions, states'))
    (h : Separate ev env run e) : actions.Pairwise fun a b => adds env a ⊆ keeps env b := by
  refine pairwise_evaluate hn hev (h.ordered.imp fun {B A} hBA b a hb ha => ?_)
  rcases hb with ⟨hB, value, rfl⟩ | ⟨-, rfl⟩
  · rcases ha with ⟨-, value', rfl⟩ | ⟨hA, rfl⟩
    · exact Set.subset_univ _
    · intro q hq heq
      have hiri := Subject.named.inj ((subject_of_mem_alertQuads hq).symm.trans heq)
      exact hBA hB hA (congrArg NamedNode.value hiri)
  · exact Set.empty_subset _

/-- The graph after an evaluation. -/
theorem Tracked.graph_evaluate (hn : (ev.rules.map BuiltInAlertRule.name).Nodup)
    (hev : ev.evaluate run.states e.nodeIri e.metrics e.now = some (actions, states'))
    (ht : Tracked ev env run) (hs : Separate ev env run e)
    (hq : ∃ r t, q.subject = .named ⟨alertIri env r t⟩) :
    ((q ∈ run.store ∧ ∀ a ∈ actions, q ∈ keeps env a) ∨ ∃ a ∈ actions, q ∈ adds env a) ↔
      ∃ rule ∈ ev.rules, ∃ r p,
        (ev.actionsOf rule r (run.actions ++ actions)).getLast? = some (.fire p) ∧
          q ∈ alertQuads env p := by
  constructor
  · rintro (⟨hmem, hkeep⟩ | ⟨a, ha, hadd⟩)
    · obtain ⟨rule, hrule, r, p, hlast, hp⟩ := (ht.graph q hq).mp hmem
      obtain ⟨hfiring, hpayload⟩ := (ht.history rule hrule r).of_getLast? hlast
      refine ⟨rule, hrule, r, p, ?_, hp⟩
      rcases evaluate_cases hn hev hrule r with ⟨rfl, hf, -, -⟩ | ⟨rfl, -, hacts, -⟩ | ⟨-, hacts, -⟩
      · exact absurd hf (not_fires_of_firing hfiring)
      · -- the rule is resolved, so its quads are not kept
        have hres : ev.resolveAction e.nodeIri e.now rule ∈ actions :=
          List.mem_of_mem_filter (hacts ▸ List.mem_singleton_self _)
        refine absurd (subject_of_mem_alertQuads hp) ?_
        rw [hpayload.resourceIri, hpayload.alertType]
        exact hkeep _ hres
      · rw [actionsOf_append, hacts, List.append_nil, hlast]
    · obtain ⟨rule, hrule, hact⟩ := isActionOf_of_mem hn hev ha
      rcases hact with ⟨hf, value, rfl⟩ | ⟨-, rfl⟩
      · refine ⟨rule, hrule, e.nodeIri.value, _, ?_, hadd⟩
        rcases evaluate_cases hn hev hrule e.nodeIri.value with ⟨-, -, ⟨value', hacts⟩, -⟩ |
          ⟨-, hres, -, -⟩ | ⟨hno, -, -⟩
        · have hin : ev.fireAction e.nodeIri e.now rule value ∈
              ev.actionsOf rule e.nodeIri.value actions :=
            List.mem_filter.mpr ⟨ha, decide_eq_true ⟨rfl, rfl⟩⟩
          rw [hacts, List.mem_singleton] at hin
          rw [actionsOf_append, hacts, List.getLast?_concat, ← hin]
          rfl
        · exact absurd hf (not_fires_of_firing hres.2)
        · exact absurd ⟨rfl, .inl hf⟩ hno
      · exact absurd hadd (Set.notMem_empty q)
  · rintro ⟨rule, hrule, r, p, hlast, hp⟩
    rcases evaluate_cases hn hev hrule r with ⟨rfl, -, ⟨value, hacts⟩, -⟩ | ⟨rfl, -, hacts, -⟩ |
      ⟨hno, hacts, -⟩
    · refine .inr ⟨.fire p, ?_, hp⟩
      rw [actionsOf_append, hacts, List.getLast?_concat] at hlast
      exact List.mem_of_mem_filter (hacts ▸ List.mem_singleton.mpr (Option.some.inj hlast).symm)
    · rw [actionsOf_append, hacts, List.getLast?_concat] at hlast
      simp [resolveAction] at hlast
    · rw [actionsOf_append, hacts, List.append_nil] at hlast
      obtain ⟨hfiring, hpayload⟩ := (ht.history rule hrule r).of_getLast? hlast
      refine .inl ⟨(ht.graph q hq).mpr ⟨rule, hrule, r, p, hlast, hp⟩, fun a ha => ?_⟩
      obtain ⟨A, hA, hact⟩ := isActionOf_of_mem hn hev ha
      rcases hact with ⟨-, value, rfl⟩ | ⟨hres, rfl⟩
      · exact Set.mem_univ q
      · -- a resolved rule with this alert takes the rule along
        intro hsubject
        have hiri := Subject.named.inj ((subject_of_mem_alertQuads hp).symm.trans hsubject)
        rw [hpayload.resourceIri, hpayload.alertType] at hiri
        obtain ⟨rfl, htype⟩ := ht.apart A hA rule hrule e.nodeIri.value r hres.2 hfiring
          (congrArg NamedNode.value hiri)
        exact hno ⟨rfl, .inr (hs.together A hA hres rule hrule htype hfiring)⟩

theorem Tracked.apart_evaluate (hn : (ev.rules.map BuiltInAlertRule.name).Nodup)
    (hev : ev.evaluate run.states e.nodeIri e.metrics e.now = some (actions, states'))
    (ht : Tracked ev env run) (hs : Separate ev env run e) {A B : BuiltInAlertRule F}
    (hA : A ∈ ev.rules) (hB : B ∈ ev.rules) {r' : String} (hfA : firing states' A r = true)
    (hfB : firing states' B r' = true)
    (hiri : alertIri env r' B.alertType = alertIri env r A.alertType) :
    r' = r ∧ B.alertType = A.alertType := by
  have hoB := (firing_evaluate hn hev hB r').mp hfB
  rcases (firing_evaluate hn hev hA r).mp hfA with ⟨rfl, hA'⟩ | hoA
  · exact hs.apart A hA hA' B hB r' hoB hiri
  · rcases hoB with ⟨rfl, hB'⟩ | hoB
    · obtain ⟨hr, htype⟩ := hs.apart B hB hB' A hA r (.inr hoA) hiri.symm
      exact ⟨hr.symm, htype.symm⟩
    · exact ht.apart A hA B hB r r' hoA.1 hoB.1 hiri

/-- A step keeps the invariant. -/
theorem Tracked.step (hn : (ev.rules.map BuiltInAlertRule.name).Nodup)
    (hsecs : ev.dampeningSecs < 2 ^ 63) (ht : Tracked ev env run) (hs : Separate ev env run e)
    (hstep : ev.step env timeText run e = some run') : Tracked ev env run' := by
  obtain ⟨⟨actions, states'⟩, hev, rfl⟩ := Option.map_eq_some_iff.mp hstep
  refine ⟨fun rule hrule r => (ht.history rule hrule r).evaluate hn hsecs hev hrule,
    fun A hA B hB r r' => ht.apart_evaluate hn hev hs hA hB, fun q hq => ?_⟩
  have hiri : ∀ a ∈ actions, env.checks.iri (actionIri env a) = none := by
    intro a ha
    obtain ⟨rule, hrule, hact⟩ := isActionOf_of_mem hn hev ha
    rw [actionIri_of_isActionOf hact]
    exact hs.valid rule hrule (hact.imp And.left And.left)
  rw [mem_foldl_projected hiri (hs.pairwise hn hev)]
  exact ht.graph_evaluate hn hev hs hq

theorem tracked_start {s : Store}
    (h : ∀ q ∈ s, ∀ r t, q.subject ≠ .named ⟨alertIri env r t⟩) : Tracked ev env ⟨[], s, []⟩ where
  history := fun rule _ r => ⟨.new, alternates_nil _⟩
  apart := by simp [firing, Assoc.get]
  graph := by
    rintro q ⟨r, t, hq⟩
    constructor
    · exact fun hmem => absurd hq (h q hmem r t)
    · simp [actionsOf]

/-! ## What the invariant says -/

theorem alertIri_resource_inj {r' : String} (h : alertIri env r t = alertIri env r' t) :
    r = r' := by
  have hlist := congrArg String.toList h
  simp only [alertIri, String.toList_append, List.append_left_inj] at hlist
  exact String.toList_inj.mp hlist

theorem quad_inj {s s' p p' : String} {v' : Term} {g g' : GraphName}
    (h : quad s p v g = quad s' p' v' g') : s = s' ∧ p = p' ∧ v = v' := by
  simp only [quad, Quad.mk.injEq, Subject.named.injEq, NamedNode.mk.injEq] at h
  exact ⟨h.1, h.2.1, h.2.2.1⟩

theorem simple_injective : Function.Injective simple := by
  intro a b h
  simpa [simple] using h

theorem mem_alertQuads_iff_alertType :
    quad iri (pc "alertType") (simple t) .default ∈ alertQuads env p ↔
      iri = alertIri env p.resourceIri.value p.alertType ∧ t = p.alertType := by
  constructor
  · intro h
    obtain ⟨predicate, v, heq, hcases⟩ := mem_alertQuads_cases h
    obtain ⟨hiri, rfl, rfl⟩ := quad_inj heq
    have hv : simple t = simple p.alertType := by simpa using hcases
    exact ⟨hiri, simple_injective hv⟩
  · rintro ⟨rfl, rfl⟩
    simp [alertQuads]

theorem mem_alertQuads_iff_severity :
    quad iri (pc "severity") v .default ∈ alertQuads env p ↔
      iri = alertIri env p.resourceIri.value p.alertType ∧ v = simple p.severity.text := by
  constructor
  · intro h
    obtain ⟨predicate, v', heq, hcases⟩ := mem_alertQuads_cases h
    obtain ⟨hiri, rfl, rfl⟩ := quad_inj heq
    exact ⟨hiri, by simpa using hcases⟩
  · rintro ⟨rfl, rfl⟩
    simp [alertQuads]

theorem mem_alertQuads_iff_message :
    quad iri (pc "message") v .default ∈ alertQuads env p ↔
      iri = alertIri env p.resourceIri.value p.alertType ∧ v = simple p.message := by
  constructor
  · intro h
    obtain ⟨predicate, v', heq, hcases⟩ := mem_alertQuads_cases h
    obtain ⟨hiri, rfl, rfl⟩ := quad_inj heq
    exact ⟨hiri, by simpa using hcases⟩
  · rintro ⟨rfl, rfl⟩
    simp [alertQuads]

theorem Tracked.held (ht : Tracked ev env run) (r t : String) : HoldsAlert env run.store r t ↔
    ∃ rule ∈ ev.rules, rule.alertType = t ∧ firing run.states rule r = true := by
  constructor
  · rintro ⟨-, htype⟩
    obtain ⟨rule, hrule, r', p, hlast, hp⟩ := (ht.graph _ ⟨r, t, rfl⟩).mp htype
    obtain ⟨hfiring, hpayload⟩ := (ht.history rule hrule r').of_getLast? hlast
    obtain ⟨hiri, rfl⟩ := mem_alertQuads_iff_alertType.mp hp
    rw [hpayload.resourceIri] at hiri
    obtain rfl := alertIri_resource_inj hiri
    exact ⟨rule, hrule, hpayload.alertType.symm, hfiring⟩
  · rintro ⟨rule, hrule, rfl, hfiring⟩
    obtain ⟨p, hlast, hpayload⟩ := (ht.history rule hrule r).recorded.firing_eq_true.mp hfiring
    refine ⟨(ht.graph _ ⟨r, _, rfl⟩).mpr ⟨rule, hrule, r, p, hlast, ?_⟩,
      (ht.graph _ ⟨r, _, rfl⟩).mpr ⟨rule, hrule, r, p, hlast, ?_⟩⟩
    · rw [← hpayload.alertType, ← hpayload.resourceIri]
      simp [alertQuads]
    · rw [← hpayload.alertType, ← hpayload.resourceIri]
      exact mem_alertQuads_iff_alertType.mpr ⟨rfl, rfl⟩

/-- The quads at the alert of a type and a resource, when there is one: those of the last actions of
the rules of the type. -/
theorem Tracked.mem_store_iff (ht : Tracked ev env run) {predicate : String}
    (hold : HoldsAlert env run.store r t) :
    quad (alertIri env r t) predicate v .default ∈ run.store ↔
      ∃ rule ∈ ev.rules, rule.alertType = t ∧ firing run.states rule r = true ∧
        ∃ p, (ev.actionsOf rule r run.actions).getLast? = some (.fire p) ∧ IsFireOf rule r p ∧
          quad (alertIri env r t) predicate v .default ∈ alertQuads env p := by
  rw [ht.graph _ ⟨r, t, rfl⟩]
  constructor
  · rintro ⟨rule, hrule, r', p, hlast, hp⟩
    obtain ⟨hfiring, hpayload⟩ := (ht.history rule hrule r').of_getLast? hlast
    obtain ⟨A, hA, rfl, hfA⟩ := (ht.held r t).mp hold
    have hsubject := Subject.named.inj (subject_of_mem_alertQuads hp)
    rw [hpayload.resourceIri, hpayload.alertType] at hsubject
    obtain ⟨rfl, htype⟩ := ht.apart A hA rule hrule r r' hfA hfiring
      (congrArg NamedNode.value hsubject).symm
    exact ⟨rule, hrule, htype, hfiring, p, hlast, hpayload, hp⟩
  · rintro ⟨rule, hrule, -, -, p, hlast, -, hp⟩
    exact ⟨rule, hrule, r, p, hlast, hp⟩

theorem Tracked.agree (ht : Tracked ev env run) : AlertsAgree ev env run where
  held := ht.held
  severities := by
    intro r t hold v
    rw [ht.mem_store_iff hold]
    constructor
    · rintro ⟨rule, hrule, htype, hfiring, p, -, hpayload, hp⟩
      refine ⟨rule, hrule, htype, hfiring, ?_⟩
      rw [← hpayload.severity]
      exact (mem_alertQuads_iff_severity.mp hp).2
    · rintro ⟨rule, hrule, rfl, hfiring, rfl⟩
      obtain ⟨p, hlast, hpayload⟩ := (ht.history rule hrule r).recorded.firing_eq_true.mp hfiring
      refine ⟨rule, hrule, rfl, hfiring, p, hlast, hpayload, mem_alertQuads_iff_severity.mpr ?_⟩
      rw [hpayload.resourceIri, hpayload.alertType, hpayload.severity]
      exact ⟨rfl, rfl⟩
  messages := by
    intro r t hold v
    rw [ht.mem_store_iff hold]
    constructor
    · rintro ⟨rule, hrule, htype, hfiring, p, hlast, -, hp⟩
      exact ⟨rule, hrule, htype, hfiring, p, hlast, (mem_alertQuads_iff_message.mp hp).2⟩
    · rintro ⟨rule, hrule, rfl, hfiring, p, hlast, rfl⟩
      obtain ⟨-, hpayload⟩ := (ht.history rule hrule r).of_getLast? hlast
      refine ⟨rule, hrule, rfl, hfiring, p, hlast, hpayload, mem_alertQuads_iff_message.mpr ?_⟩
      rw [hpayload.resourceIri, hpayload.alertType]
      exact ⟨rfl, rfl⟩
  alternate := fun rule hrule r => (ht.history rule hrule r).alternates

/-- **Active alerts.** Rules with names of their own, a window that is an `i64`, and evaluations in
which no rule is resolved while another with its alert goes on firing: the alerts in the graph are
the firing rules, and the actions for a rule and a resource alternate. -/
theorem active_alerts (hn : (ev.rules.map BuiltInAlertRule.name).Nodup)
    (hsecs : ev.dampeningSecs < 2 ^ 63) {s : Store}
    (hs : ∀ q ∈ s, ∀ r t, q.subject ≠ .named ⟨alertIri env r t⟩) {es : List (Evaluation F)}
    (hmeet : StepsMeet (ev.step env timeText) (Separate ev env) ⟨[], s, []⟩ es)
    (hrun : runSteps (ev.step env timeText) ⟨[], s, []⟩ es = some run) : AlertsAgree ev env run := by
  have ht : Tracked ev env run :=
    runSteps_invariant (ev.step env timeText)
      (fun _ _ _ ht hsep hstep => ht.step hn hsecs hsep hstep) es _ run (tracked_start hs) hmeet hrun
  exact ht.agree

/-! ## The built-in rules -/

/-- The built-in rules, on whole numbers. -/
def builtinEvaluator : AlertEvaluator ℕ where
  rules := builtinAlertRules id
  iris := ⟨"picloud.local"⟩
  dampeningSecs := 300
  gt := fun a b => decide (b < a)
  fixed1 := fun n => toString n ++ ".0"

/-- An evaluation of the temperature of a node. -/
def temperature (celsius : ℕ) (now : ℤ) : Evaluation ℕ where
  nodeIri := ⟨"https://picloud.local/nodes/a"⟩
  metrics := [⟨"cpu_temp_celsius", celsius⟩]
  now := now
  stamps := fun i => ⟨i, now, i⟩

/-- The times of the evaluations below, as JSON texts. -/
def minuteText (t : ℤ) : String :=
  if t = 0 then "1970-01-01T00:00:00Z" else "1970-01-01T00:01:00Z"

/-- The run of an evaluation at the start and one after a minute. -/
def hotThen (celsius : ℕ) : List (Evaluation ℕ) :=
  [temperature 85 0, temperature celsius 60000000000]

theorem separate_hot : Separate builtinEvaluator plainEnv ⟨[], [], []⟩ (temperature 85 0) where
  valid := fun _ _ _ => rfl
  together := by decide
  ordered := by decide
  apart := by
    have hcpu : ∀ A ∈ builtinEvaluator.rules,
        builtinEvaluator.Fires [] (temperature 85 0) A → A.alertType = "HighCpuTemperature" := by
      decide
    rintro A hA hfA B hB r (⟨rfl, hfB⟩ | ⟨hfiring, -⟩) -
    · exact ⟨rfl, (hcpu B hB hfB).trans (hcpu A hA hfA).symm⟩
    · simp [firing, Assoc.get] at hfiring

/-- Both rules fire, and both are resolved. -/
theorem active_alerts_hot_then_cool :
    ∃ run, runSteps (builtinEvaluator.step plainEnv minuteText) ⟨[], [], []⟩ (hotThen 60) =
      some run ∧ AlertsAgree builtinEvaluator plainEnv run := by
  have hmeet : StepsMeet (builtinEvaluator.step plainEnv minuteText)
      (Separate builtinEvaluator plainEnv) ⟨[], [], []⟩ (hotThen 60) := by
    refine ⟨separate_hot, ?_, trivial⟩
    exact {
      valid := fun _ _ _ => rfl
      together := by decide
      ordered := by decide
      apart := fun A hA hfA => absurd hfA (by revert A; decide) }
  exact ⟨_, rfl, active_alerts (by decide) (by decide) (fun q hq => absurd hq List.not_mem_nil)
    hmeet rfl⟩

/-- The critical rule is resolved and takes the alert of the warning rule along. -/
theorem warning_without_alert :
    ∃ run, runSteps (builtinEvaluator.step plainEnv minuteText) ⟨[], [], []⟩ (hotThen 75) =
      some run ∧ ¬ AlertsAgree builtinEvaluator plainEnv run := by
  refine ⟨_, rfl, fun h => ?_⟩
  have hheld := (h.held "https://picloud.local/nodes/a" "HighCpuTemperature").mpr (by decide)
  exact absurd hheld.1 (by decide +kernel)

end AlertEvaluator

end Picloud
