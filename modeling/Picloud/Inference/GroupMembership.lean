import Picloud.Inference.Engine
import Picloud.Lib.Steps
import Picloud.Lib.StoreScript

/-!
# Group membership from the events

Each rule compares with its own previous result only, and remembers its result also when an append
failed. The events then tell the union of what the rules produced as long as a member that leaves one
rule is in no other, and no append fails that the union needs.
-/

namespace Picloud

open Lib

/-! ## Replaying the events -/

/-- The pair that an event of group membership is about. -/
def membershipPair (event : EventEnvelope) : String × String :=
  (event.strD "group_iri" "", event.strD "member_iri" "")

/-- One event in the replay of group membership. -/
def replayMembership (members : List (String × String)) (event : EventEnvelope) :
    List (String × String) :=
  if event.eventType = "GroupMembershipChanged" then
    if event.strD "action" "" = "added" then
      if membershipPair event ∈ members then members else members ++ [membershipPair event]
    else if event.strD "action" "" = "removed" then members.filter (· ≠ membershipPair event)
    else members
  else members

/-- The members of groups after the events of a log. -/
def membership (log : List EventEnvelope) : List (String × String) := log.foldl replayMembership []

/-- The triple that makes a member. -/
def memberTriple (x : String × String) : ProducedTriple := ⟨x.1, hasMemberPred, x.2⟩

namespace InferenceEngine

variable {env : InferenceEnv} {world : InferenceWorld} {rule : LoadedRule}
  {members : List (String × String)} {x : String × String}

theorem mem_replay_added (triple : ProducedTriple) :
    x ∈ replayMembership members (membershipEvent env world rule "added" triple) ↔
      x ∈ members ∨ x = (triple.subject, triple.object) := by
  have heq : replayMembership members (membershipEvent env world rule "added" triple) =
      if (triple.subject, triple.object) ∈ members then members
      else members ++ [(triple.subject, triple.object)] := rfl
  rw [heq]
  split
  · exact ⟨Or.inl, fun h => h.elim id fun hx => hx ▸ ‹_›⟩
  · simp

theorem mem_replay_removed (triple : ProducedTriple) :
    x ∈ replayMembership members (membershipEvent env world rule "removed" triple) ↔
      x ∈ members ∧ x ≠ (triple.subject, triple.object) := by
  have heq : replayMembership members (membershipEvent env world rule "removed" triple) =
      members.filter (· ≠ (triple.subject, triple.object)) := rfl
  rw [heq]
  simp

/-- A membership triple is the triple of its pair. -/
theorem memberTriple_eq_iff {triple : ProducedTriple} (h : triple.predicate = hasMemberPred) :
    x = (triple.subject, triple.object) ↔ memberTriple x = triple := by
  obtain ⟨subject, predicate, object⟩ := triple
  obtain rfl := h
  simp [memberTriple, Prod.ext_iff]

/-- The events of the first loop add. -/
theorem mem_emit_added (triples : List ProducedTriple) (members : List (String × String)) :
    x ∈ (emit env world rule "added" triples).foldl replayMembership members ↔
      x ∈ members ∨
        memberTriple x ∈ triples ∧ (world.append (memberTriple x)).isOk = true := by
  rw [emit, List.foldl_map, mem_foldl_of_pairwise (fun _ => Set.univ)
    (fun triple => {x | x = (triple.subject, triple.object)})
    (fun triple _ members x => by simpa using mem_replay_added triple)
    (List.pairwise_of_forall fun _ _ => Set.subset_univ _)]
  simp only [Set.mem_univ, implies_true, and_true, Set.mem_ofPred_eq, List.mem_filter,
    decide_eq_true_eq]
  refine or_congr_right ⟨?_, fun ⟨hmem, hok⟩ => ⟨memberTriple x, ⟨hmem, rfl, hok⟩, rfl⟩⟩
  rintro ⟨triple, ⟨hmem, hpred, hok⟩, hx⟩
  rw [(memberTriple_eq_iff hpred).mp hx]
  exact ⟨hmem, hok⟩

/-- The events of the second loop remove. -/
theorem mem_emit_removed (triples : List ProducedTriple) (members : List (String × String)) :
    x ∈ (emit env world rule "removed" triples).foldl replayMembership members ↔
      x ∈ members ∧
        ¬ (memberTriple x ∈ triples ∧ (world.append (memberTriple x)).isOk = true) := by
  rw [emit, List.foldl_map, mem_foldl_of_pairwise
    (fun triple => {x | x ≠ (triple.subject, triple.object)}) (fun _ => ∅)
    (fun triple _ members x => by simpa using mem_replay_removed triple)
    (List.pairwise_of_forall fun _ _ => Set.empty_subset _)]
  simp only [Set.mem_empty_iff_false, and_false, exists_false, or_false, Set.mem_ofPred_eq,
    List.mem_filter, decide_eq_true_eq]
  refine and_congr_right fun _ => ⟨fun h ⟨hmem, hok⟩ => ?_, fun h triple ⟨hmem, hpred, hok⟩ hx => ?_⟩
  · exact h (memberTriple x) ⟨hmem, rfl, hok⟩ rfl
  · rw [(memberTriple_eq_iff hpred).mp hx] at h
    exact h ⟨hmem, hok⟩

/-! ## Evaluations -/

end InferenceEngine

/-- A rule is evaluated. -/
structure RuleEvaluation where
  rule : LoadedRule
  world : InferenceWorld

namespace InferenceEngine

variable (env : InferenceEnv)

/-- An evaluation, whatever its answer. -/
def step (engine : InferenceEngine) (e : RuleEvaluation) : Option InferenceEngine :=
  (engine.evaluateRule env e.rule e.world).map Prod.snd

/-- A pass is a run of evaluations. -/
theorem evaluateAll_eq_runSteps (engine : InferenceEngine) (world : LoadedRule → InferenceWorld)
    (rules : List LoadedRule) : (engine.evaluateAll env world rules).map Prod.snd =
      runSteps (step env) engine (rules.map fun rule => ⟨rule, world rule⟩) := by
  induction rules generalizing engine with
  | nil => rfl
  | cons rule rules ih =>
    rw [List.map_cons, runSteps_cons, evaluateAll, step]
    cases engine.evaluateRule env rule (world rule) with
    | none => rfl
    | some out =>
      rw [Option.bind_some, Option.map_some, Option.bind_some, Option.map_map, ← ih]
      rfl

/-- The triples of an evaluation that came to its end. -/
def produced (e : RuleEvaluation) : Option (List ProducedTriple) :=
  (producedTriples env e.rule e.world).bind Except.toOption

/-- The triples of the last evaluation of a rule. -/
def lastProduced (es : List RuleEvaluation) (iri : String) : Option (List ProducedTriple) :=
  ((es.filter fun e => e.rule.iri.value = iri).filterMap (produced env)).getLast?

/-- What the engine remembers of a rule. -/
def previous (engine : InferenceEngine) (iri : String) : List ProducedTriple :=
  (Assoc.get engine.previousTriples iri).getD []

/-- Another rule produced the triple when it was last evaluated. -/
def ProducedElsewhere (engine : InferenceEngine) (rule : LoadedRule) (t : ProducedTriple) : Prop :=
  ∃ iri, iri ≠ rule.iri.value ∧ t ∈ engine.previous iri

/-- An evaluation whose events keep the union: a new member is appended or known from another rule,
and the end of a membership is appended exactly when no other rule has it. -/
structure KeepsUnion (engine : InferenceEngine) (e : RuleEvaluation) : Prop where
  added : ∀ current ∈ produced env e, ∀ t ∈ current, t ∉ engine.previous e.rule.iri.value →
    t.predicate = hasMemberPred → (e.world.append t).isOk = true ∨ engine.ProducedElsewhere e.rule t
  removed : ∀ current ∈ produced env e, ∀ t ∈ engine.previous e.rule.iri.value, t ∉ current →
    t.predicate = hasMemberPred →
    ((e.world.append t).isOk = true ↔ ¬ engine.ProducedElsewhere e.rule t)

variable {env} {engine engine' : InferenceEngine} {e : RuleEvaluation}

/-- What an evaluation does: nothing when the query fails, and otherwise it remembers the result and
appends the changes. -/
theorem step_cases (h : step env engine e = some engine') :
    (produced env e = none ∧ engine' = engine) ∨
    ∃ current, produced env e = some current ∧
      engine'.previousTriples = Assoc.set engine.previousTriples e.rule.iri.value current ∧
      ∀ x, x ∈ membership engine'.log ↔
        (x ∈ membership engine.log ∨ (memberTriple x ∈ current ∧
            memberTriple x ∉ engine.previous e.rule.iri.value) ∧
            (e.world.append (memberTriple x)).isOk = true) ∧
          ¬ ((memberTriple x ∈ engine.previous e.rule.iri.value ∧ memberTriple x ∉ current) ∧
            (e.world.append (memberTriple x)).isOk = true) := by
  obtain ⟨out, hout, rfl⟩ := Option.map_eq_some_iff.mp h
  obtain ⟨result, hresult, rfl⟩ := Option.map_eq_some_iff.mp hout
  cases result with
  | error err => exact .inl ⟨by rw [produced, hresult]; rfl, rfl⟩
  | ok current =>
    refine .inr ⟨current, by rw [produced, hresult]; rfl, rfl, fun x => ?_⟩
    have hreport : ∀ (c : Prop) [Decidable c] (a r : ℕ) (members : List (String × String)),
        (if c then [reportEvent env e.world e.rule a r] else []).foldl replayMembership members =
          members := by
      intro c _ a r members
      split <;> rfl
    simp only [membership, List.foldl_append, hreport, mem_emit_removed, mem_emit_added]
    simp only [(env.iterate_perm _).mem_iff, List.mem_filter, decide_eq_true_eq]
    rfl

/-- The events tell the union of what the rules produced. -/
def Union (engine : InferenceEngine) : Prop :=
  ∀ x, x ∈ membership engine.log ↔ ∃ iri, memberTriple x ∈ engine.previous iri

theorem Union.step (hu : Union engine) (hk : KeepsUnion env engine e)
    (h : step env engine e = some engine') : Union engine' := by
  rcases step_cases h with ⟨-, rfl⟩ | ⟨current, hcur, hprev, hlog⟩
  · exact hu
  · intro x
    have hadded := hk.added current hcur (memberTriple x)
    have hremoved := hk.removed current hcur (memberTriple x)
    have hself : engine'.previous e.rule.iri.value = current := by
      rw [previous, hprev, Assoc.get_set_self, Option.getD_some]
    have hother : ∀ iri, iri ≠ e.rule.iri.value → engine'.previous iri = engine.previous iri := by
      intro iri hne
      rw [previous, hprev, Assoc.get_set_of_ne _ _ hne, previous]
    have hafter : (∃ iri, memberTriple x ∈ engine'.previous iri) ↔
        memberTriple x ∈ current ∨ engine.ProducedElsewhere e.rule (memberTriple x) := by
      constructor
      · rintro ⟨iri, hx⟩
        by_cases hiri : iri = e.rule.iri.value
        · exact .inl (hself ▸ hiri ▸ hx)
        · exact .inr ⟨iri, hiri, hother iri hiri ▸ hx⟩
      · rintro (hx | ⟨iri, hne, hx⟩)
        · exact ⟨_, hself.symm ▸ hx⟩
        · exact ⟨iri, hother iri hne ▸ hx⟩
    have hbefore : (∃ iri, memberTriple x ∈ engine.previous iri) ↔
        memberTriple x ∈ engine.previous e.rule.iri.value ∨
          engine.ProducedElsewhere e.rule (memberTriple x) := by
      constructor
      · rintro ⟨iri, hx⟩
        by_cases hiri : iri = e.rule.iri.value
        · exact .inl (hiri ▸ hx)
        · exact .inr ⟨iri, hiri, hx⟩
      · rintro (hx | ⟨iri, -, hx⟩)
        · exact ⟨_, hx⟩
        · exact ⟨iri, hx⟩
    rw [hlog, hu x, hafter, hbefore]
    have hpred : (memberTriple x).predicate = hasMemberPred := rfl
    by_cases hcurrent : memberTriple x ∈ current
    · by_cases hold : memberTriple x ∈ engine.previous e.rule.iri.value
      · simp [hcurrent, hold]
      · simpa [hcurrent, hold, or_comm] using hadded hcurrent hold hpred
    · by_cases hold : memberTriple x ∈ engine.previous e.rule.iri.value
      · rw [hremoved hold hcurrent hpred]
        simp [hcurrent, hold]
      · simp [hcurrent, hold]

/-- What the engine remembers is what the rules produced. -/
theorem previous_of_run {es : List RuleEvaluation}
    (h : runSteps (InferenceEngine.step env) engine es = some engine') (iri : String) :
    Assoc.get engine'.previousTriples iri =
      (lastProduced env es iri).or (Assoc.get engine.previousTriples iri) := by
  induction es generalizing engine with
  | nil =>
    obtain rfl := Option.some.inj h
    rfl
  | cons e es ih =>
    rw [runSteps_cons, Option.bind_eq_some_iff] at h
    obtain ⟨mid, hstep, hrun⟩ := h
    rw [ih hrun, lastProduced, lastProduced, List.filter_cons]
    by_cases hiri : e.rule.iri.value = iri
    · rw [if_pos (decide_eq_true hiri), List.filterMap_cons]
      rcases step_cases hstep with ⟨hnone, rfl⟩ | ⟨current, hcur, hprev, -⟩
      · rw [hnone]
      · rw [hcur, hprev, hiri, Assoc.get_set_self, List.getLast?_cons]
        cases (List.filterMap (produced env) (List.filter _ es)).getLast? <;> rfl
    · rw [if_neg (by simpa using hiri)]
      rcases step_cases hstep with ⟨-, rfl⟩ | ⟨current, -, hprev, -⟩
      · rfl
      · rw [hprev, Assoc.get_set_of_ne _ _ (Ne.symm hiri)]

/-- **The union of the rules.** The rules are evaluated in any order and in any graphs, and every
evaluation keeps the union: the events tell the members that some rule produced when it was last
evaluated. -/
theorem group_membership_union {rules : List LoadedRule} {es : List RuleEvaluation}
    (hmeet : StepsMeet (InferenceEngine.step env) (KeepsUnion env) ⟨rules, [], []⟩ es)
    (hrun : runSteps (InferenceEngine.step env) ⟨rules, [], []⟩ es = some engine)
    (x : String × String) : x ∈ membership engine.log ↔
      ∃ iri, ∃ triples ∈ lastProduced env es iri, memberTriple x ∈ triples := by
  have hstart : Union ⟨rules, [], []⟩ := by
    intro x
    simp [membership, previous, Assoc.get]
  have hu : Union engine := runSteps_invariant (InferenceEngine.step env)
    (fun _ _ _ hu hk hstep => hu.step hk hstep) es _ engine hstart hmeet hrun
  rw [hu x]
  refine exists_congr fun iri => ?_
  have hnone : Assoc.get ([] : Assoc String (List ProducedTriple)) iri = none := rfl
  rw [previous, previous_of_run hrun iri, hnone, Option.or_none]
  cases lastProduced env es iri with
  | none => simp
  | some triples => simp

/-! ## Runs of two rules -/

/-- An environment for plain texts. -/
def sampleInferenceEnv : InferenceEnv where
  iris := ⟨"picloud.local"⟩
  toUppercase := fun s => String.ofList (s.toList.map Char.toUpper)
  iterate := id
  iterate_perm := List.Perm.refl

/-- A rule of the sample cluster. -/
def sampleRule (name : String) : LoadedRule where
  iri := ⟨"https://picloud.local/inference-rules/" ++ name⟩
  name := name
  scope := "platform"
  trigger := "event"
  triggerEvents := ["TagAdded"]
  reconciliation := true
  constructQuery := "CONSTRUCT { ?s ?p ?o } WHERE { ?s ?p ?o }"

/-- The group of the sample runs. -/
def backend : String := "https://picloud.local/groups/backend"

/-- A graph in which a rule finds the members, with a log that appends or not. -/
def sampleWorld (members : List String) (append : Except PiCloudError Unit) : InferenceWorld where
  query := fun _ => .ok (members.map fun member => .object
    [("s", .string backend), ("p", .string hasMemberPred), ("o", .string member)])
  append := fun _ => append
  appendReport := append
  stamp := fun _ => (1, 0, 2)
  reportStamp := (3, 0, 4)

/-- An evaluation of a sample rule. -/
def found (name : String) (members : List String) : RuleEvaluation :=
  ⟨sampleRule name, sampleWorld members (.ok ())⟩

/-- What is remembered of a rule stands in its entry. -/
theorem mem_previousTriples {iri : String} {t : ProducedTriple} (h : t ∈ engine.previous iri) :
    ∃ e ∈ engine.previousTriples, e.1 = iri ∧ t ∈ e.2 := by
  rw [previous, Assoc.get] at h
  cases hfind : engine.previousTriples.find? (·.1 = iri) with
  | none => simp [hfind] at h
  | some e =>
    rw [hfind] at h
    exact ⟨e, List.mem_of_find?_eq_some hfind, by simpa using List.find?_some hfind, h⟩

/-- Where no append fails, the members of the rules have to be different. -/
theorem keepsUnion_found {name : String} {members : List String}
    (h : ∀ e ∈ engine.previousTriples, e.1 ≠ (sampleRule name).iri.value →
      ∀ t ∈ e.2, t ∉ engine.previous (sampleRule name).iri.value) :
    KeepsUnion sampleInferenceEnv engine (found name members) where
  added := fun _ _ _ _ _ _ => .inl rfl
  removed := by
    refine fun _ _ t ht _ _ => iff_of_true rfl ?_
    rintro ⟨iri, hne, hmem⟩
    obtain ⟨e, he, rfl, hte⟩ := mem_previousTriples hmem
    exact h e he hne t hte ht

/-- Two rules with a member each, and one of them leaves. -/
theorem group_membership_union_two_rules :
    ∃ engine, runSteps (InferenceEngine.step sampleInferenceEnv) ⟨[], [], []⟩
        [found "a" ["alice"], found "b" ["bob"], found "a" []] = some engine ∧
      ∀ x, x ∈ membership engine.log ↔ ∃ iri, ∃ triples ∈ lastProduced sampleInferenceEnv
        [found "a" ["alice"], found "b" ["bob"], found "a" []] iri, memberTriple x ∈ triples := by
  have hmeet : StepsMeet (InferenceEngine.step sampleInferenceEnv) (KeepsUnion sampleInferenceEnv)
      ⟨[], [], []⟩ [found "a" ["alice"], found "b" ["bob"], found "a" []] :=
    ⟨keepsUnion_found (by decide), keepsUnion_found (by decide +kernel),
      keepsUnion_found (by decide +kernel), trivial⟩
  exact ⟨_, rfl, group_membership_union hmeet rfl⟩

/-- A member of two rules leaves one of them and is lost. A member whose append failed stays lost
while the rule goes on producing it. -/
theorem members_lost :
    (∃ engine, runSteps (InferenceEngine.step sampleInferenceEnv) ⟨[], [], []⟩
        [found "a" ["alice"], found "b" ["alice"], found "a" []] = some engine ∧
      ¬ ∀ x, x ∈ membership engine.log ↔ ∃ iri, ∃ triples ∈ lastProduced sampleInferenceEnv
        [found "a" ["alice"], found "b" ["alice"], found "a" []] iri, memberTriple x ∈ triples) ∧
    ∃ engine, runSteps (InferenceEngine.step sampleInferenceEnv) ⟨[], [], []⟩
        [⟨sampleRule "a", sampleWorld ["alice"] (.error (.internal "disk full"))⟩,
          found "a" ["alice"]] = some engine ∧
      ¬ ∀ x, x ∈ membership engine.log ↔ ∃ iri, ∃ triples ∈ lastProduced sampleInferenceEnv
        [⟨sampleRule "a", sampleWorld ["alice"] (.error (.internal "disk full"))⟩,
          found "a" ["alice"]] iri, memberTriple x ∈ triples := by
  refine ⟨⟨_, rfl, fun h => ?_⟩, ⟨_, rfl, fun h => ?_⟩⟩
  · have hmem := (h (backend, "alice")).mpr
      ⟨"https://picloud.local/inference-rules/b", _, rfl, by decide⟩
    exact absurd hmem (by decide +kernel)
  · have hmem := (h (backend, "alice")).mpr
      ⟨"https://picloud.local/inference-rules/a", _, rfl, by decide⟩
    exact absurd hmem (by decide +kernel)

end InferenceEngine

end Picloud
