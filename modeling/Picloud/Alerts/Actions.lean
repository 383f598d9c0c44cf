import Picloud.Alerts.Evaluator

/-!
# The actions of the evaluator

Whether a rule fires or resolves in an evaluation is read off the state before it: every rule looks
at an entry of its own, as long as no two rules share a name. The actions for a rule and a resource
alternate.
-/

namespace Picloud

open Lib

namespace AlertEvaluator

variable {F : Type} (ev : AlertEvaluator F)

/-! ## What happens to a rule -/

/-- The rule is firing on the resource. -/
def firing (states : AlertStates) (rule : BuiltInAlertRule F) (resource : String) : Bool :=
  ((Assoc.get states (rule.name, resource)).map AlertState.isFiring).getD false

/-- Whether the metric of the rule is above its threshold, when it was collected. -/
def exceeds (e : Evaluation F) (rule : BuiltInAlertRule F) : Option Bool :=
  (metricValue e.metrics rule).map (ev.gt · rule.threshold)

/-- The rule was resolved within the dampening window. -/
def suppressed (states : AlertStates) (e : Evaluation F) (rule : BuiltInAlertRule F) : Bool :=
  ((Assoc.get states (rule.name, e.nodeIri.value)).bind AlertState.resolvedAt).any
    fun resolvedTime => ev.dampening.any fun dampening => e.now - resolvedTime < dampening

/-- The evaluation makes the rule fire. -/
def Fires (states : AlertStates) (e : Evaluation F) (rule : BuiltInAlertRule F) : Prop :=
  ev.exceeds e rule = some true ∧ firing states rule e.nodeIri.value = false ∧
    ev.suppressed states e rule = false

/-- The evaluation resolves the rule. -/
def Resolves (states : AlertStates) (e : Evaluation F) (rule : BuiltInAlertRule F) : Prop :=
  ev.exceeds e rule = some false ∧ firing states rule e.nodeIri.value = true

instance (states : AlertStates) (e : Evaluation F) (rule : BuiltInAlertRule F) :
    Decidable (ev.Fires states e rule) := inferInstanceAs (Decidable (_ ∧ _ ∧ _))

instance (states : AlertStates) (e : Evaluation F) (rule : BuiltInAlertRule F) :
    Decidable (ev.Resolves states e rule) := inferInstanceAs (Decidable (_ ∧ _))

/-- The round of a rule in an evaluation. -/
abbrev round (e : Evaluation F) (dampening : ℤ) (rule : BuiltInAlertRule F) (states : AlertStates) :
    Option AlertAction × AlertStates :=
  ev.evaluateRule e.nodeIri e.metrics e.now dampening rule states

variable {ev} {e : Evaluation F} {d : ℤ} {rule : BuiltInAlertRule F} {states states' : AlertStates}

theorem not_fires_of_firing (h : firing states rule e.nodeIri.value = true) :
    ¬ ev.Fires states e rule := by
  intro hf
  rw [hf.2.1] at h
  exact Bool.noConfusion h

/-- What the round of a rule does. -/
theorem round_cases (hd : ev.dampening = some d) (e : Evaluation F) (rule : BuiltInAlertRule F)
    (states : AlertStates) :
    (ev.Fires states e rule ∧ ∃ value, ev.round e d rule states =
      (some (ev.fireAction e.nodeIri e.now rule value),
        Assoc.set states (rule.name, e.nodeIri.value) ⟨true, none⟩)) ∨
    (ev.Resolves states e rule ∧ ev.round e d rule states =
      (some (ev.resolveAction e.nodeIri e.now rule),
        Assoc.set states (rule.name, e.nodeIri.value) ⟨false, some e.now⟩)) ∨
    (¬ ev.Fires states e rule ∧ ¬ ev.Resolves states e rule ∧
      ev.round e d rule states = (none, states)) := by
  unfold round evaluateRule Fires Resolves exceeds suppressed firing
  rw [hd]
  cases metricValue e.metrics rule with
  | none => simp
  | some value =>
    cases hgt : ev.gt value rule.threshold <;>
      cases hf : ((Assoc.get states (rule.name, e.nodeIri.value)).map AlertState.isFiring).getD
        false <;>
      cases hs : ((Assoc.get states (rule.name, e.nodeIri.value)).bind AlertState.resolvedAt).any
        fun resolvedTime => decide (e.now - resolvedTime < d) <;>
      simp [hgt, hf, hs]

/-! ## A rule looks at an entry of its own -/

theorem get_round_of_ne {k : String × String} (h : k ≠ (rule.name, e.nodeIri.value)) :
    Assoc.get (ev.round e d rule states).2 k = Assoc.get states k := by
  unfold round evaluateRule
  split
  · rfl
  · dsimp only
    split_ifs
    · rfl
    · exact Assoc.get_set_of_ne _ _ h
    · exact Assoc.get_set_of_ne _ _ h
    · rfl

theorem round_congr (h : Assoc.get states (rule.name, e.nodeIri.value) =
      Assoc.get states' (rule.name, e.nodeIri.value)) :
    (ev.round e d rule states).1 = (ev.round e d rule states').1 ∧
      Assoc.get (ev.round e d rule states).2 (rule.name, e.nodeIri.value) =
        Assoc.get (ev.round e d rule states').2 (rule.name, e.nodeIri.value) := by
  unfold round evaluateRule
  cases metricValue e.metrics rule with
  | none => exact ⟨rfl, h⟩
  | some value =>
    dsimp only
    rw [h]
    split_ifs
    · exact ⟨rfl, h⟩
    · exact ⟨rfl, by rw [Assoc.get_set_self, Assoc.get_set_self]⟩
    · exact ⟨rfl, by rw [Assoc.get_set_self, Assoc.get_set_self]⟩
    · exact ⟨rfl, h⟩

/-- The loop of an evaluation. -/
abbrev rounds (ev : AlertEvaluator F) (e : Evaluation F) (d : ℤ) (rules : List (BuiltInAlertRule F))
    (states : AlertStates) : List AlertAction × AlertStates :=
  ev.evaluateRules e.nodeIri e.metrics e.now d rules states

variable {rules : List (BuiltInAlertRule F)}

theorem get_rounds_of_ne {k : String × String} (h : ∀ rule ∈ rules, k ≠ (rule.name, e.nodeIri.value))
    (states : AlertStates) : Assoc.get (ev.rounds e d rules states).2 k = Assoc.get states k := by
  induction rules generalizing states with
  | nil => rfl
  | cons A rules ih =>
    exact (ih (fun B hB => h B (List.mem_cons_of_mem A hB)) _).trans
      (get_round_of_ne (h A List.mem_cons_self))

/-- Rules with other names leave the entry of a rule alone. -/
theorem get_round_of_name_ne {A B : BuiltInAlertRule F} (h : B.name ≠ A.name) (r : String) :
    Assoc.get (ev.round e d A states).2 (B.name, r) = Assoc.get states (B.name, r) :=
  get_round_of_ne fun heq => h (Prod.ext_iff.mp heq).1

theorem fst_rounds (hn : (rules.map BuiltInAlertRule.name).Nodup) (states : AlertStates) :
    (ev.rounds e d rules states).1 = rules.filterMap fun rule => (ev.round e d rule states).1 := by
  induction rules generalizing states with
  | nil => rfl
  | cons A rules ih =>
    obtain ⟨hA, hn⟩ := List.nodup_cons.mp hn
    have hrest : (ev.rounds e d rules (ev.round e d A states).2).1 =
        rules.filterMap fun rule => (ev.round e d rule states).1 := by
      rw [ih hn]
      refine List.filterMap_congr fun B hB => (round_congr (get_round_of_name_ne ?_ _)).1
      exact fun heq => hA (heq ▸ List.mem_map_of_mem hB)
    have hcons : (ev.rounds e d (A :: rules) states).1 = (ev.round e d A states).1.toList ++
        (ev.rounds e d rules (ev.round e d A states).2).1 := rfl
    rw [hcons, hrest, List.filterMap_cons]
    cases (ev.round e d A states).1 <;> rfl

theorem get_rounds (hn : (rules.map BuiltInAlertRule.name).Nodup) (hrule : rule ∈ rules)
    (states : AlertStates) :
    Assoc.get (ev.rounds e d rules states).2 (rule.name, e.nodeIri.value) =
      Assoc.get (ev.round e d rule states).2 (rule.name, e.nodeIri.value) := by
  induction rules generalizing states with
  | nil => simp at hrule
  | cons A rules ih =>
    obtain ⟨hA, hn⟩ := List.nodup_cons.mp hn
    have hcons : (ev.rounds e d (A :: rules) states).2 =
        (ev.rounds e d rules (ev.round e d A states).2).2 := rfl
    rw [hcons]
    rcases List.mem_cons.mp hrule with rfl | hrule
    · refine get_rounds_of_ne (fun B hB heq => hA ?_) _
      have hname : rule.name = B.name := (Prod.ext_iff.mp heq).1
      exact hname ▸ List.mem_map_of_mem hB
    · rw [ih hn hrule]
      refine (round_congr (get_round_of_name_ne ?_ _)).2
      exact fun heq => hA (heq ▸ List.mem_map_of_mem hrule)

/-! ## The actions for a rule and a resource -/

end AlertEvaluator

namespace AlertAction

/-- The IRI of the rule of an action. -/
def ruleIri : AlertAction → ResourceIri
  | .fire p => p.ruleIri
  | .resolve p => p.ruleIri

/-- The resource of an action. -/
def resourceIri : AlertAction → ResourceIri
  | .fire p => p.resourceIri
  | .resolve p => p.resourceIri

end AlertAction

namespace AlertEvaluator

variable {F : Type} {ev : AlertEvaluator F} {e : Evaluation F} {d : ℤ}
  {rule : BuiltInAlertRule F} {states states' : AlertStates} {actions : List AlertAction} {r : String}

/-- The actions for a rule and a resource. -/
def actionsOf (ev : AlertEvaluator F) (rule : BuiltInAlertRule F) (resource : String)
    (actions : List AlertAction) : List AlertAction :=
  actions.filter fun a =>
    a.ruleIri.value = ev.iris.inferenceRule rule.name ∧ a.resourceIri.value = resource

theorem actionsOf_append (as bs : List AlertAction) :
    ev.actionsOf rule r (as ++ bs) = ev.actionsOf rule r as ++ ev.actionsOf rule r bs :=
  List.filter_append as bs

theorem inferenceRule_injective (b : IriBuilder) : Function.Injective b.inferenceRule := by
  intro m n h
  have hlist := congrArg String.toList h
  simp only [IriBuilder.inferenceRule, String.toList_append, List.append_right_inj] at hlist
  exact String.toList_inj.mp hlist

variable {a : AlertAction}

/-- The action of a round is an action of its rule on the node. -/
theorem of_mem_round (h : a ∈ (ev.round e d rule states).1) :
    a.ruleIri.value = ev.iris.inferenceRule rule.name ∧ a.resourceIri = e.nodeIri := by
  unfold round evaluateRule at h
  cases hm : metricValue e.metrics rule with
  | none => simp [hm] at h
  | some value =>
    simp only [hm] at h
    split_ifs at h
    · simp at h
    · obtain rfl := Option.some.inj h
      exact ⟨rfl, rfl⟩
    · obtain rfl := Option.some.inj h
      exact ⟨rfl, rfl⟩
    · simp at h

/-- Of the actions of an evaluation, those for a rule on the node are the one of its round. -/
theorem actionsOf_rounds {rules : List (BuiltInAlertRule F)}
    (hn : (rules.map BuiltInAlertRule.name).Nodup) (hrule : rule ∈ rules) (states : AlertStates) :
    ev.actionsOf rule e.nodeIri.value
        (rules.filterMap fun A => (ev.round e d A states).1) =
      (ev.round e d rule states).1.toList := by
  induction rules with
  | nil => simp at hrule
  | cons A rules ih =>
    obtain ⟨hA, hn⟩ := List.nodup_cons.mp hn
    have hsplit : (A :: rules).filterMap (fun A => (ev.round e d A states).1) =
        (ev.round e d A states).1.toList ++
          rules.filterMap fun A => (ev.round e d A states).1 := by
      rw [List.filterMap_cons]
      cases (ev.round e d A states).1 <;> rfl
    rw [hsplit, actionsOf_append]
    rcases List.mem_cons.mp hrule with rfl | hrule
    · have hown : ev.actionsOf rule e.nodeIri.value (ev.round e d rule states).1.toList =
          (ev.round e d rule states).1.toList := by
        refine List.filter_eq_self.mpr fun a ha => decide_eq_true ?_
        obtain ⟨hr, hn⟩ := of_mem_round (Option.mem_toList.mp ha)
        exact ⟨hr, congrArg ResourceIri.value hn⟩
      have hrest : ev.actionsOf rule e.nodeIri.value
          (rules.filterMap fun A => (ev.round e d A states).1) = [] := by
        refine List.filter_eq_nil_iff.mpr fun a ha => ?_
        obtain ⟨B, hB, ha⟩ := List.mem_filterMap.mp ha
        rw [decide_eq_true_eq, (of_mem_round ha).1]
        intro heq
        exact hA (inferenceRule_injective ev.iris heq.1 ▸ List.mem_map_of_mem hB)
      rw [hown, hrest, List.append_nil]
    · have hother : ev.actionsOf rule e.nodeIri.value (ev.round e d A states).1.toList = [] := by
        refine List.filter_eq_nil_iff.mpr fun a ha => ?_
        rw [decide_eq_true_eq, (of_mem_round (Option.mem_toList.mp ha)).1]
        intro heq
        exact hA (inferenceRule_injective ev.iris heq.1 ▸ List.mem_map_of_mem hrule)
      rw [hother, ih hn hrule, List.nil_append]

/-- What an evaluation does to a rule and a resource. -/
theorem evaluate_cases (hn : (ev.rules.map BuiltInAlertRule.name).Nodup)
    (h : ev.evaluate states e.nodeIri e.metrics e.now = some (actions, states'))
    (hrule : rule ∈ ev.rules) (r : String) :
    (r = e.nodeIri.value ∧ ev.Fires states e rule ∧ (∃ value, ev.actionsOf rule r actions =
        [ev.fireAction e.nodeIri e.now rule value]) ∧
      Assoc.get states' (rule.name, r) = some ⟨true, none⟩) ∨
    (r = e.nodeIri.value ∧ ev.Resolves states e rule ∧
      ev.actionsOf rule r actions = [ev.resolveAction e.nodeIri e.now rule] ∧
      Assoc.get states' (rule.name, r) = some ⟨false, some e.now⟩) ∨
    (¬ (r = e.nodeIri.value ∧ (ev.Fires states e rule ∨ ev.Resolves states e rule)) ∧
      ev.actionsOf rule r actions = [] ∧
      Assoc.get states' (rule.name, r) = Assoc.get states (rule.name, r)) := by
  obtain ⟨d, hd, heq⟩ := Option.map_eq_some_iff.mp h
  have hactions : actions = ev.rules.filterMap fun A => (ev.round e d A states).1 :=
    (congrArg Prod.fst heq).symm.trans (fst_rounds hn states)
  have hstates : (ev.rounds e d ev.rules states).2 = states' := congrArg Prod.snd heq
  by_cases hr : r = e.nodeIri.value
  · subst hr
    rw [hactions, actionsOf_rounds hn hrule, ← hstates, get_rounds hn hrule]
    rcases round_cases hd e rule states with ⟨hf, value, heq⟩ | ⟨hr, heq⟩ | ⟨hf, hr, heq⟩
    · rw [heq]
      exact .inl ⟨rfl, hf, ⟨value, rfl⟩, Assoc.get_set_self _ _ _⟩
    · rw [heq]
      exact .inr (.inl ⟨rfl, hr, rfl, Assoc.get_set_self _ _ _⟩)
    · rw [heq]
      exact .inr (.inr ⟨fun hor => hor.2.elim hf hr, rfl, rfl⟩)
  · refine .inr (.inr ⟨fun hor => hr hor.1, ?_, ?_⟩)
    · rw [hactions]
      refine List.filter_eq_nil_iff.mpr fun a ha => ?_
      obtain ⟨B, -, ha⟩ := List.mem_filterMap.mp ha
      rw [decide_eq_true_eq, (of_mem_round ha).2]
      exact fun heq => hr heq.2.symm
    · rw [← hstates]
      exact get_rounds_of_ne (fun B _ heq => hr (Prod.ext_iff.mp heq).2) states

/-- Whether a rule is firing on a resource after an evaluation. -/
theorem firing_evaluate (hn : (ev.rules.map BuiltInAlertRule.name).Nodup)
    (h : ev.evaluate states e.nodeIri e.metrics e.now = some (actions, states'))
    (hrule : rule ∈ ev.rules) (r : String) :
    firing states' rule r = true ↔ r = e.nodeIri.value ∧ ev.Fires states e rule ∨
      firing states rule r = true ∧ ¬ (r = e.nodeIri.value ∧ ev.Resolves states e rule) := by
  rcases evaluate_cases hn h hrule r with ⟨rfl, hf, -, hget⟩ | ⟨rfl, hres, -, hget⟩ | ⟨hno, -, hget⟩
  · simp [firing, hget, hf]
  · have hnf : ¬ ev.Fires states e rule := not_fires_of_firing hres.2
    simp [firing, hget, hres, hnf]
  · have hnf : ¬ (r = e.nodeIri.value ∧ ev.Fires states e rule) :=
      fun hand => hno ⟨hand.1, .inl hand.2⟩
    have hnr : ¬ (r = e.nodeIri.value ∧ ev.Resolves states e rule) :=
      fun hand => hno ⟨hand.1, .inr hand.2⟩
    unfold firing
    rw [hget, or_iff_right hnf, and_iff_left hnr]

/-- The action of a rule in an evaluation. -/
def IsActionOf (ev : AlertEvaluator F) (states : AlertStates) (e : Evaluation F)
    (rule : BuiltInAlertRule F) (a : AlertAction) : Prop :=
  (ev.Fires states e rule ∧ ∃ value, a = ev.fireAction e.nodeIri e.now rule value) ∨
    (ev.Resolves states e rule ∧ a = ev.resolveAction e.nodeIri e.now rule)

theorem isActionOf_of_round (hd : ev.dampening = some d) (h : (ev.round e d rule states).1 = some a) :
    ev.IsActionOf states e rule a := by
  rcases round_cases hd e rule states with ⟨hf, value, heq⟩ | ⟨hr, heq⟩ | ⟨-, -, heq⟩
  · rw [heq] at h
    exact .inl ⟨hf, value, (Option.some.inj h).symm⟩
  · rw [heq] at h
    exact .inr ⟨hr, (Option.some.inj h).symm⟩
  · rw [heq] at h
    simp at h

theorem isActionOf_of_mem (hn : (ev.rules.map BuiltInAlertRule.name).Nodup)
    (h : ev.evaluate states e.nodeIri e.metrics e.now = some (actions, states')) (ha : a ∈ actions) :
    ∃ rule ∈ ev.rules, ev.IsActionOf states e rule a := by
  obtain ⟨d, hd, heq⟩ := Option.map_eq_some_iff.mp h
  have hactions : actions = ev.rules.filterMap fun A => (ev.round e d A states).1 :=
    (congrArg Prod.fst heq).symm.trans (fst_rounds hn states)
  rw [hactions] at ha
  obtain ⟨rule, hrule, hround⟩ := List.mem_filterMap.mp ha
  exact ⟨rule, hrule, isActionOf_of_round hd hround⟩

/-- The actions stand in the order of their rules. -/
theorem pairwise_evaluate {R : AlertAction → AlertAction → Prop}
    (hn : (ev.rules.map BuiltInAlertRule.name).Nodup)
    (h : ev.evaluate states e.nodeIri e.metrics e.now = some (actions, states'))
    (hR : ev.rules.Pairwise fun B A => ∀ b a, ev.IsActionOf states e B b →
      ev.IsActionOf states e A a → R b a) : actions.Pairwise R := by
  obtain ⟨d, hd, heq⟩ := Option.map_eq_some_iff.mp h
  have hactions : actions = ev.rules.filterMap fun A => (ev.round e d A states).1 :=
    (congrArg Prod.fst heq).symm.trans (fst_rounds hn states)
  rw [hactions, List.pairwise_filterMap]
  exact hR.imp fun hBA b hb a ha =>
    hBA b a (isActionOf_of_round hd hb) (isActionOf_of_round hd ha)

/-! ## The actions alternate -/

/-- What may follow an action for the same rule and resource; times are in nanoseconds. -/
def Follows (window : ℤ) : AlertAction → AlertAction → Prop
  | .fire _, .resolve _ => True
  | .resolve p, .fire p' => p.resolvedAt + window ≤ p'.firedAt
  | _, _ => False

/-- Fire, resolve, fire and so on, and no fire within the window of a resolve. -/
structure Alternates (window : ℤ) (actions : List AlertAction) : Prop where
  head : ∀ a ∈ actions.head?, ∃ p, a = .fire p
  chain : actions.IsChain (Follows window)

theorem alternates_nil (window : ℤ) : Alternates window [] := ⟨by simp, List.isChain_nil⟩

theorem Alternates.concat {window : ℤ} (h : Alternates window actions)
    (hnil : actions = [] → ∃ p, a = .fire p) (hlast : ∀ b ∈ actions.getLast?, Follows window b a) :
    Alternates window (actions ++ [a]) where
  head := by
    cases actions with
    | nil =>
      intro b hb
      obtain rfl : a = b := by simpa using hb
      exact hnil rfl
    | cons c actions => exact h.head
  chain := by
    refine List.isChain_append.mpr ⟨h.chain, List.isChain_singleton a, fun b hb c hc => ?_⟩
    obtain rfl : a = c := by simpa using hc
    exact hlast b hb

/-- The fired action comes from the rule and the resource. -/
structure IsFireOf (rule : BuiltInAlertRule F) (resource : String) (p : AlertFiredPayload) :
    Prop where
  alertType : p.alertType = rule.alertType
  severity : p.severity = rule.severity
  resourceIri : p.resourceIri.value = resource

/-- The entry for a rule and a resource, and the last action for them. -/
inductive Recorded (rule : BuiltInAlertRule F) (resource : String) :
    Option AlertState → Option AlertAction → Prop
  | new : Recorded rule resource none none
  | fired {p : AlertFiredPayload} (h : IsFireOf rule resource p) :
      Recorded rule resource (some ⟨true, none⟩) (some (.fire p))
  | resolved (p : AlertResolvedPayload) :
      Recorded rule resource (some ⟨false, some p.resolvedAt⟩) (some (.resolve p))

/-- What the evaluator did and knows about a rule and a resource. -/
structure History (ev : AlertEvaluator F) (rule : BuiltInAlertRule F) (resource : String)
    (states : AlertStates) (actions : List AlertAction) : Prop where
  recorded : Recorded rule resource (Assoc.get states (rule.name, resource))
    (ev.actionsOf rule resource actions).getLast?
  alternates : Alternates (ev.dampeningSecs * 10 ^ 9) (ev.actionsOf rule resource actions)

theorem Recorded.firing_eq_true {a : Option AlertAction}
    (h : Recorded rule r (Assoc.get states (rule.name, r)) a) :
    firing states rule r = true ↔ ∃ p, a = some (.fire p) ∧ IsFireOf rule r p := by
  unfold firing
  generalize Assoc.get states (rule.name, r) = state at h
  cases h with
  | new => simp
  | fired hp => simpa using hp
  | resolved p => simp

theorem History.of_getLast? (h : History ev rule r states actions) {p : AlertFiredPayload}
    (hlast : (ev.actionsOf rule r actions).getLast? = some (.fire p)) :
    firing states rule r = true ∧ IsFireOf rule r p := by
  have hfiring := h.recorded.firing_eq_true
  have hrec := h.recorded
  rw [hlast] at hrec
  generalize Assoc.get states (rule.name, r) = state at hrec
  cases hrec with
  | fired hp => exact ⟨hfiring.mpr ⟨p, hlast, hp⟩, hp⟩

/-- The window in nanoseconds, when it is a window. -/
theorem dampening_eq (hsecs : ev.dampeningSecs < 2 ^ 63) (hd : ev.dampening = some d) :
    d = ev.dampeningSecs * 10 ^ 9 := by
  unfold dampening asI64 at hd
  rw [if_pos hsecs] at hd
  dsimp only at hd
  split_ifs at hd
  exact (Option.some.inj hd).symm

theorem History.evaluate {before : List AlertAction}
    (hn : (ev.rules.map BuiltInAlertRule.name).Nodup) (hsecs : ev.dampeningSecs < 2 ^ 63)
    (hev : ev.evaluate states e.nodeIri e.metrics e.now = some (actions, states'))
    (hrule : rule ∈ ev.rules) (h : History ev rule r states before) :
    History ev rule r states' (before ++ actions) := by
  obtain ⟨hrec, halt⟩ := h
  obtain ⟨d, hd, -⟩ := Option.map_eq_some_iff.mp hev
  rcases evaluate_cases hn hev hrule r with ⟨rfl, hf, ⟨value, hacts⟩, hget⟩ |
    ⟨rfl, hres, hacts, hget⟩ | ⟨-, hacts, hget⟩
  · refine ⟨?_, ?_⟩
    · rw [actionsOf_append, hacts, hget, List.getLast?_concat]
      exact .fired ⟨rfl, rfl, rfl⟩
    · rw [actionsOf_append, hacts]
      refine halt.concat (fun _ => ⟨_, rfl⟩) fun b hb => ?_
      rw [Option.mem_def.mp hb] at hrec
      obtain ⟨-, hfiring, hsup⟩ := hf
      unfold firing at hfiring
      unfold suppressed at hsup
      generalize Assoc.get states (rule.name, e.nodeIri.value) = state at hrec hfiring hsup
      cases hrec with
      | fired hp => simp at hfiring
      | resolved p =>
        have hle : ¬ e.now - p.resolvedAt < d := by simpa [hd] using hsup
        rw [dampening_eq hsecs hd] at hle
        show p.resolvedAt + ev.dampeningSecs * 10 ^ 9 ≤ e.now
        omega
  · refine ⟨?_, ?_⟩
    · rw [actionsOf_append, hacts, hget, List.getLast?_concat]
      exact .resolved ⟨_, _, _, e.now⟩
    · rw [actionsOf_append, hacts]
      obtain ⟨p, hlast, -⟩ := hrec.firing_eq_true.mp hres.2
      refine halt.concat (fun hnil => ?_) fun b hb => ?_
      · rw [hnil] at hlast
        simp at hlast
      · obtain rfl := Option.some.inj ((Option.mem_def.mp hb).symm.trans hlast)
        trivial
  · refine ⟨?_, ?_⟩
    · rwa [actionsOf_append, hacts, List.append_nil, hget]
    · rwa [actionsOf_append, hacts, List.append_nil]

end AlertEvaluator

end Picloud
