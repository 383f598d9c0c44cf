import Picloud.Rdf.Lifecycle

/-!
# One status for each resource

The life of a resource is read off its events since it was last deleted. One status is left, and the
right one, exactly when these are declarations only, or when their updates are all of the kind of the
last event and every declaration in the graph of a product was followed by an update there.
-/

namespace Picloud

open Lib

/-! ## What is claimed -/

/-- The last lifecycle event of a resource. -/
def lastEvent (r : String) (events : List EventEnvelope) : Option EventEnvelope :=
  (events.filter (resourceOf · = r)).getLast?

/-- The status that the event stands for; none after a deletion. -/
def expectedStatus (event : EventEnvelope) : Option Term :=
  (statusText event.eventType).map statusTerm

/-- The label that the event stands for; none after a deletion. -/
def expectedLabel (event : EventEnvelope) : Option Term :=
  (statusText event.eventType).map simple

/-- Every resource has the status and the label of its last event and no others, in the graphs of
products no other status than in the default graph, and a reason for a failure only after one. -/
structure OneStatus (env : ProjectorEnv) (events : List EventEnvelope) : Prop where
  status : ∀ r o, quad r (pc "status") o .default ∈ (Projector.new.projectEach env events).store →
    ∃ e, lastEvent r events = some e ∧ expectedStatus e = some o
  label : ∀ r o,
    quad r (pc "statusLabel") o .default ∈ (Projector.new.projectEach env events).store →
      ∃ e, lastEvent r events = some e ∧ expectedLabel e = some o
  product : ∀ r o p,
    quad r (pc "status") o (productGraphName env p) ∈
        (Projector.new.projectEach env events).store →
      quad r (pc "status") o .default ∈ (Projector.new.projectEach env events).store
  reason : ∀ r o g,
    quad r (pc "failureReason") o g ∈ (Projector.new.projectEach env events).store →
      ∃ e, lastEvent r events = some e ∧ e.eventType = "ResourceFailed"

/-! ## The history of a resource -/

/-- The events of a resource after one more event: a deletion forgets them. -/
def recordEvent (r : String) (h : List EventEnvelope) (event : EventEnvelope) :
    List EventEnvelope :=
  if resourceOf event = r then (if event.eventType = "ResourceDeleted" then [] else h ++ [event])
  else h

/-- The events of a resource since it was last deleted. -/
def history (r : String) (events : List EventEnvelope) : List EventEnvelope :=
  events.foldl (recordEvent r) []

theorem history_append (r : String) (events : List EventEnvelope) (event : EventEnvelope) :
    history r (events ++ [event]) = recordEvent r (history r events) event := by
  rw [history, List.foldl_append]
  rfl

/-- The condition on the history of a resource. -/
def Steady (env : ProjectorEnv) (h : List EventEnvelope) : Prop :=
  (∀ e ∈ h, e.eventType = "ResourceDeclared") ∨
    ∃ last, h.getLast? = some last ∧ last.eventType ≠ "ResourceDeclared" ∧
      (∀ e ∈ h, e.eventType = "ResourceDeclared" ∨ e.eventType = last.eventType) ∧
      ∀ h₁ e h₂ p, h = h₁ ++ e :: h₂ → e.eventType = "ResourceDeclared" →
        e.str "product" = some p → ValidProduct env p →
          ∃ e' ∈ h₂, e'.eventType ≠ "ResourceDeclared" ∧ e'.product = some p

/-- The life of a resource is that of its history. -/
theorem lifeOf_eq (env : ProjectorEnv) (r : String) (events : List EventEnvelope) :
    lifeOf env r events = (history r events).foldl (Life.step env) Life.empty := by
  induction events using List.reverseRecOn with
  | nil => rfl
  | append_singleton events event ih =>
    rw [history_append, recordEvent, lifeOf, List.foldl_append]
    show Life.next env r (lifeOf env r events) event = _
    rw [Life.next, ih]
    by_cases hevent : resourceOf event = r
    · rw [if_pos hevent, if_pos hevent]
      by_cases hdel : event.eventType = "ResourceDeleted"
      · rw [if_pos hdel, Life.step, if_neg (by simp [hdel]), hdel]
        rfl
      · rw [if_neg hdel, List.foldl_append]
        rfl
    · rw [if_neg hevent, if_neg hevent]

/-- The last event of a history is the last event of the resource. -/
theorem lastEvent_of_history {r : String} {events : List EventEnvelope} {e : EventEnvelope}
    (h : (history r events).getLast? = some e) : lastEvent r events = some e := by
  induction events using List.reverseRecOn with
  | nil => simp [history] at h
  | append_singleton events event ih =>
    rw [history_append, recordEvent] at h
    rw [lastEvent, List.filter_append]
    by_cases hevent : resourceOf event = r
    · rw [if_pos hevent] at h
      split_ifs at h with hdel
      · simp at h
      · simpa [hevent] using h
    · rw [if_neg hevent] at h
      simpa [hevent, lastEvent] using ih h

/-- The types of the events of a history. -/
theorem type_of_mem_history {r : String} {events : List EventEnvelope}
    (hall : ∀ e ∈ events, e.eventType ∈ lifecycleTypes) :
    ∀ e ∈ history r events, ∃ text, statusText e.eventType = some text := by
  induction events using List.reverseRecOn with
  | nil => simp [history]
  | append_singleton events event ih =>
    have ih := ih fun e he => hall e (List.mem_append_left _ he)
    rw [history_append, recordEvent]
    split_ifs with hevent hdel
    · simp
    · intro e he
      rcases List.mem_append.mp he with hold | hnew
      · exact ih e hold
      · rw [List.mem_singleton.mp hnew]
        rcases lifecycle_cases (hall event (by simp)) with htype | ⟨-, htext⟩ | htype
        · exact ⟨"declared", by simp [statusText, htype]⟩
        · exact htext
        · exact absurd htype hdel
    · exact ih

/-! ## The life of a history -/

/-- The events that give a status. -/
def Active (h : List EventEnvelope) : Prop := ∀ e ∈ h, ∃ text, statusText e.eventType = some text

/-- The life after the events of a history. -/
def lived (env : ProjectorEnv) (h : List EventEnvelope) : Life :=
  h.foldl (Life.step env) Life.empty

/-- The types with their texts. -/
def statusTable : List (String × String) :=
  [("ResourceDeclared", "declared"), ("ResourceProvisioning", "provisioning"),
    ("ResourceReady", "ready"), ("ResourceFailed", "failed")]

theorem mem_statusTable {eventType text : String} (h : statusText eventType = some text) :
    (eventType, text) ∈ statusTable := by
  unfold statusText at h
  split_ifs at h with h1 h2 h3 h4 <;> cases h
  · simp [statusTable, h1]
  · simp [statusTable, h2]
  · simp [statusTable, h3]
  · simp [statusTable, h4]

/-- Different types give different labels. -/
theorem expectedLabel_inj {a b : EventEnvelope} {o : Term} (ha : expectedLabel a = some o)
    (hb : expectedLabel b = some o) : a.eventType = b.eventType := by
  have hinj : ∀ x ∈ statusTable, ∀ y ∈ statusTable, x.2 = y.2 → x.1 = y.1 := by decide
  obtain ⟨t, ht, rfl⟩ := Option.map_eq_some_iff.mp ha
  obtain ⟨t', ht', heq⟩ := Option.map_eq_some_iff.mp hb
  exact hinj _ (mem_statusTable ht) _ (mem_statusTable ht') (by simpa [simple] using heq.symm)

/-- Different types give different statuses. -/
theorem expectedStatus_inj {a b : EventEnvelope} {o : Term} (ha : expectedStatus a = some o)
    (hb : expectedStatus b = some o) : a.eventType = b.eventType := by
  have hinj : ∀ x ∈ statusTable, ∀ y ∈ statusTable,
      capitalizeStatus x.2 = capitalizeStatus y.2 → x.1 = y.1 := by decide
  obtain ⟨t, ht, rfl⟩ := Option.map_eq_some_iff.mp ha
  obtain ⟨t', ht', heq⟩ := Option.map_eq_some_iff.mp hb
  exact hinj _ (mem_statusTable ht) _ (mem_statusTable ht')
    (by simpa [statusTerm, picloudTerm] using heq.symm)

theorem statusText_declared : statusText "ResourceDeclared" = some "declared" := by
  simp [statusText]

section Lived

variable {env : ProjectorEnv} {h : List EventEnvelope} {e : EventEnvelope}

theorem lived_declared (htype : e.eventType = "ResourceDeclared") :
    lived env (h ++ [e]) = (lived env h).declared env (e.str "product") := by
  rw [lived, List.foldl_append]
  show Life.step env _ e = _
  rw [Life.step, if_pos htype]
  rfl

theorem lived_updated {text : String} (htext : statusText e.eventType = some text)
    (hne : e.eventType ≠ "ResourceDeclared") :
    lived env (h ++ [e]) = (lived env h).updated env text e.product := by
  rw [lived, List.foldl_append]
  show Life.step env _ e = _
  rw [Life.step, if_neg hne, htext]
  rfl

theorem Active.init (ha : Active (h ++ [e])) : Active h :=
  fun x hx => ha x (List.mem_append_left _ hx)

theorem Active.last (ha : Active (h ++ [e])) : ∃ text, statusText e.eventType = some text :=
  ha e (by simp)

variable {o : Term} {p : String}

/-- The status values come from the events. -/
theorem mem_status_lived (ha : Active h) (ho : o ∈ (lived env h).status) :
    ∃ e ∈ h, expectedStatus e = some o := by
  induction h using List.reverseRecOn with
  | nil => simp [lived, Life.empty] at ho
  | append_singleton h e ih =>
    by_cases htype : e.eventType = "ResourceDeclared"
    · rw [lived_declared htype] at ho
      rcases List.mem_append.mp ho with hold | hnew
      · obtain ⟨x, hx, hexp⟩ := ih ha.init hold
        exact ⟨x, List.mem_append_left _ hx, hexp⟩
      · exact ⟨e, by simp, by
          rw [expectedStatus, htype, statusText_declared, List.mem_singleton.mp hnew]; rfl⟩
    · obtain ⟨text, htext⟩ := ha.last
      rw [lived_updated htext htype] at ho
      exact ⟨e, by simp, by rw [expectedStatus, htext, List.mem_singleton.mp ho]; rfl⟩

/-- The last event leaves its status. -/
theorem status_last_lived (env : ProjectorEnv) (ha : Active (h ++ [e])) :
    ∃ o ∈ (lived env (h ++ [e])).status, expectedStatus e = some o := by
  by_cases htype : e.eventType = "ResourceDeclared"
  · rw [lived_declared htype]
    exact ⟨_, List.mem_append_right _ (List.mem_singleton_self _), by
      rw [expectedStatus, htype, statusText_declared]; rfl⟩
  · obtain ⟨text, htext⟩ := ha.last
    rw [lived_updated htext htype]
    exact ⟨_, List.mem_singleton_self _, by rw [expectedStatus, htext]; rfl⟩

/-- The status of an update stays until the next update. -/
theorem exists_update_status (env : ProjectorEnv) (ha : Active h)
    (hupdate : ∃ e ∈ h, e.eventType ≠ "ResourceDeclared") :
    ∃ e ∈ h, e.eventType ≠ "ResourceDeclared" ∧
      ∃ o ∈ (lived env h).status, expectedStatus e = some o := by
  induction h using List.reverseRecOn with
  | nil => simp at hupdate
  | append_singleton h e ih =>
    by_cases htype : e.eventType = "ResourceDeclared"
    · obtain ⟨x, hx, hne⟩ := hupdate
      have hxh : x ∈ h := by
        rcases List.mem_append.mp hx with hold | hnew
        · exact hold
        · exact absurd (List.mem_singleton.mp hnew ▸ htype) hne
      obtain ⟨y, hy, hyne, o, ho, hexp⟩ := ih ha.init ⟨x, hxh, hne⟩
      rw [lived_declared htype]
      exact ⟨y, List.mem_append_left _ hy, hyne, o, List.mem_append_left _ ho, hexp⟩
    · obtain ⟨o, ho, hexp⟩ := status_last_lived env ha
      exact ⟨e, by simp, htype, o, ho, hexp⟩

/-- The labels are those of the updates. -/
theorem mem_labels_lived (ha : Active h) : o ∈ (lived env h).labels ↔
    ∃ e ∈ h, e.eventType ≠ "ResourceDeclared" ∧ expectedLabel e = some o := by
  induction h using List.reverseRecOn with
  | nil => simp [lived, Life.empty]
  | append_singleton h e ih =>
    have ih := ih ha.init
    by_cases htype : e.eventType = "ResourceDeclared"
    · rw [lived_declared htype, Life.declared, ih]
      constructor
      · rintro ⟨x, hx, hne, hexp⟩
        exact ⟨x, List.mem_append_left _ hx, hne, hexp⟩
      · rintro ⟨x, hx, hne, hexp⟩
        rcases List.mem_append.mp hx with hold | hnew
        · exact ⟨x, hold, hne, hexp⟩
        · exact absurd (List.mem_singleton.mp hnew ▸ htype) hne
    · obtain ⟨text, htext⟩ := ha.last
      rw [lived_updated htext htype, Life.updated, List.mem_append, ih]
      constructor
      · rintro (⟨x, hx, hne, hexp⟩ | hnew)
        · exact ⟨x, List.mem_append_left _ hx, hne, hexp⟩
        · exact ⟨e, by simp, htype, by rw [expectedLabel, htext, List.mem_singleton.mp hnew]; rfl⟩
      · rintro ⟨x, hx, hne, hexp⟩
        rcases List.mem_append.mp hx with hold | hnew
        · exact Or.inl ⟨x, hold, hne, hexp⟩
        · rw [List.mem_singleton.mp hnew, expectedLabel, htext] at hexp
          exact Or.inr (by rw [← Option.some.inj hexp]; simp)

/-- A declaration in the graph of a product stays there until an update in that graph. -/
theorem declared_mem_inProduct (hvalid : ValidProduct env p)
    (htype : e.eventType = "ResourceDeclared") (hp : e.str "product" = some p)
    {rest : List EventEnvelope} (ha : Active rest)
    (hrest : ∀ x ∈ rest, x.eventType ≠ "ResourceDeclared" → x.product ≠ some p) :
    statusTerm "declared" ∈ (lived env (h ++ e :: rest)).inProduct p := by
  induction rest using List.reverseRecOn with
  | nil =>
    rw [lived_declared htype, Life.declared_inProduct, if_pos ⟨hp, hvalid⟩]
    simp
  | append_singleton rest x ih =>
    have hih := ih ha.init fun y hy => hrest y (List.mem_append_left _ hy)
    rw [← List.cons_append, ← List.append_assoc]
    by_cases hx : x.eventType = "ResourceDeclared"
    · rw [lived_declared hx, Life.declared_inProduct]
      split_ifs
      · exact List.mem_append_left _ hih
      · exact hih
    · obtain ⟨text, htext⟩ := ha.last
      rw [lived_updated htext hx, Life.updated_inProduct,
        if_neg fun hcond => hrest x (by simp) hx hcond.1]
      exact hih

/-- A graph whose name is no IRI stays empty. -/
theorem inProduct_lived_invalid (ha : Active h) (hp : ¬ ValidProduct env p) :
    (lived env h).inProduct p = [] := by
  induction h using List.reverseRecOn with
  | nil => rfl
  | append_singleton h e ih =>
    by_cases htype : e.eventType = "ResourceDeclared"
    · rw [lived_declared htype, Life.declared_inProduct, if_neg fun hcond => hp hcond.2]
      exact ih ha.init
    · obtain ⟨text, htext⟩ := ha.last
      rw [lived_updated htext htype, Life.updated_inProduct, if_neg fun hcond => hp hcond.2]
      exact ih ha.init

/-- Where a status in the graph of a product comes from. -/
theorem mem_inProduct_lived (ha : Active h) (ho : o ∈ (lived env h).inProduct p) :
    (∃ h₁ x h₂, h = h₁ ++ x :: h₂ ∧ x.eventType = "ResourceDeclared" ∧ x.str "product" = some p ∧
      ValidProduct env p ∧ expectedStatus x = some o ∧
      ∀ y ∈ h₂, y.eventType ≠ "ResourceDeclared" → y.product ≠ some p) ∨
    ∃ x ∈ h, x.eventType ≠ "ResourceDeclared" ∧ expectedStatus x = some o := by
  induction h using List.reverseRecOn with
  | nil => simp [lived, Life.empty] at ho
  | append_singleton h e ih =>
    -- what was there before, with the event behind it
    have hold : o ∈ (lived env h).inProduct p →
        (e.eventType ≠ "ResourceDeclared" → e.product ≠ some p) →
        (∃ h₁ x h₂, h ++ [e] = h₁ ++ x :: h₂ ∧ x.eventType = "ResourceDeclared" ∧
          x.str "product" = some p ∧ ValidProduct env p ∧ expectedStatus x = some o ∧
          ∀ y ∈ h₂, y.eventType ≠ "ResourceDeclared" → y.product ≠ some p) ∨
        ∃ x ∈ h ++ [e], x.eventType ≠ "ResourceDeclared" ∧ expectedStatus x = some o := by
      intro hmem he
      rcases ih ha.init hmem with ⟨h₁, x, h₂, rfl, htype, hp, hvalid, hexp, hrest⟩ | ⟨x, hx, hne, hexp⟩
      · refine Or.inl ⟨h₁, x, h₂ ++ [e], by simp, htype, hp, hvalid, hexp, fun y hy => ?_⟩
        rcases List.mem_append.mp hy with hy | hy
        · exact hrest y hy
        · rw [List.mem_singleton.mp hy]
          exact he
      · exact Or.inr ⟨x, List.mem_append_left _ hx, hne, hexp⟩
    by_cases htype : e.eventType = "ResourceDeclared"
    · rw [lived_declared htype, Life.declared_inProduct] at ho
      split_ifs at ho with hcond
      · rcases List.mem_append.mp ho with hmem | hnew
        · exact hold hmem fun hne => absurd htype hne
        · refine Or.inl ⟨h, e, [], rfl, htype, hcond.1, hcond.2, ?_, by simp⟩
          rw [expectedStatus, htype, statusText_declared, List.mem_singleton.mp hnew]
          rfl
      · exact hold ho fun hne => absurd htype hne
    · obtain ⟨text, htext⟩ := ha.last
      rw [lived_updated htext htype, Life.updated_inProduct] at ho
      split_ifs at ho with hcond
      · refine Or.inr ⟨e, by simp, htype, ?_⟩
        rw [expectedStatus, htext, List.mem_singleton.mp ho]
        rfl
      · by_cases hp : e.product = some p
        · rw [inProduct_lived_invalid ha.init fun hvalid => hcond ⟨hp, hvalid⟩] at ho
          simp at ho
        · exact hold ho fun _ => hp

end Lived

/-! ## The two directions -/

section Directions

variable {env : ProjectorEnv} {events : List EventEnvelope} {r : String}

/-- A resource that is no IRI has no status. -/
theorem absent_of_invalid (hall : ∀ e ∈ events, e.eventType ∈ lifecycleTypes)
    (hr : env.checks.iri r ≠ none) {q : Quad} (hq : IsLifecycle q) (hsubj : q.subject = .named ⟨r⟩) :
    q ∉ (Projector.new.projectEach env events).store := by
  rw [Projector.store_projectEach]
  induction events using List.reverseRecOn with
  | nil => simp [Projector.new]
  | append_singleton events event ih =>
    rw [List.foldl_append]
    have hbefore := ih fun e he => hall e (List.mem_append_left _ he)
    have htype := hall event (by simp)
    show q ∉ projected env _ event
    by_cases hevent : resourceOf event = r
    · obtain ⟨e, he⟩ := Option.ne_none_iff_exists'.mp (hevent ▸ hr)
      rw [projected_invalid htype he]
      exact hbefore
    · intro hmem
      refine hbefore (mem_of_mem_projected htype hq (fun heq => hevent ?_) hmem)
      rw [hsubj] at heq
      exact (congrArg NamedNode.value (Subject.named.inj heq)).symm

/-- A reason for a failure comes from a failure since the last deletion. -/
theorem failed_of_reason (hall : ∀ e ∈ events, e.eventType ∈ lifecycleTypes)
    (hr : env.checks.iri r = none) {o : Term} {g : GraphName}
    (hq : quad r (pc "failureReason") o g ∈ (Projector.new.projectEach env events).store) :
    ∃ e ∈ history r events, e.eventType = "ResourceFailed" := by
  rw [Projector.store_projectEach] at hq
  induction events using List.reverseRecOn with
  | nil => simp [Projector.new] at hq
  | append_singleton events event ih =>
    have ih := ih fun e he => hall e (List.mem_append_left _ he)
    have htype := hall event (by simp)
    have hlife : IsLifecycle (quad r (pc "failureReason") o g) :=
      ⟨"failureReason", by simp [lifecycleNames], rfl⟩
    rw [List.foldl_append] at hq
    rw [history_append, recordEvent]
    by_cases hevent : resourceOf event = r
    · rw [if_pos hevent]
      subst hevent
      rcases lifecycle_cases htype with hdecl | ⟨hne, text, htext⟩ | hdel
      · rw [if_neg (by simp [hdecl])]
        rcases (mem_declared hdecl hr hlife).mp hq with hold | heq | ⟨p, -, -, heq⟩
        · obtain ⟨e, he, hfail⟩ := ih hold
          exact ⟨e, List.mem_append_left _ he, hfail⟩
        · simp [quad] at heq
        · simp [quad] at heq
      · rw [if_neg fun hdel => by simp [hdel, statusText] at htext]
        rcases mem_reason_of_updated htext hne rfl hq with hold | ⟨hfail, -⟩
        · obtain ⟨e, he, hfail⟩ := ih hold
          exact ⟨e, List.mem_append_left _ he, hfail⟩
        · exact ⟨event, by simp, hfail⟩
      · exact absurd rfl ((mem_deleted hdel hr).mp hq).2
    · rw [if_neg hevent]
      refine ih (mem_of_mem_projected htype hlife (fun heq => hevent ?_) hq)
      exact (congrArg NamedNode.value (Subject.named.inj heq)).symm

/-- The store follows the history of every valid resource. -/
theorem lives_history (hall : ∀ e ∈ events, e.eventType ∈ lifecycleTypes)
    (hr : env.checks.iri r = none) :
    Lives env r (Projector.new.projectEach env events).store (lived env (history r events)) := by
  rw [Projector.store_projectEach, lived, ← lifeOf_eq]
  exact lives_foldl hr hall

/-- One status, read back into the history. -/
theorem OneStatus.steady (h : OneStatus env events)
    (hall : ∀ e ∈ events, e.eventType ∈ lifecycleTypes) (hr : env.checks.iri r = none) :
    Steady env (history r events) := by
  have hlives := lives_history hall hr
  have hactive : Active (history r events) := type_of_mem_history hall
  cases hlast : (history r events).getLast? with
  | none =>
    rw [List.getLast?_eq_none_iff.mp hlast]
    exact Or.inl (by simp)
  | some last =>
    have hend := lastEvent_of_history hlast
    by_cases hdecl : last.eventType = "ResourceDeclared"
    · left
      by_contra hsome
      push Not at hsome
      obtain ⟨x, hx, hne, o, ho, hexp⟩ := exists_update_status env hactive hsome
      obtain ⟨e, he, hexp'⟩ := h.status r o ((hlives.status o).mpr ho)
      obtain rfl : last = e := Option.some.inj (hend ▸ he)
      exact hne (expectedStatus_inj hexp hexp' ▸ hdecl)
    · refine Or.inr ⟨last, hlast, hdecl, fun e he => ?_, fun h₁ e h₂ p hsplit htype hp hvalid => ?_⟩
      · by_cases hne : e.eventType = "ResourceDeclared"
        · exact Or.inl hne
        · right
          obtain ⟨text, htext⟩ := hactive e he
          have hlabel : expectedLabel e = some (simple text) := by rw [expectedLabel, htext]; rfl
          obtain ⟨x, hx, hexp⟩ := h.label r _ ((hlives.labels _).mpr
            ((mem_labels_lived hactive).mpr ⟨e, he, hne, hlabel⟩))
          obtain rfl : last = x := Option.some.inj (hend ▸ hx)
          exact expectedLabel_inj hlabel hexp
      · by_contra hnone
        push Not at hnone
        have hrest : Active h₂ := fun x hx => hactive x (by rw [hsplit]; simp [hx])
        have hmem := declared_mem_inProduct (h := h₁) hvalid htype hp hrest hnone
        rw [← hsplit] at hmem
        obtain ⟨x, hx, hexp⟩ := h.status r _ (h.product r _ p ((hlives.inProduct p _).mpr hmem))
        obtain rfl : last = x := Option.some.inj (hend ▸ hx)
        have hdeclared : expectedStatus e = some (statusTerm "declared") := by
          rw [expectedStatus, htype, statusText_declared]
          rfl
        exact hdecl (expectedStatus_inj hexp hdeclared ▸ htype)

/-- In a steady history every event that leaves a status is of the kind of the last one. -/
theorem Steady.type_eq {h : List EventEnvelope} (hs : Steady env h) {last : EventEnvelope}
    (hlast : h.getLast? = some last) {x : EventEnvelope} (hx : x ∈ h)
    (hkind : x.eventType ≠ "ResourceDeclared" ∨ ∀ e ∈ h, e.eventType = "ResourceDeclared") :
    x.eventType = last.eventType := by
  rcases hs with hall | ⟨last', hlast', -, hkinds, -⟩
  · rw [hall x hx, hall last (List.mem_of_getLast? hlast)]
  · obtain rfl : last = last' := Option.some.inj (hlast ▸ hlast')
    rcases hkind with hne | hall
    · exact (hkinds x hx).resolve_left hne
    · rw [hall x hx, hall last (List.mem_of_getLast? hlast)]

/-- The status values of a steady history. -/
theorem Steady.status {h : List EventEnvelope} (hs : Steady env h) (ha : Active h) {o : Term}
    (ho : o ∈ (lived env h).status) : ∃ last, h.getLast? = some last ∧
      expectedStatus last = some o := by
  induction h using List.reverseRecOn with
  | nil => simp [lived, Life.empty] at ho
  | append_singleton h e _ =>
    refine ⟨e, by simp, ?_⟩
    by_cases htype : e.eventType = "ResourceDeclared"
    · rcases hs with hall | ⟨last, hlast, hne, -⟩
      · obtain ⟨x, hx, hexp⟩ := mem_status_lived ha ho
        rw [expectedStatus, htype, ← hall x hx]
        exact hexp
      · rw [List.getLast?_append, List.getLast?_singleton, Option.some_or,
          Option.some.injEq] at hlast
        exact absurd (hlast ▸ htype) hne
    · obtain ⟨text, htext⟩ := ha.last
      rw [lived_updated htext htype] at ho
      rw [expectedStatus, htext, List.mem_singleton.mp ho]
      rfl

/-- A steady history leaves one status for the resource. -/
theorem oneStatus_of_steady (hall : ∀ e ∈ events, e.eventType ∈ lifecycleTypes)
    (hsteady : ∀ r, env.checks.iri r = none → Steady env (history r events)) :
    OneStatus env events := by
  have hvalid : ∀ {r name o g}, name ∈ lifecycleNames →
      quad r (pc name) o g ∈ (Projector.new.projectEach env events).store →
        env.checks.iri r = none := by
    intro r name o g hname hq
    by_contra hr
    exact absent_of_invalid hall hr ⟨name, hname, rfl⟩ rfl hq
  have hactive : ∀ r, Active (history r events) := fun r => type_of_mem_history hall
  refine ⟨fun r o hq => ?_, fun r o hq => ?_, fun r o p hq => ?_, fun r o g hq => ?_⟩
  · have hr := hvalid (by simp [lifecycleNames]) hq
    obtain ⟨last, hlast, hexp⟩ := (hsteady r hr).status (hactive r)
      (((lives_history hall hr).status o).mp hq)
    exact ⟨last, lastEvent_of_history hlast, hexp⟩
  · have hr := hvalid (by simp [lifecycleNames]) hq
    obtain ⟨x, hx, hne, hexp⟩ := (mem_labels_lived (hactive r)).mp
      (((lives_history hall hr).labels o).mp hq)
    obtain ⟨last, hlast⟩ := Option.isSome_iff_exists.mp
      (List.getLast?_isSome.mpr (List.ne_nil_of_mem hx))
    refine ⟨last, lastEvent_of_history hlast, ?_⟩
    rw [expectedLabel, ← (hsteady r hr).type_eq hlast hx (Or.inl hne)]
    exact hexp
  · have hr := hvalid (by simp [lifecycleNames]) hq
    have hlives := lives_history hall hr
    have hmem := (hlives.inProduct p o).mp hq
    have hne : history r events ≠ [] := by
      intro hnil
      rw [hnil] at hmem
      simp [lived, Life.empty] at hmem
    obtain ⟨h, last, hsplit⟩ := List.eq_nil_or_concat'  (history r events) |>.resolve_left hne
    have hlast : (history r events).getLast? = some last := by simp [hsplit]
    obtain ⟨o', ho', hexp'⟩ := status_last_lived env (hsplit ▸ hactive r)
    -- the event that has left the status in the graph of the product is of the last kind
    have hexp : expectedStatus last = some o := by
      rcases mem_inProduct_lived (hactive r) hmem with
        ⟨h₁, x, h₂, hat, htype, hp, hvalidp, hexp, hrest⟩ | ⟨x, hx, hxne, hexp⟩
      · rcases hsteady r hr with hdecl | ⟨last', -, -, -, hfollowed⟩
        · rw [expectedStatus, hdecl last (List.mem_of_getLast? hlast), ← htype]
          exact hexp
        · obtain ⟨e', he', hne', hp'⟩ := hfollowed h₁ x h₂ p hat htype hp hvalidp
          exact absurd hp' (hrest e' he' hne')
      · rw [expectedStatus, ← (hsteady r hr).type_eq hlast hx (Or.inl hxne)]
        exact hexp
    obtain rfl : o' = o := Option.some.inj (hexp' ▸ hexp)
    exact (hlives.status o').mpr (hsplit ▸ ho')
  · have hr := hvalid (by simp [lifecycleNames]) hq
    obtain ⟨x, hx, hfail⟩ := failed_of_reason hall hr hq
    obtain ⟨last, hlast⟩ := Option.isSome_iff_exists.mp
      (List.getLast?_isSome.mpr (List.ne_nil_of_mem hx))
    refine ⟨last, lastEvent_of_history hlast, ?_⟩
    rw [← (hsteady r hr).type_eq hlast hx (Or.inl (by simp [hfail]))]
    exact hfail

end Directions

/-- **Every resource has one status, that of its last event, exactly when its events since its last
deletion are steady.** -/
theorem one_status_iff (env : ProjectorEnv) (events : List EventEnvelope)
    (hall : ∀ e ∈ events, e.eventType ∈ lifecycleTypes) :
    OneStatus env events ↔ ∀ r, env.checks.iri r = none → Steady env (history r events) :=
  ⟨fun h _ hr => h.steady hall hr, oneStatus_of_steady hall⟩

/-- A lifecycle event of one resource. -/
def sampleLifecycle (eventType : String) : EventEnvelope :=
  sampleEvent eventType none [("resource_iri", .string "https://picloud.local/r")]

/-- A resource is declared and becomes ready. -/
theorem one_status_declared_ready :
    OneStatus plainEnv [sampleLifecycle "ResourceDeclared", sampleLifecycle "ResourceReady"] := by
  refine (one_status_iff plainEnv _ ?_).mpr fun r _ => ?_
  · decide
  · by_cases hr : "https://picloud.local/r" = r
    · subst hr
      refine Or.inr ⟨sampleLifecycle "ResourceReady", by decide +kernel, by decide, ?_, ?_⟩
      · decide +kernel
      · intro h₁ e h₂ p hsplit _ hp
        have he : e ∈ [sampleLifecycle "ResourceDeclared", sampleLifecycle "ResourceReady"] := by
          have hhist : history "https://picloud.local/r"
              [sampleLifecycle "ResourceDeclared", sampleLifecycle "ResourceReady"] =
                [sampleLifecycle "ResourceDeclared", sampleLifecycle "ResourceReady"] := by
            decide +kernel
          rw [← hhist, hsplit]
          simp
        have hnone : ∀ x ∈ [sampleLifecycle "ResourceDeclared", sampleLifecycle "ResourceReady"],
            x.str "product" = none := by decide +kernel
        rw [hnone e he] at hp
        cases hp
    · have hother : ∀ eventType, resourceOf (sampleLifecycle eventType) ≠ r := by
        intro eventType
        exact hr
      have hnil : history r [sampleLifecycle "ResourceDeclared", sampleLifecycle "ResourceReady"] =
          [] := by
        simp [history, recordEvent, hother]
      rw [hnil]
      exact Or.inl (by simp)

/-- A resource that is provisioned before it is ready keeps both labels. -/
theorem two_labels_after_provisioning :
    ¬ OneStatus plainEnv [sampleLifecycle "ResourceDeclared", sampleLifecycle "ResourceProvisioning",
        sampleLifecycle "ResourceReady"] ∧
      quad "https://picloud.local/r" (pc "statusLabel") (simple "provisioning") .default ∈
        (Projector.new.projectEach plainEnv [sampleLifecycle "ResourceDeclared",
          sampleLifecycle "ResourceProvisioning", sampleLifecycle "ResourceReady"]).store ∧
      quad "https://picloud.local/r" (pc "statusLabel") (simple "ready") .default ∈
        (Projector.new.projectEach plainEnv [sampleLifecycle "ResourceDeclared",
          sampleLifecycle "ResourceProvisioning", sampleLifecycle "ResourceReady"]).store := by
  have hprovisioning : quad "https://picloud.local/r" (pc "statusLabel") (simple "provisioning")
      .default ∈ (Projector.new.projectEach plainEnv [sampleLifecycle "ResourceDeclared",
        sampleLifecycle "ResourceProvisioning", sampleLifecycle "ResourceReady"]).store := by
    decide +kernel
  refine ⟨fun h => ?_, hprovisioning, by decide +kernel⟩
  obtain ⟨e, he, hlabel⟩ := h.label _ _ hprovisioning
  have hlast : lastEvent "https://picloud.local/r" [sampleLifecycle "ResourceDeclared",
      sampleLifecycle "ResourceProvisioning", sampleLifecycle "ResourceReady"] =
        some (sampleLifecycle "ResourceReady") := by
    decide +kernel
  rw [hlast] at he
  obtain rfl := Option.some.inj he
  exact absurd hlabel (by decide)

end Picloud
