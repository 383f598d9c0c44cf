import Picloud.Lib.Pool
import Picloud.Network.DnsGraph

/-!
# Answers after an invalidation

A resolve call looks into the cache, asks the graph and inserts what it found, each in a section of its
own, and an event is first reflected in the graph and then handled. The states of the graph are numbered,
and a call keeps the events that had been handled when it looked into the cache: what it returns must come
from a state of the graph since those that concern its name. Which names an event concerns follows from
what it changes in the graph (`invalidates_of_changes`).
-/

namespace Picloud

open Lib

/-! ## Tasks -/

/-- An event that the graph reflects: the number of its state of the graph, and the states around it. -/
structure ReflectedEvent (G : Type) where
  eventType : String
  payload : Json
  index : ℕ
  before : G
  after : G

/-- The graph with its earlier states, the cache, the clock, and the events handled so far. -/
structure DnsShared (G : Type) where
  graph : G
  earlier : List G
  cache : DnsCache
  now : ℕ
  handled : List (ReflectedEvent G)

/-- The sections that are still to come. -/
inductive DnsTask (G : Type) where
  | resolve (name recordType : String)
  | askGraph (name rtype : String) (known : List (ReflectedEvent G))
  | insert (name rtype : String) (records : List DnsRecord) (readAt : ℕ) (known : List (ReflectedEvent G))
  | resolved (name rtype : String) (known : List (ReflectedEvent G)) (result : ResolveResult)
  | publish (eventType : String) (payload : Json) (after : G)
  | handle (event : ReflectedEvent G)
  | update (after : G)
  | evictExpired
  | wait (time : ℕ)
  | finished

/-- The calls: a name is resolved, an event is published, the graph changes for other reasons, expired
entries are evicted, time goes by. -/
inductive DnsCall (G : Type) where
  | resolve (name recordType : String)
  | publish (eventType : String) (payload : Json) (after : G)
  | update (after : G)
  | evictExpired
  | wait (time : ℕ)

/-- The task of a call. -/
def DnsCall.enter {G : Type} : DnsCall G → DnsTask G
  | .resolve name recordType => .resolve name recordType
  | .publish eventType payload after => .publish eventType payload after
  | .update after => .update after
  | .evictExpired => .evictExpired
  | .wait time => .wait time

namespace DnsShared

variable {G : Type} (s : DnsShared G)

/-- The states of the graph. -/
def states : List G := s.earlier ++ [s.graph]

/-- The graph changes. -/
def update (after : G) : DnsShared G := { s with graph := after, earlier := s.states }

end DnsShared

namespace DnsResolver

variable {G : Type} (resolver : DnsResolver G)

/-- One section of a task. Only the events of the list are handled. -/
def dnsStep (s : DnsShared G) : DnsTask G → Option (DnsShared G × DnsTask G)
  | .resolve name recordType =>
    let rtype := resolver.case.toUppercase recordType
    if resolver.isAuthoritative name then
      match s.cache.get resolver.case s.now rtype name with
      | some records => some (s, .resolved name rtype s.handled (.records records 30))
      | none => some (s, .askGraph name rtype s.handled)
    else some (s, .resolved name rtype s.handled .nxDomain)
  | .askGraph name rtype known =>
    match resolver.answer s.graph name rtype with
    | none => some (s, .resolved name rtype known .notImplemented)
    | some (.ok []) => some (s, .resolved name rtype known .nxDomain)
    | some (.ok records) => some (s, .insert name rtype records s.earlier.length known)
    | some (.error _) => some (s, .resolved name rtype known .nxDomain)
  | .insert name rtype records _ known =>
    some ({ s with cache := s.cache.insert resolver.case s.now rtype name records },
      .resolved name rtype known (.records records 30))
  | .publish eventType payload after =>
    let s' := s.update after
    if eventType ∈ dnsInvalidationEvents then
      some (s', .handle ⟨eventType, payload, s'.earlier.length, s.graph, after⟩)
    else some (s', .finished)
  | .handle event => some ({ s with
      cache := handleDnsEvent resolver.case s.cache resolver.domain event.eventType event.payload
      handled := event :: s.handled }, .finished)
  | .update after => some (s.update after, .finished)
  | .evictExpired => some ({ s with cache := s.cache.evictExpired s.now }, .finished)
  | .wait time => some ({ s with now := s.now + time }, .finished)
  | .resolved .. | .finished => none

/-- One action of a run. -/
def dnsNext : Pool (DnsShared G) (DnsTask G) → Pool.Act (DnsCall G) → Option (Pool (DnsShared G) (DnsTask G)) :=
  Pool.next DnsCall.enter resolver.dnsStep

end DnsResolver

/-! ## Fresh answers -/

namespace DnsResolver

variable (resolver : DnsResolver Store)

/-- The event invalidates the name. -/
def Invalidates (event : ReflectedEvent Store) (name : String) : Prop :=
  ∃ hostname, invalidatedHost resolver.domain event.eventType event.payload = some hostname ∧
    resolver.case.toLowercase hostname = resolver.case.toLowercase name

/-- The event changes the answer for a name of the cluster. -/
def Changes (event : ReflectedEvent Store) (name rtype : String) : Prop :=
  resolver.isAuthoritative name = true ∧
    resolver.answer event.before name rtype ≠ resolver.answer event.after name rtype

/-- Records of the type that a state of the graph had for the name, in some spelling, since the events. -/
def RecordsSince (s : DnsShared Store) (name rtype : String) (records : List DnsRecord)
    (since : ReflectedEvent Store → Prop) : Prop :=
  ∃ i graph name', s.states[i]? = some graph ∧
    resolver.case.toLowercase name' = resolver.case.toLowercase name ∧
    resolver.answer graph name' rtype = some (.ok records) ∧ ∀ event, since event → event.index ≤ i

/-- A call returns records of the graph since every event that invalidates its name or changes its answer,
of those that had been handled when it started; and a handled event invalidates the names whose answers it
changes. -/
structure FreshAnswers (p : Pool (DnsShared Store) (DnsTask Store)) : Prop where
  returned : ∀ name rtype known records ttl, .resolved name rtype known (.records records ttl) ∈ p.tasks →
    resolver.RecordsSince p.shared name rtype records fun event => event ∈ known ∧
      (resolver.Invalidates event name ∨ resolver.Changes event name rtype)
  invalidated : ∀ event ∈ p.shared.handled, ∀ name rtype, PlainDnsName name →
    resolver.Changes event name rtype → resolver.Invalidates event name

/-- The graph was last read for the name, by a call that has yet to insert, since the event. -/
def InsertsSince (event : ReflectedEvent Store) : DnsTask Store → Prop
  | .insert name _ _ readAt _ => resolver.Invalidates event name → event.index ≤ readAt
  | _ => True

/-- Plain names are resolved. When an event is handled, no call is still to insert what it read for its
hostname before, and the subjects that the event changes in the graph are asked for under the names of the
zone that it invalidates only. -/
def InTime (p : Pool (DnsShared Store) (DnsTask Store)) : Pool.Act (DnsCall Store) → Prop
  | .call (.resolve name _) => PlainDnsName name
  | .call _ => True
  | .step i => ∀ event, p.tasks[i]? = some (.handle event) →
      (∀ task ∈ p.tasks, resolver.InsertsSince event task) ∧
        ChangesWithin resolver.domain event.before event.after fun name =>
          resolver.isAuthoritative name = true → resolver.Invalidates event name

/-! ## The invariant -/

/-- What a task holds comes from the graph since the events that it has to respect. -/
def TaskFresh (s : DnsShared Store) : DnsTask Store → Prop
  | .resolve name _ => PlainDnsName name
  | .askGraph name rtype known =>
    PlainDnsName name ∧ resolver.case.toUppercase rtype = rtype ∧ ∀ event ∈ known, event ∈ s.handled
  | .insert name rtype records readAt known =>
    PlainDnsName name ∧ resolver.case.toUppercase rtype = rtype ∧ (∀ event ∈ known, event ∈ s.handled) ∧
      (∃ graph, s.states[readAt]? = some graph ∧ resolver.answer graph name rtype = some (.ok records)) ∧
      ∀ event ∈ s.handled, resolver.Invalidates event name → event.index ≤ readAt
  | .resolved name rtype known (.records records _) =>
    PlainDnsName name ∧ (∀ event ∈ known, event ∈ s.handled) ∧
      resolver.RecordsSince s name rtype records fun event => event ∈ known ∧ resolver.Invalidates event name
  | .handle event => event.index < s.states.length
  | _ => True

/-- What holds in every state of a run whose actions are in time. -/
structure DnsFresh (p : Pool (DnsShared Store) (DnsTask Store)) : Prop where
  cached : ∀ e ∈ p.shared.cache.entries, ∃ i graph name, p.shared.states[i]? = some graph ∧
    resolver.case.toLowercase name = e.1.2 ∧
    resolver.answer graph name e.1.1 = some (.ok e.2.records) ∧
    ∀ event ∈ p.shared.handled, resolver.Invalidates event name → event.index ≤ i
  tasks : ∀ task ∈ p.tasks, resolver.TaskFresh p.shared task
  numbered : ∀ event ∈ p.shared.handled, event.index < p.shared.states.length
  named : ∀ event ∈ p.shared.handled, ∀ name rtype, PlainDnsName name →
    resolver.Changes event name rtype → resolver.Invalidates event name

/-- The query engine answers the queries of plain names from what is asked for. -/
def AnswersLocally : Prop :=
  ∀ query, resolver.sparqlQuery = some query → ReadsLocally resolver.domain query

variable {resolver}

/-- **An event that changes subjects only which are asked for under names that it invalidates changes the
answers of no other names.** -/
theorem invalidates_of_changes (hlocal : resolver.AnswersLocally) {event : ReflectedEvent Store}
    (hwithin : ChangesWithin resolver.domain event.before event.after fun name =>
      resolver.isAuthoritative name = true → resolver.Invalidates event name) {name rtype : String}
    (hplain : PlainDnsName name) (hchanges : resolver.Changes event name rtype) :
    resolver.Invalidates event name := by
  by_contra hnot
  obtain ⟨hname, hdiffers⟩ := hchanges
  have hread := readFor_eq_of_changesWithin hwithin hplain (fun hconcerned => hnot (hconcerned hname)) rtype
  refine hdiffers (answer_congr fun query text hquery htext => ?_)
  exact hlocal query hquery name rtype text hplain htext _ _ hread

variable {name : String} {p : Pool (DnsShared Store) (DnsTask Store)} {tasks : List (DnsTask Store)}

theorem invalidates_congr {event : ReflectedEvent Store} {name' : String}
    (h : resolver.case.toLowercase name' = resolver.case.toLowercase name) :
    resolver.Invalidates event name' ↔ resolver.Invalidates event name := by
  rw [Invalidates, Invalidates, h]

/-- A state of the graph keeps its number. -/
theorem states_update (s : DnsShared Store) (after : Store) {i : ℕ} {graph : Store}
    (h : s.states[i]? = some graph) : (s.update after).states[i]? = some graph := by
  rw [DnsShared.states, DnsShared.update]
  dsimp only
  rw [List.getElem?_append_left (List.getElem?_eq_some_iff.mp h).1, h]

/-- The graph as it is. -/
theorem states_current (s : DnsShared Store) : s.states[s.earlier.length]? = some s.graph := by
  rw [DnsShared.states, List.getElem?_concat_length]

theorem length_states (s : DnsShared Store) : s.states.length = s.earlier.length + 1 := by
  rw [DnsShared.states, List.length_append, List.length_singleton]

theorem length_states_update (s : DnsShared Store) (after : Store) :
    (s.update after).states.length = s.states.length + 1 := length_states (s.update after)

/-- What a task holds stays fresh when states are added and events are handled that do not concern it. -/
theorem taskFresh_mono {s s' : DnsShared Store} {task : DnsTask Store} (h : resolver.TaskFresh s task)
    (hstates : ∀ (i : ℕ) (graph : Store), s.states[i]? = some graph → s'.states[i]? = some graph)
    (hhandled : ∀ event ∈ s.handled, event ∈ s'.handled)
    (hnew : ∀ event ∈ s'.handled, event ∉ s.handled → resolver.InsertsSince event task) :
    resolver.TaskFresh s' task := by
  match task with
  | .resolve name _ => exact h
  | .askGraph _ rtype known => exact ⟨h.1, h.2.1, fun event he => hhandled event (h.2.2 event he)⟩
  | .insert name rtype records readAt known =>
    obtain ⟨hplain, hupper, hknown, ⟨graph, hgraph, hanswer⟩, hsince⟩ := h
    refine ⟨hplain, hupper, fun event he => hhandled event (hknown event he),
      ⟨graph, hstates _ _ hgraph, hanswer⟩, fun event he hinvalidates => ?_⟩
    by_cases hold : event ∈ s.handled
    · exact hsince event hold hinvalidates
    · exact hnew event he hold hinvalidates
  | .resolved name rtype known (.records records ttl) =>
    obtain ⟨hplain, hknown, i, graph, name', hgraph, hname, hanswer, hsince⟩ := h
    exact ⟨hplain, fun event he => hhandled event (hknown event he), i, graph, name', hstates _ _ hgraph,
      hname, hanswer, hsince⟩
  | .handle event =>
    have hlt : event.index < s.states.length := h
    have hlast := hstates event.index _ (List.getElem?_eq_getElem hlt)
    exact (List.getElem?_eq_some_iff.mp hlast).1
  | .resolved _ _ _ .nxDomain | .resolved _ _ _ .notImplemented | .publish .. | .update _ | .evictExpired
  | .wait _ | .finished => trivial

/-- What is in the cache stays fresh when states are added. -/
theorem DnsFresh.of_update (h : resolver.DnsFresh p) (after : Store)
    (htasks : ∀ task ∈ tasks, task ∈ p.tasks ∨ resolver.TaskFresh (p.shared.update after) task) :
    resolver.DnsFresh ⟨p.shared.update after, tasks⟩ := by
  refine ⟨fun e he => ?_, fun task htask => ?_, fun event he => ?_, h.named⟩
  · obtain ⟨i, graph, name, hgraph, hrest⟩ := h.cached e he
    exact ⟨i, graph, name, states_update _ _ hgraph, hrest⟩
  · refine (htasks task htask).elim (fun hold => ?_) id
    exact taskFresh_mono (h.tasks task hold) (fun _ _ => states_update _ _) (fun _ => id)
      fun event he hnot => absurd he hnot
  · have hlt := h.numbered event he
    have hlength := length_states_update p.shared after
    exact Nat.lt_of_lt_of_le hlt (by dsimp only; omega)

/-- The cache has no entries but fresh ones, or the clock goes on. -/
theorem DnsFresh.of_cache (h : resolver.DnsFresh p) (cache : DnsCache) (now : ℕ)
    (htasks : ∀ task ∈ tasks, task ∈ p.tasks ∨ resolver.TaskFresh p.shared task)
    (hcache : ∀ e ∈ cache.entries, e ∈ p.shared.cache.entries ∨
      ∃ i graph name, p.shared.states[i]? = some graph ∧ resolver.case.toLowercase name = e.1.2 ∧
        resolver.answer graph name e.1.1 = some (.ok e.2.records) ∧
        ∀ event ∈ p.shared.handled, resolver.Invalidates event name → event.index ≤ i) :
    resolver.DnsFresh ⟨{ p.shared with cache := cache, now := now }, tasks⟩ := by
  refine ⟨fun e he => (hcache e he).elim (h.cached e) id, fun task htask => ?_, h.numbered, h.named⟩
  have hfresh := (htasks task htask).elim (h.tasks task) id
  exact taskFresh_mono hfresh (fun _ _ => id) (fun _ => id) fun event he hnot => absurd he hnot

/-- An event is handled in time. -/
theorem DnsFresh.handled (h : resolver.DnsFresh p) {event : ReflectedEvent Store}
    (hevent : event.index < p.shared.states.length)
    (hinserts : ∀ task ∈ p.tasks, resolver.InsertsSince event task)
    (hnamed : ∀ name rtype, PlainDnsName name → resolver.Changes event name rtype →
      resolver.Invalidates event name)
    (htasks : ∀ task ∈ tasks, task ∈ p.tasks ∨ task = .finished) :
    resolver.DnsFresh ⟨{ p.shared with
      cache := handleDnsEvent resolver.case p.shared.cache resolver.domain event.eventType event.payload
      handled := event :: p.shared.handled }, tasks⟩ := by
  refine ⟨fun e he => ?_, fun task htask => ?_, ?_, ?_⟩
  · rw [handleDnsEvent] at he
    have hmem : e ∈ p.shared.cache.entries := by
      split at he
      · exact (List.mem_filter.mp he).1
      · exact he
    obtain ⟨i, graph, name, hgraph, hname, hanswer, hsince⟩ := h.cached e hmem
    refine ⟨i, graph, name, hgraph, hname, hanswer, List.forall_mem_cons.mpr ⟨?_, hsince⟩⟩
    -- What the event invalidates is no longer there.
    rintro ⟨hostname, hhost, hlower⟩
    rw [hhost] at he
    have hkept := of_decide_eq_true (List.mem_filter.mp he).2
    exact absurd (hname.symm.trans hlower.symm) hkept
  · rcases htasks task htask with hold | rfl
    · refine taskFresh_mono (h.tasks task hold) (fun _ _ => id) (fun e he => List.mem_cons_of_mem _ he) ?_
      intro e he hnot
      rw [(List.mem_cons.mp he).resolve_right hnot]
      exact hinserts task hold
    · trivial
  · exact List.forall_mem_cons.mpr ⟨hevent, h.numbered⟩
  · exact List.forall_mem_cons.mpr ⟨hnamed, h.named⟩

/-- A new task that is fresh. -/
theorem DnsFresh.of_task (h : resolver.DnsFresh p)
    (htasks : ∀ task ∈ tasks, task ∈ p.tasks ∨ resolver.TaskFresh p.shared task) :
    resolver.DnsFresh ⟨p.shared, tasks⟩ :=
  h.of_cache p.shared.cache p.shared.now htasks fun _ he => Or.inl he

/-- A section of a task, in time. -/
theorem DnsFresh.section (h : resolver.DnsFresh p) {task : DnsTask Store} (htask : task ∈ p.tasks)
    {s : DnsShared Store} {task' : DnsTask Store} (hstep : resolver.dnsStep p.shared task = some (s, task'))
    (htime : ∀ event, task = .handle event → (∀ task ∈ p.tasks, resolver.InsertsSince event task) ∧
      ∀ name rtype, PlainDnsName name → resolver.Changes event name rtype → resolver.Invalidates event name)
    (htasks : ∀ t ∈ tasks, t = task' ∨ t ∈ p.tasks) :
    resolver.DnsFresh ⟨s, tasks⟩ := by
  have hfresh := h.tasks task htask
  have hor : ∀ {Q : DnsTask Store → Prop}, Q task' → ∀ t ∈ tasks, t ∈ p.tasks ∨ Q t :=
    fun hQ t ht => (htasks t ht).symm.imp_right fun heq => by rwa [heq]
  match task with
  | .resolve name recordType =>
    rw [dnsStep] at hstep
    split at hstep
    · split at hstep
      · next records hget =>
        cases hstep
        refine h.of_task (hor ⟨hfresh, fun _ => id, ?_⟩)
        rw [DnsCache.get] at hget
        split at hget
        · next entry hentry =>
          split at hget
          · cases hget
          · cases hget
            obtain ⟨i, graph, name', hgraph, hname, hanswer, hsince⟩ := h.cached _ (Assoc.mem_of_get hentry)
            refine ⟨i, graph, name', hgraph, hname, ?_, fun event he => ?_⟩
            · rw [← hanswer, DnsCache.key, resolver.case.upper_upper]
            · exact hsince event he.1 ((invalidates_congr hname).mpr he.2)
        · cases hget
      · cases hstep
        exact h.of_task (hor ⟨hfresh, resolver.case.upper_upper _, fun _ => id⟩)
    · cases hstep
      exact h.of_task (hor trivial)
  | .askGraph name rtype known =>
    rw [dnsStep] at hstep
    split at hstep
    · cases hstep
      exact h.of_task (hor trivial)
    · cases hstep
      exact h.of_task (hor trivial)
    · next records _ hanswer =>
      cases hstep
      refine h.of_task (hor ⟨hfresh.1, hfresh.2.1, hfresh.2.2,
        ⟨p.shared.graph, states_current _, hanswer⟩, ?_⟩)
      intro event he _
      have hlt := h.numbered event he
      rw [length_states] at hlt
      omega
    · cases hstep
      exact h.of_task (hor trivial)
  | .insert name rtype records readAt known =>
    cases hstep
    obtain ⟨hplain, hupper, hknown, ⟨graph, hgraph, hanswer⟩, hsince⟩ := hfresh
    refine h.of_cache _ _ (hor ⟨hplain, hknown, readAt, graph, name, hgraph, rfl, hanswer,
      fun event he => hsince event (hknown event he.1) he.2⟩) fun e he => ?_
    rcases Assoc.mem_set.mp he with rfl | ⟨he, -⟩
    · refine Or.inr ⟨readAt, graph, name, hgraph, rfl, ?_, hsince⟩
      dsimp only [DnsCache.key]
      rw [hupper, hanswer]
    · exact Or.inl he
  | .publish eventType payload after =>
    rw [dnsStep] at hstep
    split at hstep
    · cases hstep
      refine h.of_update after (hor ?_)
      have hlength := length_states (p.shared.update after)
      exact Nat.lt_of_lt_of_eq (Nat.lt_succ_self _) hlength.symm
    · cases hstep
      exact h.of_update after (hor trivial)
  | .handle event =>
    cases hstep
    obtain ⟨hinserts, hnamed⟩ := htime event rfl
    exact h.handled hfresh hinserts hnamed (hor rfl)
  | .update after =>
    cases hstep
    exact h.of_update after (hor trivial)
  | .evictExpired =>
    cases hstep
    exact h.of_cache _ _ (hor trivial) fun e he => Or.inl (List.mem_filter.mp he).1
  | .wait time =>
    cases hstep
    exact h.of_cache _ _ (hor trivial) fun e he => Or.inl he
  | .resolved .. | .finished => cases hstep

theorem DnsFresh.next {p' : Pool (DnsShared Store) (DnsTask Store)} {a : Pool.Act (DnsCall Store)}
    (hlocal : resolver.AnswersLocally) (h : resolver.DnsFresh p) (htime : resolver.InTime p a)
    (hnext : resolver.dnsNext p a = some p') : resolver.DnsFresh p' := by
  rcases Pool.next_cases hnext with ⟨call, rfl, rfl⟩ | ⟨i, task, s, task', rfl, hi, hstep, rfl⟩
  · refine h.of_task fun task htask => (List.mem_append.mp htask).imp_right fun hnew => ?_
    rw [List.mem_singleton.mp hnew]
    cases call with
    | resolve name recordType => exact htime
    | publish | update | evictExpired | wait => trivial
  · refine h.section (List.mem_of_getElem? hi) hstep (fun event heq => ?_) ?_
    · obtain ⟨hinserts, hwithin⟩ := htime event (heq ▸ hi)
      exact ⟨hinserts, fun name rtype hplain => invalidates_of_changes hlocal hwithin hplain⟩
    · exact fun t ht => Pool.mem_set_imp ht

/-- In a fresh state the answers are fresh. -/
theorem DnsFresh.freshAnswers (h : resolver.DnsFresh p) :
    resolver.FreshAnswers p := by
  refine ⟨fun name rtype known records ttl htask => ?_, h.named⟩
  obtain ⟨hplain, hknown, i, graph, name', hgraph, hname, hanswer, hsince⟩ := h.tasks _ htask
  refine ⟨i, graph, name', hgraph, hname, hanswer, fun event he => hsince event ⟨he.1, ?_⟩⟩
  exact he.2.elim id (h.named event (hknown event he.1) name rtype hplain)

/-- A resolver that has been started: nothing is cached, and no event has been handled. -/
def DnsShared.Started (s : DnsShared Store) : Prop := s.cache.entries = [] ∧ s.earlier = [] ∧ s.handled = []

/-- **DNS answers are not older than the last invalidation.** In every run from a started resolver that
resolves plain names, whose events are handled in time and change what is asked for under the names they
invalidate only, every call returns records of a state of the graph since the events, handled before it
started, that invalidate its name or change its answer, and the events invalidate the names whose answers
they change. -/
theorem answers_fresh (resolver : DnsResolver Store) (hlocal : resolver.AnswersLocally)
    (s : DnsShared Store) (hstart : DnsShared.Started s)
    (run : List (Pool.Act (DnsCall Store))) (htime : StepsMeet resolver.dnsNext resolver.InTime ⟨s, []⟩ run)
    (p : Pool (DnsShared Store) (DnsTask Store)) (hrun : runSteps resolver.dnsNext ⟨s, []⟩ run = some p) :
    resolver.FreshAnswers p := by
  obtain ⟨hcache, hearlier, hhandled⟩ := hstart
  have hfresh : resolver.DnsFresh ⟨s, []⟩ := by
    refine ⟨fun e he => ?_, nofun, fun e he => ?_, fun e he => ?_⟩
    · exact absurd (hcache ▸ he) List.not_mem_nil
    · exact absurd (hhandled ▸ he) List.not_mem_nil
    · exact absurd (hhandled ▸ he) List.not_mem_nil
  exact (runSteps_invariant _ (fun p a p' h htime hnext => DnsFresh.next hlocal h htime hnext) run _ p hfresh
    htime hrun).freshAnswers

/-! ## An event between the question and the insertion -/

/-- The last task of a pool. -/
theorem dnsNext_concat {shared s : DnsShared Store} {tasks : List (DnsTask Store)}
    {task task' : DnsTask Store}
    (h : resolver.dnsStep shared task = some (s, task')) :
    resolver.dnsNext ⟨shared, tasks ++ [task]⟩ (.step tasks.length) = some ⟨s, tasks ++ [task']⟩ := by
  have hset : (tasks ++ [task]).set tasks.length task' = tasks ++ [task'] := by
    rw [List.set_append_right _ _ le_rfl, Nat.sub_self, List.set_cons_zero]
  simp only [dnsNext, Pool.next, List.getElem?_concat_length, h, hset]

/-- A section that handles no event is in time. -/
theorem inTime_concat {shared : DnsShared Store} {tasks : List (DnsTask Store)} {task : DnsTask Store}
    (h : ∀ event, task ≠ .handle event) :
    resolver.InTime ⟨shared, tasks ++ [task]⟩ (.step tasks.length) := by
  intro event htask
  rw [List.getElem?_concat_length, Option.some.injEq] at htask
  exact absurd htask (h event)

/-- A run in time, and then another one. -/
theorem runSteps_inTime_append {p q r : Pool (DnsShared Store) (DnsTask Store)}
    {run run' : List (Pool.Act (DnsCall Store))}
    (h : runSteps resolver.dnsNext p run = some q ∧ StepsMeet resolver.dnsNext resolver.InTime p run)
    (h' : runSteps resolver.dnsNext q run' = some r ∧ StepsMeet resolver.dnsNext resolver.InTime q run') :
    runSteps resolver.dnsNext p (run ++ run') = some r ∧
      StepsMeet resolver.dnsNext resolver.InTime p (run ++ run') := by
  refine ⟨by rw [runSteps_append, h.1, Option.bind_some, h'.1], (stepsMeet_append _).mpr ⟨h.2, ?_⟩⟩
  intro t ht
  rw [h.1] at ht
  exact Option.some.inj ht ▸ h'.2

/-- The actions of a call that goes through its sections undisturbed. -/
def undisturbed (call : DnsCall Store) (sections : ℕ) (p : Pool (DnsShared Store) (DnsTask Store)) :
    List (Pool.Act (DnsCall Store)) :=
  .call call :: List.replicate sections (.step p.tasks.length)

/-- A name that is not cached is resolved, and its records are cached. -/
theorem runSteps_resolve {recordType : String} {first : DnsRecord} {rest : List DnsRecord}
    (hname : resolver.isAuthoritative name = true) (hplain : PlainDnsName name)
    (hget : p.shared.cache.get resolver.case p.shared.now (resolver.case.toUppercase recordType) name =
      none)
    (hanswer : resolver.answer p.shared.graph name (resolver.case.toUppercase recordType) =
      some (.ok (first :: rest))) :
    runSteps resolver.dnsNext p (undisturbed (.resolve name recordType) 3 p) = some
        ⟨{ p.shared with
            cache := p.shared.cache.insert resolver.case p.shared.now
              (resolver.case.toUppercase recordType) name (first :: rest) },
          p.tasks ++ [.resolved name (resolver.case.toUppercase recordType) p.shared.handled
            (.records (first :: rest) 30)]⟩ ∧
      StepsMeet resolver.dnsNext resolver.InTime p (undisturbed (.resolve name recordType) 3 p) := by
  have hlook : resolver.dnsStep p.shared (.resolve name recordType) =
      some (p.shared, .askGraph name (resolver.case.toUppercase recordType) p.shared.handled) := by
    rw [dnsStep, if_pos hname, hget]
  have hask : resolver.dnsStep p.shared
      (.askGraph name (resolver.case.toUppercase recordType) p.shared.handled) =
      some (p.shared, .insert name (resolver.case.toUppercase recordType) (first :: rest)
        p.shared.earlier.length p.shared.handled) := by
    rw [dnsStep, hanswer]
  have hinsert : resolver.dnsStep p.shared (.insert name (resolver.case.toUppercase recordType)
      (first :: rest) p.shared.earlier.length p.shared.handled) =
      some ({ p.shared with
          cache := p.shared.cache.insert resolver.case p.shared.now
            (resolver.case.toUppercase recordType) name (first :: rest) },
        .resolved name (resolver.case.toUppercase recordType) p.shared.handled
          (.records (first :: rest) 30)) := rfl
  have hcall : resolver.dnsNext p (.call (.resolve name recordType)) =
      some ⟨p.shared, p.tasks ++ [.resolve name recordType]⟩ := rfl
  simp only [undisturbed, List.replicate, runSteps, StepsMeet, hcall, dnsNext_concat hlook,
    dnsNext_concat hask, dnsNext_concat hinsert, and_true, true_and]
  exact ⟨hplain, inTime_concat fun _ h => (by cases h), inTime_concat fun _ h => (by cases h),
    inTime_concat fun _ h => (by cases h)⟩

/-- An event is published and handled. -/
theorem runSteps_publish {eventType hostname : String} {payload : Json} (after : Store)
    (htype : eventType ∈ dnsInvalidationEvents)
    (hhost : invalidatedHost resolver.domain eventType payload = some hostname)
    (hinserts : ∀ task ∈ p.tasks, resolver.InsertsSince
      ⟨eventType, payload, p.shared.states.length, p.shared.graph, after⟩ task)
    (hwithin : ChangesWithin resolver.domain p.shared.graph after fun name =>
      resolver.isAuthoritative name = true → resolver.Invalidates
        ⟨eventType, payload, p.shared.states.length, p.shared.graph, after⟩ name) :
    runSteps resolver.dnsNext p (undisturbed (.publish eventType payload after) 2 p) = some
        ⟨⟨after, p.shared.states, p.shared.cache.invalidate resolver.case hostname, p.shared.now,
            ⟨eventType, payload, p.shared.states.length, p.shared.graph, after⟩ :: p.shared.handled⟩,
          p.tasks ++ [.finished]⟩ ∧
      StepsMeet resolver.dnsNext resolver.InTime p
        (undisturbed (.publish eventType payload after) 2 p) := by
  have hpublish : resolver.dnsStep p.shared (.publish eventType payload after) =
      some (p.shared.update after,
        .handle ⟨eventType, payload, p.shared.states.length, p.shared.graph, after⟩) := if_pos htype
  have hhandle : resolver.dnsStep (p.shared.update after)
      (.handle ⟨eventType, payload, p.shared.states.length, p.shared.graph, after⟩) =
      some (⟨after, p.shared.states, p.shared.cache.invalidate resolver.case hostname, p.shared.now,
        ⟨eventType, payload, p.shared.states.length, p.shared.graph, after⟩ :: p.shared.handled⟩,
        .finished) := by
    rw [dnsStep, handleDnsEvent, hhost]
    rfl
  have hcall : resolver.dnsNext p (.call (.publish eventType payload after)) =
      some ⟨p.shared, p.tasks ++ [.publish eventType payload after]⟩ := rfl
  simp only [undisturbed, List.replicate, runSteps, StepsMeet, hcall, dnsNext_concat hpublish,
    dnsNext_concat hhandle, and_true, true_and]
  refine ⟨trivial, inTime_concat fun _ h => (by cases h), fun event htask => ?_⟩
  rw [List.getElem?_concat_length, Option.some.injEq, DnsTask.handle.injEq] at htask
  rw [← htask]
  exact ⟨List.forall_mem_append.mpr ⟨hinserts, List.forall_mem_singleton.mpr trivial⟩, hwithin⟩

/-- A name is resolved, an event is published and handled while the call has yet to insert what it read, and
the name is resolved again. -/
def lateInsert (name recordType eventType : String) (payload : Json) (after : Store) :
    List (Pool.Act (DnsCall Store)) :=
  [.call (.resolve name recordType), .step 0, .step 0, .call (.publish eventType payload after), .step 1,
    .step 1, .step 0, .call (.resolve name recordType), .step 2]

/-- The second call returns what the graph told before the event. -/
theorem runSteps_lateInsert {recordType hostname eventType : String} {payload : Json}
    {before after : Store} {first : DnsRecord} {rest : List DnsRecord} (ttl : ℕ)
    (hname : resolver.isAuthoritative name = true) (htype : eventType ∈ dnsInvalidationEvents)
    (hhost : invalidatedHost resolver.domain eventType payload = some hostname)
    (hanswer : resolver.answer before name (resolver.case.toUppercase recordType) =
      some (.ok (first :: rest))) :
    ∃ p, runSteps resolver.dnsNext ⟨⟨before, [], ⟨[], ttl⟩, 0, []⟩, []⟩
        (lateInsert name recordType eventType payload after) = some p ∧
      p.shared.states = [before, after] ∧
      DnsTask.resolved name (resolver.case.toUppercase recordType)
        [⟨eventType, payload, 1, before, after⟩] (.records (first :: rest) 30) ∈ p.tasks := by
  rw [lateInsert]
  simp only [runSteps, dnsNext, Pool.next, DnsCall.enter, dnsStep, hname, if_true, htype, hhost, hanswer,
    List.nil_append, List.getElem?_cons_zero, DnsCache.get, Assoc.get, List.find?_nil, Option.map_none,
    List.cons_append, List.set_cons_zero, List.getElem?_cons_succ, List.set_cons_succ, DnsCache.insert,
    DnsShared.update, DnsShared.states, handleDnsEvent, DnsCache.invalidate, List.filter_nil, DnsCache.key,
    Assoc.set, Assoc.erase, resolver.case.upper_upper, List.find?_cons, CacheEntry.isExpired, decide_true,
    Option.map_some]
  simp

/-! ## An ingress that moves -/

theorem toUpper_toUpper (c : Char) : c.toUpper.toUpper = c.toUpper := by
  by_cases h : 'a'.val ≤ c.val ∧ c.val ≤ 'z'.val
  · have hup : c.toUpper.val = c.val + ('A'.val - 'a'.val) := by
      delta Char.toUpper
      rw [dif_pos h]
    have hnot : ¬ ('a'.val ≤ c.toUpper.val ∧ c.toUpper.val ≤ 'z'.val) := by
      rw [hup]
      obtain ⟨hlower, hupper⟩ := h
      simp only [UInt32.le_iff_toNat_le, UInt32.toNat_add, UInt32.toNat_sub] at hlower hupper ⊢
      simp at hlower hupper ⊢
      omega
    exact dif_neg hnot
  · have hsame : c.toUpper = c := dif_neg h
    rw [hsame, hsame]

/-- The case of ASCII letters. -/
def asciiCase : TextCase where
  toUppercase text := String.ofList (text.toList.map Char.toUpper)
  toLowercase text := String.ofList (text.toList.map Char.toLower)
  upper_upper text := by
    rw [String.toList_ofList, List.map_map]
    congr 2
    funext c
    exact toUpper_toUpper c

/-- The binding of an address. -/
def addressBinding (address : String) : Json := .object [("address", .string address)]

/-- The ingress of the photos. -/
def photosIngress : Subject := .named ⟨"https://picloud.local/ingresses/photos"⟩

/-- A graph with the ingress of the photos, at an address. -/
def ingressStore (address : String) : Store :=
  [⟨photosIngress, ⟨rdfType⟩, .named ⟨pc "Ingress"⟩, .default⟩,
    ⟨photosIngress, ⟨pc "hostname"⟩, simple "photos.picloud.local", .default⟩,
    ⟨photosIngress, ⟨pc "ingressAddress"⟩, simple address, .default⟩]

/-- The address that a quad gives. -/
def ingressBinding (q : Quad) : Option Json :=
  match q.object with
  | .literal l => if q.predicate.value = pc "ingressAddress" then some (addressBinding l.value) else none
  | _ => none

/-- The engine finds the addresses of the photos, and nothing else. -/
def photosQuery (store : Store) (text : String) : Except String (List Json) :=
  .ok (if text = bindText aRecordQuery "$hostname" "photos.picloud.local" then
    (readFor "picloud.local" store "photos.picloud.local" "A").filterMap ingressBinding else [])

/-- The resolver of a cluster with these photos. -/
def photosResolver : DnsResolver Store where
  domain := "picloud.local"
  sparqlQuery := some photosQuery
  clusterInfo := none
  case := asciiCase

/-- The resolver has been started, with an address. -/
def photosStart (address : String) : DnsShared Store := ⟨ingressStore address, [], ⟨[], 30⟩, 0, []⟩

/-- The ingress has the hostname of the photos and an address, and no other property that is asked for. -/
theorem hasText_ingressStore {address property text : String} {x : Subject}
    (h : hasText (ingressStore address) x property text = true) :
    property = "hostname" ∧ text = "photos.picloud.local" ∨
      property = "ingressAddress" ∧ text = address := by
  obtain ⟨q, hq, htext⟩ := List.any_eq_true.mp h
  obtain ⟨-, hproperty, hobject⟩ := of_decide_eq_true htext
  simp only [ingressStore, List.mem_cons, List.not_mem_nil, or_false] at hq
  rcases hq with rfl | rfl | rfl
  · cases hobject
  · simp only [pc_inj, simple, Term.literal.injEq, Literal.mk.injEq, and_true] at hproperty hobject
    exact Or.inl ⟨hproperty.symm, hobject.symm⟩
  · simp only [pc_inj, simple, Term.literal.injEq, Literal.mk.injEq, and_true] at hproperty hobject
    exact Or.inr ⟨hproperty.symm, hobject.symm⟩

/-- A reverse name is no name of the zone. -/
theorem not_isAuthoritative_reverse {name address : String} (h : parsePtrName name = some address) :
    photosResolver.isAuthoritative name = false := by
  have hreverse : name.toList.getLast? = some 'a' := by
    rw [parsePtrName, stripSuffixText] at h
    by_cases hsuffix : ".in-addr.arpa".toList <:+ name.toList
    · obtain ⟨labels, hlabels⟩ := hsuffix
      rw [← hlabels, List.getLast?_append_of_ne_nil _ (by decide)]
      decide +kernel
    · rw [if_neg hsuffix] at h
      cases h
  have hlower : (asciiCase.toLowercase name).toList.getLast? = some 'a' := by
    rw [asciiCase, String.toList_ofList, List.getLast?_map, hreverse]
    decide
  refine decide_eq_false fun hzone => ?_
  have hlast : (asciiCase.toLowercase name).toList.getLast? = some 'l' := by
    rcases hzone with heq | ⟨labels, hlabels⟩
    · rw [show asciiCase.toLowercase name = "picloud.local" from heq]
      decide +kernel
    · rw [← (show labels ++ _ = (asciiCase.toLowercase name).toList from hlabels),
        List.getLast?_append_of_ne_nil _ (by decide +kernel)]
      decide +kernel
  exact absurd (hlower.symm.trans hlast) (by decide)

/-- Under the names of the zone the ingress is asked for as the photos only. -/
theorem eq_photos_of_askedFor {address name rtype : String} {x : Subject}
    (hasked : askedFor "picloud.local" (ingressStore address) name rtype x = true)
    (hname : photosResolver.isAuthoritative name = true) : name = "photos.picloud.local" := by
  unfold askedFor at hasked
  split_ifs at hasked with ha hsrv hptr
  · rcases hasText_ingressStore hasked with ⟨-, htext⟩ | ⟨hproperty, -⟩
    · exact htext
    · exact absurd hproperty (by decide)
  · cases hparts : parseSrvName name "picloud.local" with
    | none =>
      rw [hparts] at hasked
      cases hasked
    | some parts =>
      rw [hparts] at hasked
      obtain ⟨hservice, -⟩ := Bool.and_eq_true_iff.mp hasked
      rcases hasText_ingressStore hservice with ⟨hproperty, -⟩ | ⟨hproperty, -⟩ <;>
        exact absurd hproperty (by decide)
  · cases haddress : parsePtrName name with
    | none =>
      rw [haddress] at hasked
      cases hasked
    | some address => exact absurd (not_isAuthoritative_reverse haddress ▸ hname) (by decide)

theorem answersLocally_photosResolver : photosResolver.AnswersLocally := by
  intro query hquery name rtype text hplain htext store store' hread
  cases hquery
  rw [photosQuery, photosQuery]
  by_cases hphotos : text = bindText aRecordQuery "$hostname" "photos.picloud.local"
  · -- no other name has this query
    have hsame : rtype = "A" ∧ name = "photos.picloud.local" := by
      subst hphotos
      unfold askedText at htext
      split_ifs at htext with ha hsrv htxt hptr
      · exact ⟨ha, bindText_a_injective hplain (by decide +kernel) (Option.some.inj htext)⟩
      · obtain ⟨parts, -, hparts⟩ := Option.map_eq_some_iff.mp htext
        exact absurd hparts (ne_of_selectHead (selectHead_service parts.1 parts.2.2))
      · exact absurd (Option.some.inj htext) (ne_of_selectHead (selectHead_text name))
      · obtain ⟨address, -, haddress⟩ := Option.map_eq_some_iff.mp htext
        exact absurd haddress (ne_of_selectHead (selectHead_pointer address))
    obtain ⟨rfl, rfl⟩ := hsame
    have hread' : readFor "picloud.local" store "photos.picloud.local" "A" =
      readFor "picloud.local" store' "photos.picloud.local" "A" := hread
    rw [hread']
  · rw [if_neg hphotos, if_neg hphotos]

/-- What is read for the photos. -/
theorem readFor_ingressStore (address : String) :
    (readFor "picloud.local" (ingressStore address) "photos.picloud.local" "A").filterMap ingressBinding =
      [addressBinding address] := by
  have hasked : askedFor "picloud.local" (ingressStore address) "photos.picloud.local" "A" photosIngress =
      true := by
    rw [askedFor, if_pos (Or.inl rfl)]
    exact List.any_eq_true.mpr
      ⟨_, List.mem_cons_of_mem _ List.mem_cons_self, decide_eq_true ⟨rfl, rfl, rfl⟩⟩
  have hread : readFor "picloud.local" (ingressStore address) "photos.picloud.local" "A" =
      ingressStore address := by
    refine List.filter_eq_self.mpr fun q hq => ?_
    simp only [ingressStore, List.mem_cons, List.not_mem_nil, or_false] at hq
    rcases hq with rfl | rfl | rfl <;> exact hasked
  rw [hread]
  rfl

theorem queryA_photosResolver (address : String) :
    photosResolver.queryA (ingressStore address) name =
      .ok (if bindText aRecordQuery "$hostname" name =
          bindText aRecordQuery "$hostname" "photos.picloud.local" then
        [addressBinding address].filterMap fun binding => (addressOf binding).map DnsRecord.a else []) := by
  have hquery : photosResolver.queryA (ingressStore address) name =
      (photosQuery (ingressStore address) (bindText aRecordQuery "$hostname" name)).map fun bindings =>
        bindings.filterMap fun binding => (addressOf binding).map DnsRecord.a := rfl
  rw [hquery, photosQuery, readFor_ingressStore]
  split_ifs <;> rfl

theorem answer_photos (address : String) {ip : Ipv4Addr}
    (hparse : addressOf (addressBinding address) = some ip) :
    photosResolver.answer (ingressStore address) "photos.picloud.local" "A" = some (.ok [.a ip]) := by
  rw [answer, if_pos rfl, queryA_photosResolver, if_pos rfl, List.filterMap_cons, hparse]
  rfl

/-- Whatever name is asked for, no other address is told. -/
theorem answer_subset {address : String} {ip : Ipv4Addr}
    (hparse : addressOf (addressBinding address) = some ip) {records : List DnsRecord}
    (h : photosResolver.answer (ingressStore address) name "A" = some (.ok records)) :
    ∀ record ∈ records, record = .a ip := by
  rw [answer, if_pos rfl, Option.some.injEq, queryA_photosResolver, List.filterMap_cons, hparse] at h
  split_ifs at h <;> cases h <;> simp

theorem started_photosStart (address : String) : DnsShared.Started (photosStart address) := ⟨rfl, rfl, rfl⟩

/-- The payload of an update of the ingress. -/
def photosPayload : Json := .object [("hostname", .string "photos.picloud.local")]

/-- The two addresses, and what is read from the name, from the type and from the payload. -/
theorem reads_photos : (addressOf (addressBinding "192.168.1.10") = some ⟨[192, 168, 1, 10]⟩ ∧
      addressOf (addressBinding "192.168.1.11") = some ⟨[192, 168, 1, 11]⟩) ∧
    (photosResolver.isAuthoritative "photos.picloud.local" = true ∧ PlainDnsName "photos.picloud.local") ∧
    photosResolver.case.toUppercase "A" = "A" ∧
    invalidatedHost photosResolver.domain "IngressUpdated" photosPayload = some "photos.picloud.local" := by
  decide +kernel

/-- The event that moves the ingress. -/
def photosMoved : ReflectedEvent Store :=
  ⟨"IngressUpdated", photosPayload, 1, ingressStore "192.168.1.10", ingressStore "192.168.1.11"⟩

theorem changesWithin_photosMoved : ChangesWithin photosResolver.domain photosMoved.before photosMoved.after
    fun name => photosResolver.isAuthoritative name = true →
      photosResolver.Invalidates photosMoved name := by
  refine ⟨fun _ => true, by simp, fun x _ name rtype _ hasked hzone => ?_⟩
  have heq : name = "photos.picloud.local" :=
    hasked.elim (eq_photos_of_askedFor · hzone) (eq_photos_of_askedFor · hzone)
  exact ⟨_, reads_photos.2.2.2, by rw [heq]⟩

/-- The photos are resolved, the ingress moves, and the photos are resolved again. -/
def photosRun : List (Pool.Act (DnsCall Store)) :=
  [.call (.resolve "photos.picloud.local" "A"), .step 0, .step 0, .step 0,
    .call (.publish "IngressUpdated" photosPayload (ingressStore "192.168.1.11")), .step 1, .step 1,
    .call (.resolve "photos.picloud.local" "A"), .step 2, .step 2, .step 2]

/-- The second call returns the address after the event. -/
theorem answers_fresh_photos :
    ∃ p, runSteps photosResolver.dnsNext ⟨photosStart "192.168.1.10", []⟩ photosRun = some p ∧
      .resolved "photos.picloud.local" "A" [photosMoved]
        (.records [.a ⟨[192, 168, 1, 11]⟩] 30) ∈ p.tasks ∧
      DnsShared.Started (photosStart "192.168.1.10") ∧ photosResolver.FreshAnswers p := by
  obtain ⟨⟨hold, hnew⟩, ⟨hname, hplain⟩, htype, hhost⟩ := reads_photos
  have hanswer := answer_photos "192.168.1.10" hold
  have hanswer' := answer_photos "192.168.1.11" hnew
  have hresolve := runSteps_resolve (p := ⟨photosStart "192.168.1.10", []⟩) hname hplain rfl
    (htype.symm ▸ hanswer)
  have hmoved := runSteps_inTime_append hresolve (runSteps_publish (ingressStore "192.168.1.11")
    (by decide) hhost (List.forall_mem_singleton.mpr trivial) changesWithin_photosMoved)
  -- the event has taken the first answer out of the cache
  obtain ⟨hrun, htime⟩ := runSteps_inTime_append hmoved (runSteps_resolve hname hplain rfl
    (htype.symm ▸ hanswer'))
  refine ⟨_, hrun, List.mem_append_right _ (List.mem_singleton.mpr ?_), started_photosStart _,
    answers_fresh photosResolver answersLocally_photosResolver _ (started_photosStart _) photosRun htime _
      hrun⟩
  rw [htype]
  rfl

/-- The ingress moves between the question and the insertion, and a call that starts after the invalidation
returns the old address. -/
theorem not_answers_fresh :
    DnsShared.Started (photosStart "192.168.1.10") ∧
      ∃ p, runSteps photosResolver.dnsNext ⟨photosStart "192.168.1.10", []⟩
          (lateInsert "photos.picloud.local" "A" "IngressUpdated" photosPayload
            (ingressStore "192.168.1.11")) = some p ∧
        ¬ photosResolver.FreshAnswers p := by
  obtain ⟨⟨hold, hnew⟩, ⟨hname, -⟩, htype, hhost⟩ := reads_photos
  have hanswer := answer_photos "192.168.1.10" hold
  obtain ⟨p, hrun, hstates, htask⟩ := runSteps_lateInsert 30 hname (by decide) hhost
    (htype.symm ▸ hanswer)
  refine ⟨started_photosStart _, p, hrun, fun hfresh => ?_⟩
  obtain ⟨i, graph, name', hgraph, -, hrecords, hsince⟩ := hfresh.returned _ _ _ _ _ htask
  have hi : 1 ≤ i := hsince _ ⟨List.mem_singleton_self _, Or.inl ⟨_, hhost, rfl⟩⟩
  rw [hstates] at hgraph
  have hgraph' : graph = ingressStore "192.168.1.11" := by
    match i, hi with
    | 1, _ => exact (Option.some.inj hgraph).symm
    | i + 2, _ => cases hgraph
  rw [hgraph', htype] at hrecords
  have hsame := answer_subset hnew hrecords _ (List.mem_singleton_self _)
  cases hsame

end DnsResolver

end Picloud
