import Picloud.Events.Router
import Picloud.Lib.Steps
import Mathlib.Algebra.Group.Action.Defs
import Mathlib.Algebra.Order.BigOperators.Group.List
import Mathlib.Data.List.Range

/-!
# Events that are routed once

Every event that is appended is passed to `route_event` until this returns `Ok`, and so are the events
that the router itself appends. What a call has appended before it fails it appends again when it is
called again; while a call fails at its first append or not at all, each event is routed once
(`routed_once`). A subscription to routed events feeds the router; while these subscriptions go down a
rank of the products, one event leads to finitely many.
-/

namespace Picloud

open Lib EventRouter

/-! ## The log and the calls -/

/-- An event of the log, and from which position it was routed for which subscription. -/
structure LogEntry where
  event : EventEnvelope
  cause : Option (ℕ × RegisteredSubscription)
deriving DecidableEq

/-- The subscriptions, the log, the positions that are to be routed, and for which subscriptions the
others have been. -/
structure RouterState where
  subs : List RegisteredSubscription
  log : List LogEntry
  pending : List ℕ
  settled : List (ℕ × List RegisteredSubscription)

/-- The entries of the events that are routed from a position. -/
def routedEntries (n : ℕ) (appended : List (RegisteredSubscription × EventEnvelope)) :
    List LogEntry :=
  appended.map fun r => ⟨r.2, some (n, r.1)⟩

namespace RouterState

/-- Append events, which are to be routed. -/
def append (s : RouterState) (entries : List LogEntry) : RouterState :=
  { s with
    log := s.log ++ entries
    pending := s.pending ++ List.range' s.log.length entries.length }

/-- The result of a call that changes the subscriptions. -/
def withSubs (s : RouterState) (result : Except RoutingError (List RegisteredSubscription)) :
    RouterState :=
  match result with
  | .ok subs => { s with subs := subs }
  | .error _ => s

/-- One call of `route_event`. -/
def route (iris : IriBuilder) (s : RouterState) (n : ℕ) (slots : ℕ → EventRouter.AppendSlot)
    (event : EventEnvelope) : RouterState :=
  let s' := s.append (routedEntries n (routeEvent iris event slots s.subs).1)
  match (routeEvent iris event slots s.subs).2 with
  | .ok _ => { s' with
      pending := s'.pending.erase n
      settled := s'.settled ++ [(n, s.subs.filter (isFor event))] }
  | .error _ => s'

end RouterState

/-- What happens. -/
inductive RouterAct where
  | register (subscription : EventSubscription)
  | unregister (iri : ResourceIri)
  | publish (event : EventEnvelope)
  | route (n : ℕ) (slots : ℕ → EventRouter.AppendSlot)

/-- One action; a position is routed while it is to be. -/
def routerNext (iris : IriBuilder) (s : RouterState) : RouterAct → Option RouterState
  | .register subscription => some (s.withSubs (registerSubscription s.subs subscription))
  | .unregister iri => some (s.withSubs (unregisterSubscription s.subs iri))
  | .publish event => some (s.append [⟨event, none⟩])
  | .route n slots =>
    if n ∈ s.pending then s.log[n]?.map fun entry => s.route iris n slots entry.event else none

/-- No subscriptions and no events. -/
def RouterState.new : RouterState := ⟨[], [], [], []⟩

/-- The subscriptions that an event of the log has been routed for. -/
def causedBy (log : List LogEntry) (n : ℕ) : List RegisteredSubscription :=
  log.filterMap fun entry => entry.cause.bind fun c => if c.1 = n then some c.2 else none

/-! ## What is claimed, and the conditions -/

/-- Each event whose call has returned `Ok` has been routed once for each subscription that was for it
then, and for no other. -/
def RoutedOnce (s : RouterState) : Prop :=
  ∀ n subs, (n, subs) ∈ s.settled → ∃ entry, s.log[n]? = some entry ∧ causedBy s.log n = subs ∧
    ∀ routed ∈ s.log, ∀ sub, routed.cause = some (n, sub) → RoutedTo entry.event sub routed.event

/-- The action is a call of `route_event`. -/
def RouterAct.IsRoute : RouterAct → Prop
  | .route _ _ => True
  | _ => False

/-- The state after the first event of a log. -/
def RouterState.single (subs : List RegisteredSubscription) (event : EventEnvelope) : RouterState :=
  ⟨subs, [⟨event, none⟩], [0], []⟩

/-- A call fails at its first append or not at all. -/
def FailsFirst (s : RouterState) : RouterAct → Prop
  | .route n slots => ∀ entry ∈ s.log[n]?, ∀ i < (s.subs.filter (isFor entry.event)).length,
      (slots i).refused ≠ none → (slots 0).refused ≠ none
  | _ => True

/-- One event leads to a bounded number of events. -/
def FinitelyRouted (iris : IriBuilder) (subs : List RegisteredSubscription) (event : EventEnvelope) :
    Prop :=
  ∃ bound, ∀ acts, (∀ a ∈ acts, a.IsRoute) →
    StepsMeet (routerNext iris) FailsFirst (.single subs event) acts →
    ∀ s, runSteps (routerNext iris) (.single subs event) acts = some s → s.log.length ≤ bound

/-- The subscriptions to routed events go down a rank of the products. -/
def Ranked (rank : String → ℕ) (subs : List RegisteredSubscription) : Prop :=
  ∀ sub ∈ subs, sub.eventType = routedType → rank sub.subscriberProduct < rank sub.sourceProduct

/-! ## Each event once -/

/-- What is kept: nothing has been routed from a position that is to be routed, and what has been routed
from the others is what was for them. -/
structure Routed (s : RouterState) : Prop where
  nodup : s.pending.Nodup
  pending : ∀ n ∈ s.pending, n < s.log.length ∧ causedBy s.log n = []
  causes : ∀ routed ∈ s.log, ∀ n sub, routed.cause = some (n, sub) →
    ∃ entry, s.log[n]? = some entry ∧ RoutedTo entry.event sub routed.event
  settled : ∀ n subs, (n, subs) ∈ s.settled → n < s.log.length ∧ n ∉ s.pending ∧
    causedBy s.log n = subs

section Once

variable {iris : IriBuilder} {s s' : RouterState}

theorem causedBy_append (log entries : List LogEntry) (n : ℕ) :
    causedBy (log ++ entries) n = causedBy log n ++ causedBy entries n := List.filterMap_append ..

theorem causedBy_of_lt {log : List LogEntry} {n : ℕ}
    (h : ∀ routed ∈ log, ∀ m sub, routed.cause = some (m, sub) → m ≠ n) : causedBy log n = [] := by
  rw [causedBy, List.filterMap_eq_nil_iff]
  intro routed hrouted
  cases hcause : routed.cause with
  | none => rfl
  | some c => simp [h routed hrouted c.1 c.2 hcause]

theorem Routed.lt_of_cause (h : Routed s) {routed : LogEntry} (hrouted : routed ∈ s.log) {n : ℕ}
    {sub : RegisteredSubscription} (hcause : routed.cause = some (n, sub)) : n < s.log.length := by
  obtain ⟨entry, hget, -⟩ := h.causes routed hrouted n sub hcause
  exact (List.getElem?_eq_some_iff.mp hget).1

/-- Positions of the log, and what new entries are caused by. -/
theorem Routed.append (h : Routed s) {entries : List LogEntry}
    (hcauses : ∀ routed ∈ entries, ∀ n sub, routed.cause = some (n, sub) →
      ∃ entry, s.log[n]? = some entry ∧ RoutedTo entry.event sub routed.event)
    (hpending : ∀ n ∈ s.pending, causedBy entries n = [])
    (hsettled : ∀ n subs, (n, subs) ∈ s.settled → causedBy entries n = []) :
    Routed (s.append entries) where
  nodup := by
    refine List.nodup_append.mpr ⟨h.nodup, List.nodup_range', fun a ha b hb hab => ?_⟩
    have hlt := (h.pending a ha).1
    rw [List.mem_range'_1] at hb
    omega
  pending n hn := by
    have hlength : (s.append entries).log.length = s.log.length + entries.length :=
      List.length_append
    rw [hlength]
    change _ ∧ causedBy (s.log ++ entries) n = []
    rw [causedBy_append]
    rcases List.mem_append.mp hn with hold | hnew
    · obtain ⟨hlt, hnone⟩ := h.pending n hold
      exact ⟨by omega, by rw [hnone, hpending n hold, List.append_nil]⟩
    · rw [List.mem_range'_1] at hnew
      refine ⟨by omega, ?_⟩
      have hold : causedBy s.log n = [] := causedBy_of_lt fun routed hrouted m sub hcause => by
        have := h.lt_of_cause hrouted hcause
        omega
      have hentries : causedBy entries n = [] := causedBy_of_lt fun routed hrouted m sub hcause => by
        obtain ⟨entry, hget, -⟩ := hcauses routed hrouted m sub hcause
        have := (List.getElem?_eq_some_iff.mp hget).1
        omega
      rw [hold, hentries, List.append_nil]
  causes routed hrouted n sub hcause := by
    have hold : ∃ entry, s.log[n]? = some entry ∧ RoutedTo entry.event sub routed.event := by
      rcases List.mem_append.mp hrouted with hin | hin
      · exact h.causes routed hin n sub hcause
      · exact hcauses routed hin n sub hcause
    obtain ⟨entry, hget, hto⟩ := hold
    exact ⟨entry, (List.getElem?_append_left (List.getElem?_eq_some_iff.mp hget).1).trans hget, hto⟩
  settled n subs hmem := by
    obtain ⟨hlt, hnotMem, hcaused⟩ := h.settled n subs hmem
    refine ⟨?_, fun hn => ?_, ?_⟩
    · change n < (s.log ++ entries).length
      rw [List.length_append]
      omega
    · rcases List.mem_append.mp hn with hold | hnew
      · exact hnotMem hold
      · rw [List.mem_range'_1] at hnew
        omega
    · change causedBy (s.log ++ entries) n = subs
      rw [causedBy_append, hcaused, hsettled n subs hmem, List.append_nil]

theorem Routed.withSubs (h : Routed s)
    (result : Except RoutingError (List RegisteredSubscription)) : Routed (s.withSubs result) := by
  cases result with
  | error e => exact h
  | ok subs => exact ⟨h.nodup, h.pending, h.causes, h.settled⟩

/-- What is caused by the events of one call. -/
theorem causedBy_routed (n m : ℕ) (appended : List (RegisteredSubscription × EventEnvelope)) :
    causedBy (routedEntries n appended) m =
      if n = m then appended.map Prod.fst else [] := by
  rw [causedBy, routedEntries, List.filterMap_map]
  split_ifs with heq
  · subst heq
    induction appended with
    | nil => rfl
    | cons r rest ih => simp
  · rw [List.filterMap_eq_nil_iff]
    exact fun r _ => by simp [heq]

variable (iris) in
/-- A call that fails at its first append changes nothing; one that returns `Ok` has appended an event for
each subscription. -/
theorem route_cases {n : ℕ} {slots : ℕ → EventRouter.AppendSlot} {entry : LogEntry} (hget : s.log[n]? = some entry)
    (hfails : FailsFirst s (.route n slots)) :
    s.route iris n slots entry.event = s ∨
      ∃ appended : List (RegisteredSubscription × EventEnvelope),
        appended.map Prod.fst = s.subs.filter (isFor entry.event) ∧
        (∀ r ∈ appended, RoutedTo entry.event r.1 r.2) ∧
        s.route iris n slots entry.event =
          { s.append (routedEntries n appended) with
            pending := (s.append (routedEntries n appended)).pending.erase n
            settled := s.settled ++ [(n, s.subs.filter (isFor entry.event))] } := by
  obtain ⟨hto, ⟨⟨infos, hok⟩, hall⟩ | ⟨⟨e, herr⟩, hlt, hrefused, hserved⟩⟩ :=
    routeEvent_cases iris entry.event slots s.subs
  · refine Or.inr ⟨(routeEvent iris entry.event slots s.subs).1, hall, hto, ?_⟩
    rw [RouterState.route, hok]
    rfl
  · -- the append that failed is the first one
    have hzero : (routeEvent iris entry.event slots s.subs).1 = [] := by
      rw [← List.length_eq_zero_iff]
      by_contra hpos
      exact hfails entry hget _ hlt hrefused (hserved 0 (Nat.pos_of_ne_zero hpos))
    refine Or.inl ?_
    rw [RouterState.route, herr, hzero]
    simp [RouterState.append, routedEntries]

theorem routed_next {a : RouterAct} (h : Routed s) (hfails : FailsFirst s a)
    (hnext : routerNext iris s a = some s') : Routed s' := by
  cases a with
  | register subscription =>
    cases hnext
    exact h.withSubs _
  | unregister iri =>
    cases hnext
    exact h.withSubs _
  | publish event =>
    cases hnext
    refine h.append (fun routed hrouted n sub hcause => ?_) (fun n _ => rfl) fun n subs _ => rfl
    rw [List.mem_singleton.mp hrouted] at hcause
    cases hcause
  | route n slots =>
    rw [routerNext] at hnext
    split_ifs at hnext with hn
    obtain ⟨entry, hget, rfl⟩ := Option.map_eq_some_iff.mp hnext
    rcases route_cases iris hget hfails with hsame | ⟨appended, hall, hto, heq⟩
    · rw [hsame]
      exact h
    · rw [heq]
      have hold := h.pending n hn
      have hcaused := fun m => causedBy_routed n m appended
      -- the position itself is no longer to be routed
      have hlater : Routed { s with pending := s.pending.erase n } := by
        refine ⟨h.nodup.erase n, fun m hm => h.pending m (List.mem_of_mem_erase hm), h.causes,
          fun m subs hmem => ?_⟩
        obtain ⟨hlt, hnotMem, hcausedm⟩ := h.settled m subs hmem
        exact ⟨hlt, fun hm => hnotMem (List.mem_of_mem_erase hm), hcausedm⟩
      have happend : Routed ({ s with pending := s.pending.erase n }.append
          (routedEntries n appended)) := hlater.append ?_ ?_ ?_
      · have herase : (s.append (routedEntries n appended)).pending.erase n =
            ({ s with pending := s.pending.erase n }.append
              (routedEntries n appended)).pending := List.erase_append_left _ hn
        refine ⟨herase ▸ happend.nodup, fun m hm => happend.pending m (herase ▸ hm), happend.causes,
          fun m subs hmem => ?_⟩
        rcases List.mem_append.mp hmem with hbefore | hnew
        · obtain ⟨hlt, hnotMem, hcausedm⟩ := happend.settled m subs hbefore
          exact ⟨hlt, fun hm => hnotMem (herase ▸ hm), hcausedm⟩
        · cases List.mem_singleton.mp hnew
          refine ⟨?_, fun hm => ?_, ?_⟩
          · change n < (s.log ++ _).length
            rw [List.length_append]
            omega
          · rcases List.mem_append.mp (herase ▸ hm) with hm | hm
            · exact List.Nodup.not_mem_erase h.nodup hm
            · exact absurd (List.mem_range'_1.mp hm).1 (Nat.not_le.mpr hold.1)
          · change causedBy (s.log ++ _) n = _
            rw [causedBy_append, hold.2, hcaused, if_pos rfl, List.nil_append, hall]
      · rintro routed hrouted m sub hcause
        obtain ⟨r, hr, rfl⟩ := List.mem_map.mp hrouted
        cases hcause
        exact ⟨entry, hget, hto r hr⟩
      · intro m hm
        rw [hcaused, if_neg]
        rintro rfl
        exact List.Nodup.not_mem_erase h.nodup hm
      · intro m subs hmem
        rw [hcaused, if_neg]
        rintro rfl
        exact (h.settled n subs hmem).2.1 hn

theorem routed_new : Routed RouterState.new where
  nodup := List.nodup_nil
  pending _ hn := absurd hn List.not_mem_nil
  causes _ hrouted := absurd hrouted List.not_mem_nil
  settled _ _ hmem := absurd hmem List.not_mem_nil

theorem routedOnce_of_routed (h : Routed s) : RoutedOnce s := by
  intro n subs hmem
  obtain ⟨hlt, -, hcaused⟩ := h.settled n subs hmem
  refine ⟨s.log[n], List.getElem?_eq_getElem hlt, hcaused, fun routed hrouted sub hcause => ?_⟩
  obtain ⟨entry, hget, hto⟩ := h.causes routed hrouted n sub hcause
  rw [List.getElem?_eq_getElem hlt] at hget
  exact Option.some.inj hget ▸ hto

end Once

/-! ## Finitely many events -/

section Finite

variable {iris : IriBuilder} {rank : String → ℕ} {subs : List RegisteredSubscription}
  {s s' : RouterState}

/-- How many events one event can lead to along a chain of routed events, with `b` subscriptions. -/
def fanOut (b : ℕ) : ℕ → ℕ
  | 0 => 0
  | r + 1 => b * (1 + fanOut b r)

theorem fanOut_mono (b : ℕ) : Monotone (fanOut b) := by
  refine monotone_nat_of_le_succ fun r => ?_
  induction r with
  | zero => exact Nat.zero_le _
  | succ r ih => exact Nat.mul_le_mul_left b (Nat.add_le_add_left ih 1)

/-- The ranks of the subscribers are bounded. -/
def topRank (rank : String → ℕ) (subs : List RegisteredSubscription) : ℕ :=
  (subs.map fun sub => rank sub.subscriberProduct).sum

theorem rank_le_topRank {sub : RegisteredSubscription} (h : sub ∈ subs) :
    rank sub.subscriberProduct ≤ topRank rank subs :=
  List.single_le_sum (fun _ _ => Nat.zero_le _) _ (List.mem_map_of_mem h)

/-- How many events an event can lead to. -/
def eventWeight (rank : String → ℕ) (subs : List RegisteredSubscription) (event : EventEnvelope) : ℕ :=
  if event.eventType = routedType then fanOut subs.length ((event.product.map rank).getD 0)
  else fanOut subs.length (topRank rank subs + 1)

theorem eventWeight_routedTo {event routed : EventEnvelope} {sub : RegisteredSubscription}
    (h : RoutedTo event sub routed) :
    eventWeight rank subs routed = fanOut subs.length (rank sub.subscriberProduct) := by
  rw [eventWeight, if_pos h.1, h.2.1]
  rfl

/-- The events that an event is routed to lead to fewer. -/
theorem sum_eventWeight_le (hrank : Ranked rank subs) {event : EventEnvelope}
    {appended : List (RegisteredSubscription × EventEnvelope)}
    (hall : appended.map Prod.fst = subs.filter (isFor event))
    (hto : ∀ r ∈ appended, RoutedTo event r.1 r.2) :
    (appended.map fun r => 1 + eventWeight rank subs r.2).sum ≤ eventWeight rank subs event := by
  have hsub : ∀ r ∈ appended, r.1 ∈ subs ∧ isFor event r.1 = true := fun r hr =>
    List.mem_filter.mp (hall ▸ List.mem_map_of_mem hr)
  have hlength : appended.length ≤ subs.length := by
    rw [← List.length_map (f := Prod.fst), hall]
    exact List.length_filter_le _ _
  -- one rank that bounds those of all subscribers
  have hbound : ∀ bound, (∀ r ∈ appended, rank r.1.subscriberProduct ≤ bound) →
      (appended.map fun r => 1 + eventWeight rank subs r.2).sum ≤ fanOut subs.length (bound + 1) := by
    intro bound hle
    have hsum := List.sum_le_card_nsmul (appended.map fun r => 1 + eventWeight rank subs r.2)
      (1 + fanOut subs.length bound) (by
        intro w hw
        obtain ⟨r, hr, rfl⟩ := List.mem_map.mp hw
        rw [eventWeight_routedTo (hto r hr)]
        exact Nat.add_le_add_left (fanOut_mono _ (hle r hr)) 1)
    rw [List.length_map, smul_eq_mul] at hsum
    exact hsum.trans (Nat.mul_le_mul_right _ hlength)
  rw [eventWeight]
  split_ifs with htype
  · by_cases hnil : appended = []
    · rw [hnil]
      exact Nat.zero_le _
    · obtain ⟨r, hr⟩ := List.exists_mem_of_ne_nil _ hnil
      have hproduct : ∀ r ∈ appended, event.product = some r.1.sourceProduct ∧
          r.1.eventType = routedType := fun r hr => by
        have hfor := (hsub r hr).2
        rw [isFor, Bool.and_eq_true, beq_iff_eq, beq_iff_eq] at hfor
        exact ⟨hfor.1, hfor.2.trans htype⟩
      rw [(hproduct r hr).1, Option.map_some, Option.getD_some]
      have hlt := hrank r.1 (hsub r hr).1 (hproduct r hr).2
      have hone := hbound (rank r.1.sourceProduct - 1) fun r' hr' => by
        have hlt' := hrank r'.1 (hsub r' hr').1 (hproduct r' hr').2
        have hsame : r'.1.sourceProduct = r.1.sourceProduct :=
          Option.some.inj ((hproduct r' hr').1.symm.trans (hproduct r hr).1)
        rw [hsame] at hlt'
        omega
      rwa [show rank r.1.sourceProduct - 1 + 1 = rank r.1.sourceProduct by omega] at hone
  · exact hbound _ fun r hr => rank_le_topRank (hsub r hr).1

/-- The weight of the event at a position. -/
def weightAt (rank : String → ℕ) (subs : List RegisteredSubscription) (log : List LogEntry) (n : ℕ) :
    ℕ :=
  (log[n]?.map fun entry => eventWeight rank subs entry.event).getD 0

/-- The events that there are, and those that are to come at most. -/
def toCome (rank : String → ℕ) (s : RouterState) : ℕ :=
  s.log.length + (s.pending.map (weightAt rank s.subs s.log)).sum

variable (rank subs) in
theorem sum_weightAt_new (log entries : List LogEntry) :
    ((List.range' log.length entries.length).map (weightAt rank subs (log ++ entries))).sum =
      (entries.map fun entry => eventWeight rank subs entry.event).sum := by
  congr 1
  refine List.ext_getElem (by simp) fun i hi hi' => ?_
  simp only [List.getElem_map, List.getElem_range', Nat.one_mul]
  rw [List.length_map, List.length_range'] at hi
  rw [weightAt, List.getElem?_append_right (Nat.le_add_right _ _), Nat.add_sub_cancel_left,
    List.getElem?_eq_getElem hi]
  rfl

/-- A call of `route_event` lets no more events come. -/
theorem toCome_route (hrouted : Routed s) (hrank : Ranked rank s.subs) {n : ℕ} {slots : ℕ → EventRouter.AppendSlot}
    (hfails : FailsFirst s (.route n slots)) (hnext : routerNext iris s (.route n slots) = some s') :
    s'.subs = s.subs ∧ toCome rank s' ≤ toCome rank s := by
  rw [routerNext] at hnext
  split_ifs at hnext with hn
  obtain ⟨entry, hget, rfl⟩ := Option.map_eq_some_iff.mp hnext
  rcases route_cases iris hget hfails with hsame | ⟨appended, hall, hto, heq⟩
  · rw [hsame]
    exact ⟨rfl, le_rfl⟩
  · rw [heq]
    refine ⟨rfl, ?_⟩
    have hlt := (List.getElem?_eq_some_iff.mp hget).1
    have hless := sum_eventWeight_le hrank hall hto
    rw [List.sum_map_add, List.map_const', List.sum_replicate, smul_eq_mul, Nat.mul_one] at hless
    have hpending : (s.append (routedEntries n appended)).pending.erase n =
        s.pending.erase n ++ List.range' s.log.length (routedEntries n appended).length :=
      List.erase_append_left _ hn
    have hkeep : (s.pending.erase n).map (weightAt rank s.subs (s.log ++ routedEntries n appended)) =
        (s.pending.erase n).map (weightAt rank s.subs s.log) := by
      refine List.map_congr_left fun m hm => ?_
      have hm' := (hrouted.pending m (List.mem_of_mem_erase hm)).1
      rw [weightAt, weightAt, List.getElem?_append_left hm']
    have hperm := ((List.perm_cons_erase hn).map (weightAt rank s.subs s.log)).sum_eq
    rw [List.map_cons, List.sum_cons, weightAt, hget, Option.map_some, Option.getD_some] at hperm
    have hnew := sum_weightAt_new rank s.subs s.log (routedEntries n appended)
    have hentries : (routedEntries n appended).map (fun e => eventWeight rank s.subs e.event) =
        appended.map fun r => eventWeight rank s.subs r.2 := by
      rw [routedEntries, List.map_map]
      rfl
    have hcount : (routedEntries n appended).length = appended.length := List.length_map _
    change (s.log ++ routedEntries n appended).length + (((s.append (routedEntries n appended)).pending.erase
      n).map (weightAt rank s.subs (s.log ++ routedEntries n appended))).sum ≤ toCome rank s
    rw [hpending, List.map_append, List.sum_append, hkeep, hnew, hentries, List.length_append, hcount,
      toCome]
    omega

/-- What is kept while one event is routed on. -/
theorem finitelyRouted (hrank : Ranked rank subs) (event : EventEnvelope) :
    FinitelyRouted iris subs event := by
  refine ⟨toCome rank (.single subs event), fun acts hroutes hmeet s hrun => ?_⟩
  have hstart : Routed (.single subs event) := by
    refine ⟨List.nodup_singleton 0, fun n hn => ?_, fun routed hrouted n sub hcause => ?_,
      fun n subs hmem => absurd hmem List.not_mem_nil⟩
    · rw [List.mem_singleton.mp hn]
      exact ⟨Nat.one_pos, rfl⟩
    · rw [List.mem_singleton.mp hrouted] at hcause
      cases hcause
  have hmeet' := StepsMeet.and _ hmeet (stepsMeet_of_forall (routerNext iris)
    (C := fun _ a => a.IsRoute) (fun a ha _ => hroutes a ha) _)
  have hfinal := runSteps_invariant (routerNext iris)
    (I := fun s => Routed s ∧ s.subs = subs ∧ toCome rank s ≤ toCome rank (.single subs event)) ?_
    acts _ s ⟨hstart, rfl, le_rfl⟩ hmeet' hrun
  · exact (Nat.le_add_right _ _).trans hfinal.2.2
  · rintro s a s' ⟨hrouted, rfl, hle⟩ ⟨hfails, hroute⟩ hnext
    cases a with
    | route n slots =>
      obtain ⟨hsubs, hless⟩ := toCome_route hrouted hrank hfails hnext
      exact ⟨routed_next hrouted hfails hnext, hsubs, hless.trans hle⟩
    | register _ | unregister _ | publish _ => exact absurd hroute id

end Finite

/-- **While calls fail at their first append or not at all, every event is routed once; and while the
subscriptions to routed events go down a rank, one event leads to finitely many.** -/
theorem routed_once (iris : IriBuilder) :
    (∀ acts, StepsMeet (routerNext iris) FailsFirst .new acts →
      ∀ s, runSteps (routerNext iris) .new acts = some s → RoutedOnce s) ∧
    ∀ subs, (∃ rank, Ranked rank subs) → ∀ event, FinitelyRouted iris subs event := by
  refine ⟨fun acts hmeet s hrun => ?_, fun subs hrank event => ?_⟩
  · exact routedOnce_of_routed (runSteps_invariant (routerNext iris)
      (fun s a s' h hfails hnext => routed_next h hfails hnext) acts _ s routed_new hmeet hrun)
  · obtain ⟨rank, hrank⟩ := hrank
    exact finitelyRouted hrank event

/-! ## Two subscriptions, and one that feeds itself -/

/-- The domain of the examples. -/
def routerIris : IriBuilder := ⟨"picloud.local"⟩

/-- An order of the product `orders`. -/
def orderCreated : EventEnvelope :=
  EventEnvelope.new 1 0 ⟨"https://picloud.local/schemas/events/OrderCreated/v1"⟩ "OrderCreated"
    ⟨"https://picloud.local/test"⟩ (some "orders") 1 .null

/-- A subscription to the orders. -/
def ordersSubscription (product : String) : EventSubscription where
  iri := ⟨"https://picloud.local/products/" ++ product ++ "/event-subscriptions/orders"⟩
  product := some product
  sourceProductIri := ⟨"https://picloud.local/products/orders"⟩
  eventType := "OrderCreated"
  handlerName := "processor"

/-- Appends of which the log refuses those from a number on. -/
def servedFor (count : ℕ) (k : ℕ) : EventRouter.AppendSlot :=
  ⟨.ofNat 128 (k + 2), 0, if k < count then none else some "disk full"⟩

/-- Two products subscribe, and an order is created. -/
def orderForTwo : List RouterAct :=
  [.register (ordersSubscription "billing"), .register (ordersSubscription "shipping"),
    .publish orderCreated]

instance (s : RouterState) (a : RouterAct) : Decidable (FailsFirst s a) :=
  match a with
  | .route n slots => decidable_of_iff (∀ entry ∈ s.log[n]?.toList,
      ∀ i < (s.subs.filter (isFor entry.event)).length,
        (slots i).refused ≠ none → (slots 0).refused ≠ none) (by simp [FailsFirst])
  | .register _ | .unregister _ | .publish _ => isTrue trivial

/-- The product `billing` subscribes to the orders, and `audit` to what is routed to `billing`. -/
def auditedBilling : List RegisteredSubscription :=
  [⟨⟨"https://picloud.local/products/billing/event-subscriptions/orders"⟩, "orders", "OrderCreated", "billing", "h"⟩,
    ⟨⟨"https://picloud.local/products/audit/event-subscriptions/billing"⟩, "billing", routedType, "audit", "h"⟩]

theorem ranked_auditedBilling : Ranked (fun product => if product = "billing" then 1 else 0) auditedBilling := by
  intro sub hsub htype
  rcases List.mem_pair.mp hsub with rfl | rfl
  · exact absurd htype (by decide +kernel)
  · decide +kernel

/-- The first call fails at once, the second returns `Ok`; an audited order leads to finitely many events. -/
theorem routed_once_orders :
    (∃ s, runSteps (routerNext routerIris) .new
        (orderForTwo ++ [.route 0 (servedFor 0), .route 0 (servedFor 2)]) = some s ∧ RoutedOnce s) ∧
      FinitelyRouted routerIris auditedBilling orderCreated := by
  have hmeet : StepsMeet (routerNext routerIris) FailsFirst .new
      (orderForTwo ++ [.route 0 (servedFor 0), .route 0 (servedFor 2)]) := by decide +kernel
  exact ⟨⟨_, rfl, (routed_once routerIris).1 _ hmeet _ rfl⟩,
    (routed_once routerIris).2 auditedBilling ⟨_, ranked_auditedBilling⟩ _⟩

/-- A subscription of a product to the events that are routed to it. -/
def selfSubscription : RegisteredSubscription :=
  ⟨⟨"https://picloud.local/products/audit/event-subscriptions/self"⟩, "audit", routedType, "audit", "h"⟩

/-- An order that has been routed to that product. -/
def auditRouted : EventEnvelope :=
  routedEvent routerIris (servedFor 1 0) orderCreated selfSubscription

/-- A call routes the event to the same product again. -/
theorem route_selfSubscription {s : RouterState} {n : ℕ} {entry : LogEntry}
    (hsubs : s.subs = [selfSubscription]) (hpending : s.pending = [n]) (hn : n + 1 = s.log.length)
    (hget : s.log[n]? = some entry) (hfor : isFor entry.event selfSubscription = true) :
    ∃ s' entry', routerNext routerIris s (.route n (servedFor 1)) = some s' ∧
      s'.subs = [selfSubscription] ∧ s'.pending = [n + 1] ∧ n + 1 + 1 = s'.log.length ∧
      s'.log[n + 1]? = some entry' ∧ isFor entry'.event selfSubscription = true := by
  have hproduct : entry.event.product = some "audit" := by
    rw [isFor, Bool.and_eq_true, beq_iff_eq] at hfor
    exact hfor.1
  have hroute : routeEvent routerIris entry.event (servedFor 1) s.subs =
      ([(selfSubscription, routedEvent routerIris (servedFor 1 0) entry.event selfSubscription)],
        .ok [routedInfo selfSubscription]) := by
    rw [hsubs, routeEvent, hproduct]
    simp only [routeLoop, hfor, if_true]
    rfl
  refine ⟨s.route routerIris n (servedFor 1) entry.event,
    ⟨routedEvent routerIris (servedFor 1 0) entry.event selfSubscription, some (n, selfSubscription)⟩,
    ?_, ?_⟩
  · rw [routerNext, if_pos (by rw [hpending]; exact List.mem_cons_self), hget]
    rfl
  · rw [RouterState.route, hroute]
    refine ⟨hsubs, ?_, ?_, ?_, rfl⟩
    · simp [RouterState.append, routedEntries, hpending, hn]
    · simp [RouterState.append, routedEntries, hn]
    · simp [RouterState.append, routedEntries, hn]

/-- After any number of calls there is an event to be routed. -/
theorem selfFeeding {event : EventEnvelope} (hfor : isFor event selfSubscription = true) (k : ℕ) :
    ∃ acts s entry, (∀ a ∈ acts, a.IsRoute) ∧
      StepsMeet (routerNext routerIris) FailsFirst (.single [selfSubscription] event) acts ∧
      runSteps (routerNext routerIris) (.single [selfSubscription] event) acts = some s ∧
      s.subs = [selfSubscription] ∧ s.pending = [k] ∧ k + 1 = s.log.length ∧
      s.log[k]? = some entry ∧ isFor entry.event selfSubscription = true := by
  induction k with
  | zero =>
    exact ⟨[], _, ⟨event, none⟩, fun a ha => absurd ha List.not_mem_nil, trivial, rfl, rfl, rfl, rfl,
      rfl, hfor⟩
  | succ k ih =>
    obtain ⟨acts, s, entry, hroutes, hmeet, hrun, hsubs, hpending, hk, hget, hentry⟩ := ih
    obtain ⟨s', entry', hnext, hafter⟩ := route_selfSubscription hsubs hpending hk hget hentry
    refine ⟨acts ++ [.route k (servedFor 1)], s', entry', fun a ha => ?_, ?_, ?_, hafter⟩
    · rcases List.mem_append.mp ha with hold | hnew
      · exact hroutes a hold
      · rw [List.mem_singleton.mp hnew]
        trivial
    · rw [stepsMeet_append]
      refine ⟨hmeet, fun t ht => ?_⟩
      obtain rfl : s = t := Option.some.inj (hrun.symm.trans ht)
      rw [stepsMeet_singleton]
      intro e _ i hi hrefused
      have hlength : (s.subs.filter (isFor e.event)).length ≤ 1 := by
        rw [hsubs]
        exact List.length_filter_le _ _
      rwa [show i = 0 by omega] at hrefused
    · rw [runSteps_append, hrun, Option.bind_some, runSteps_singleton, hnext]

/-- **A call that fails at its second append routes the first event twice; and a subscription to the
events that are routed to its own product leads to ever more events.** -/
theorem not_routed_once :
    (∃ s, runSteps (routerNext routerIris) .new
      (orderForTwo ++ [.route 0 (servedFor 1), .route 0 (servedFor 2)]) = some s ∧ ¬ RoutedOnce s) ∧
    ¬ FinitelyRouted routerIris [selfSubscription] auditRouted := by
  constructor
  · refine ⟨_, rfl, fun h => ?_⟩
    obtain ⟨entry, -, hcaused, -⟩ := h 0 _ List.mem_cons_self
    exact absurd (congrArg List.length hcaused) (by decide +kernel)
  · rintro ⟨bound, hbound⟩
    have hfor : isFor auditRouted selfSubscription = true := by decide +kernel
    obtain ⟨acts, s, entry, hroutes, hmeet, hrun, -, -, hlength, -⟩ := selfFeeding hfor bound
    have := hbound acts hroutes hmeet s hrun
    omega

end Picloud
