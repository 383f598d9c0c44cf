import Picloud.Domain.Payload
import Picloud.Events.Log

/-!
# The event router

Reference: `PlatformEventRouter` of `picloud-events/src/router.rs`.

`route_event` appends one event for each matching subscription and stops at the first append that fails.
It is a function of the subscriptions here, with what each append draws and whether the log refuses it
passed in (`AppendSlot`).
-/

namespace Picloud

open Lib

/-! ## Subscriptions -/

/-- What follows the last occurrence of a pattern. -/
def afterLast {α : Type*} [DecidableEq α] (pat : List α) : List α → Option (List α)
  | [] => none
  | c :: s => (afterLast pat s).or
      (if pat <+: c :: s then some ((c :: s).drop pat.length) else none)

/-- `extract_product_name`. -/
def extractProductName (iri : ResourceIri) : String :=
  String.ofList (((afterLast "/products/".toList iri.value.toList).getD iri.value.toList).takeWhile
    (· ≠ '/'))

/-- `EventSubscription`, with what the router reads of its metadata. -/
structure EventSubscription where
  iri : ResourceIri
  product : Option String
  sourceProductIri : ResourceIri
  eventType : String
  handlerName : String
deriving DecidableEq

/-- `RegisteredSubscription`. -/
structure RegisteredSubscription where
  subscriptionIri : ResourceIri
  sourceProduct : String
  eventType : String
  subscriberProduct : String
  handlerName : String
deriving DecidableEq

/-- `PiCloudError`, as far as the router raises it. -/
inductive RoutingError where
  | eventRoutingFailed (subscription reason : String)
  | resourceNotFound (iri : String)
deriving DecidableEq

namespace EventRouter

/-- `register_subscription`. -/
def registerSubscription (subs : List RegisteredSubscription) (subscription : EventSubscription) :
    Except RoutingError (List RegisteredSubscription) :=
  match subscription.product with
  | none => .error (.eventRoutingFailed subscription.iri.value
      "EventSubscription must belong to a product")
  | some product =>
    if subs.any (fun s => s.subscriptionIri = subscription.iri) then .ok subs
    else .ok (subs ++ [{
      subscriptionIri := subscription.iri
      sourceProduct := extractProductName subscription.sourceProductIri
      eventType := subscription.eventType
      subscriberProduct := product
      handlerName := subscription.handlerName }])

/-- `unregister_subscription`. -/
def unregisterSubscription (subs : List RegisteredSubscription) (iri : ResourceIri) :
    Except RoutingError (List RegisteredSubscription) :=
  let kept := subs.filter fun s => s.subscriptionIri ≠ iri
  if subs.length - kept.length = 0 then .error (.resourceNotFound iri.value) else .ok kept

/-! ## Routing -/

/-- What an append draws, and the error with which the log refuses it. -/
structure AppendSlot where
  id : Uuid
  now : ℤ
  refused : Option String

/-- The type of the events that the router appends. -/
def routedType : String := "SubscriptionEventRouted"

/-- `SubscriptionEventRoutedPayload`, as JSON. -/
def routedPayload (event : EventEnvelope) (sub : RegisteredSubscription) : Json :=
  .object [("subscription_iri", .string sub.subscriptionIri.value),
    ("source_product", .string sub.sourceProduct),
    ("subscriber_product", .string sub.subscriberProduct),
    ("handler_name", .string sub.handlerName),
    ("original_event_type", .string event.eventType),
    ("original_event_id", .string event.id.display),
    ("original_payload", event.payload)]

/-- The event that is appended for a subscription. -/
def routedEvent (iris : IriBuilder) (slot : AppendSlot) (event : EventEnvelope)
    (sub : RegisteredSubscription) : EventEnvelope :=
  EventEnvelope.new slot.id slot.now ⟨iris.eventSchema routedType 1⟩ routedType event.source
    (some sub.subscriberProduct) event.correlationId (routedPayload event sub)

/-- `RoutedEventInfo`. -/
structure RoutedEventInfo where
  subscriptionIri : ResourceIri
  subscriberProduct : String
  handlerName : String
deriving DecidableEq

/-- What is returned of a subscription. -/
def routedInfo (sub : RegisteredSubscription) : RoutedEventInfo :=
  ⟨sub.subscriptionIri, sub.subscriberProduct, sub.handlerName⟩

/-- The subscription is for the product and the type of the event. -/
def isFor (event : EventEnvelope) (sub : RegisteredSubscription) : Bool :=
  event.product == some sub.sourceProduct && sub.eventType == event.eventType

/-- The loop of `route_event`: what has been appended, for which subscriptions, and the result. -/
def routeLoop (iris : IriBuilder) (event : EventEnvelope) (slots : ℕ → AppendSlot) :
    ℕ → List RegisteredSubscription →
      List (RegisteredSubscription × EventEnvelope) × Except RoutingError (List RoutedEventInfo)
  | _, [] => ([], .ok [])
  | k, sub :: subs =>
    if isFor event sub then
      match (slots k).refused with
      | some e => ([], .error (.eventRoutingFailed sub.subscriptionIri.value
          ("failed to append routed event: " ++ e)))
      | none =>
        let (appended, result) := routeLoop iris event slots (k + 1) subs
        ((sub, routedEvent iris (slots k) event sub) :: appended,
          result.map fun infos => routedInfo sub :: infos)
    else routeLoop iris event slots k subs

/-- `route_event`. Events of the platform have no product, and no subscription is for them. -/
def routeEvent (iris : IriBuilder) (event : EventEnvelope) (slots : ℕ → AppendSlot)
    (subs : List RegisteredSubscription) :
    List (RegisteredSubscription × EventEnvelope) × Except RoutingError (List RoutedEventInfo) :=
  match event.product with
  | none => ([], .ok [])
  | some _ => routeLoop iris event slots 0 subs

/-! ## What a call does -/

section Lemmas

variable {iris : IriBuilder} {event : EventEnvelope} {slots : ℕ → AppendSlot}
  {subs : List RegisteredSubscription}

/-- The event is the one that a subscription asks for. -/
def RoutedTo (event : EventEnvelope) (sub : RegisteredSubscription) (routed : EventEnvelope) : Prop :=
  routed.eventType = routedType ∧ routed.product = some sub.subscriberProduct ∧
    routed.payload = routedPayload event sub

variable (iris event slots subs) in
/-- The loop goes through the subscriptions for the event, or as far as the first append that fails. -/
theorem routeLoop_cases (k : ℕ) :
    (∀ r ∈ (routeLoop iris event slots k subs).1, RoutedTo event r.1 r.2) ∧
    ((∃ infos, (routeLoop iris event slots k subs).2 = .ok infos) ∧
        (routeLoop iris event slots k subs).1.map Prod.fst = subs.filter (isFor event) ∨
      (∃ e, (routeLoop iris event slots k subs).2 = .error e) ∧
        (routeLoop iris event slots k subs).1.length < (subs.filter (isFor event)).length ∧
        (slots (k + (routeLoop iris event slots k subs).1.length)).refused ≠ none ∧
        ∀ i < (routeLoop iris event slots k subs).1.length, (slots (k + i)).refused = none) := by
  induction subs generalizing k with
  | nil => exact ⟨fun r hr => absurd hr List.not_mem_nil, Or.inl ⟨⟨[], rfl⟩, rfl⟩⟩
  | cons sub subs ih =>
    rw [routeLoop]
    cases hfor : isFor event sub with
    | false =>
      rw [if_neg Bool.false_ne_true, List.filter_cons_of_neg (by rw [hfor]; exact Bool.false_ne_true)]
      exact ih k
    | true =>
      rw [if_pos rfl, List.filter_cons_of_pos hfor]
      cases hslot : (slots k).refused with
      | some e =>
        exact ⟨fun r hr => absurd hr List.not_mem_nil, Or.inr ⟨⟨_, rfl⟩, Nat.succ_pos _,
          by rw [List.length_nil, Nat.add_zero, hslot]; exact Option.some_ne_none e,
          fun i hi => absurd hi (Nat.not_lt_zero i)⟩⟩
      | none =>
        obtain ⟨hrouted, hresult⟩ := ih (k + 1)
        generalize routeLoop iris event slots (k + 1) subs = rest at hrouted hresult ⊢
        obtain ⟨appended, result⟩ := rest
        dsimp only at hrouted hresult ⊢
        refine ⟨List.forall_mem_cons.mpr ⟨⟨rfl, rfl, rfl⟩, hrouted⟩, ?_⟩
        rcases hresult with ⟨⟨infos, hok⟩, hall⟩ | ⟨⟨e, herr⟩, hlt, hrefused, hserved⟩
        · exact Or.inl ⟨⟨_, by rw [hok]; rfl⟩, by rw [List.map_cons, hall]⟩
        · refine Or.inr ⟨⟨e, by rw [herr]; rfl⟩, Nat.succ_lt_succ hlt, ?_, fun i hi => ?_⟩
          · rwa [List.length_cons, Nat.add_comm _ 1, ← Nat.add_assoc]
          · cases i with
            | zero => exact hslot
            | succ i =>
              have hi' := hserved i (Nat.lt_of_succ_lt_succ hi)
              rwa [Nat.add_assoc, Nat.add_comm 1 i] at hi'

variable (iris event slots subs) in
/-- The same of a call. -/
theorem routeEvent_cases :
    (∀ r ∈ (routeEvent iris event slots subs).1, RoutedTo event r.1 r.2) ∧
    ((∃ infos, (routeEvent iris event slots subs).2 = .ok infos) ∧
        (routeEvent iris event slots subs).1.map Prod.fst = subs.filter (isFor event) ∨
      (∃ e, (routeEvent iris event slots subs).2 = .error e) ∧
        (routeEvent iris event slots subs).1.length < (subs.filter (isFor event)).length ∧
        (slots (routeEvent iris event slots subs).1.length).refused ≠ none ∧
        ∀ i < (routeEvent iris event slots subs).1.length, (slots i).refused = none) := by
  rw [routeEvent]
  cases hproduct : event.product with
  | none =>
    refine ⟨fun r hr => absurd hr List.not_mem_nil, Or.inl ⟨⟨[], rfl⟩, ?_⟩⟩
    refine (List.filter_eq_nil_iff.mpr fun sub _ => ?_).symm
    simp [isFor, hproduct]
  | some p =>
    have hloop := routeLoop_cases iris event slots subs 0
    simpa only [Nat.zero_add] using hloop

end Lemmas

end EventRouter

end Picloud
