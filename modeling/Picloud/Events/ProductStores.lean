import Picloud.Events.Log

/-!
# Product event stores

Reference: `ProductEventStore` of `picloud-events/src/implementation.rs`.

The stores of all products append to one log, which drops an event whose idempotency key it has seen,
whichever product has used it. A store holds what its own appends would leave in a log of its own
exactly when none of its keys was first used by another product (`isolated_iff`).
-/

namespace Picloud

open Lib

/-- `ProductEventStore`: the product that it is scoped to; the log is shared. -/
structure ProductEventStore where
  product : String
deriving DecidableEq

namespace ProductEventStore

variable (store : ProductEventStore)

/-- An event in the scope of the store. -/
def inScope (event : EventEnvelope) : EventEnvelope := { event with product := some store.product }

/-- `append`. -/
def append (log : InMemoryEventLog) (event : EventEnvelope) : InMemoryEventLog :=
  log.append (store.inScope event)

/-- A filter in the scope of the store. -/
def scopedFilter (filter : EventFilter) : EventFilter :=
  { filter with product := some store.product }

/-- `subscribe`. -/
def subscribe (log : InMemoryEventLog) (filter : EventFilter) : Receiver :=
  log.subscribe (store.scopedFilter filter)

/-- The event is one of the store's product. -/
def owns (event : EventEnvelope) : Bool := event.product == some store.product

/-- `events_since`. -/
def eventsSince (log : InMemoryEventLog) (offset : ℕ) : List EventEnvelope :=
  (log.eventsSince offset).filter store.owns

end ProductEventStore

/-! ## Runs -/

/-- An append through a store. -/
abbrev StoreAppend := ProductEventStore × EventEnvelope

/-- Appends one after the other. -/
def runAppends (log : InMemoryEventLog) (calls : List StoreAppend) : InMemoryEventLog :=
  calls.foldl (fun log call => call.1.append log call.2) log

/-- The events that reach the log. -/
def scopedEvents (calls : List StoreAppend) : List EventEnvelope :=
  calls.map fun call => call.1.inScope call.2

section Claim

variable (store : ProductEventStore) (calls calls' : List StoreAppend)

/-- The appends made through a store. -/
def ownAppends : List EventEnvelope :=
  (calls.filter fun call => call.1 = store).map fun call => store.inScope call.2

/-- What the store should hold: its own events, each idempotency key once. -/
def ownEvents : List EventEnvelope :=
  keepFirst EventEnvelope.idempotencyKey [] (ownAppends store calls)

/-- What the store returns at the end of a run. -/
def storedEvents : List EventEnvelope :=
  store.eventsSince (runAppends InMemoryEventLog.new calls) 0

/-- What a subscriber of the store is sent in a run. -/
def deliveredEvents (filter : EventFilter) : List EventEnvelope :=
  (runAppends InMemoryEventLog.new calls).sentTo (store.subscribe InMemoryEventLog.new filter)

/-- The store shows its own events. -/
def ShowsOwnEvents : Prop :=
  storedEvents store calls = ownEvents store calls ∧
    ∀ filter, deliveredEvents store calls filter =
      (ownEvents store calls).filter fun e => matchesFilter e (store.scopedFilter filter)

/-- What is claimed of two runs: the store shows the same in both, its own events. -/
def Isolated : Prop :=
  (storedEvents store calls = storedEvents store calls' ∧
    ∀ filter, deliveredEvents store calls filter = deliveredEvents store calls' filter) ∧
  ShowsOwnEvents store calls ∧ ShowsOwnEvents store calls'

/-- No event of the store, the first of its own with its key, comes after an event of another product
with this key. -/
def KeysFree : Prop := ¬ KeyTaken EventEnvelope.idempotencyKey store.owns (scopedEvents calls)

end Claim

section Lemmas

variable {store : ProductEventStore} {calls calls' : List StoreAppend}

theorem filter_scopedEvents : (scopedEvents calls).filter store.owns = ownAppends store calls := by
  induction calls with
  | nil => rfl
  | cons call calls ih =>
    have hcons : scopedEvents (call :: calls) = call.1.inScope call.2 :: scopedEvents calls := rfl
    have hown : store.owns (call.1.inScope call.2) = decide (call.1 = store) := by
      rw [ProductEventStore.owns, ProductEventStore.inScope, Bool.eq_iff_iff]
      cases store
      cases call.1
      simp
    rw [hcons, List.filter_cons, hown, ownAppends, List.filter_cons]
    split_ifs with hcall
    · rw [ih, List.map_cons, of_decide_eq_true hcall]
      rfl
    · exact ih

theorem runAppends_eq :
    (runAppends InMemoryEventLog.new calls).events =
        keepFirst EventEnvelope.idempotencyKey [] (scopedEvents calls) ∧
      (runAppends InMemoryEventLog.new calls).sent =
        keepFirst EventEnvelope.idempotencyKey [] (scopedEvents calls) := by
  have hfold : runAppends InMemoryEventLog.new calls =
      (scopedEvents calls).foldl InMemoryEventLog.append InMemoryEventLog.new := by
    rw [scopedEvents, List.foldl_map]
    rfl
  rw [hfold]
  exact InMemoryEventLog.foldl_append InMemoryEventLog.new (scopedEvents calls)

theorem storedEvents_eq : storedEvents store calls =
    (keepFirst EventEnvelope.idempotencyKey [] (scopedEvents calls)).filter store.owns := by
  rw [storedEvents, ProductEventStore.eventsSince, InMemoryEventLog.eventsSince_eq_drop,
    List.drop_zero, runAppends_eq.1]

theorem matchesFilter_scopedFilter (e : EventEnvelope) (filter : EventFilter) :
    matchesFilter e (store.scopedFilter filter) =
      (matchesFilter e (store.scopedFilter filter) && store.owns e) := by
  cases hown : store.owns e with
  | true => rw [Bool.and_true]
  | false =>
    rw [Bool.and_false, matchesFilter]
    rw [ProductEventStore.owns] at hown
    simp [ProductEventStore.scopedFilter, hown]

/-- A subscriber is sent the stored events that match. -/
theorem deliveredEvents_eq (filter : EventFilter) : deliveredEvents store calls filter =
    (storedEvents store calls).filter fun e => matchesFilter e (store.scopedFilter filter) := by
  rw [storedEvents_eq, List.filter_filter, deliveredEvents, InMemoryEventLog.sentTo, runAppends_eq.2]
  exact List.filter_congr fun e _ => matchesFilter_scopedFilter e filter

theorem showsOwnEvents_iff : ShowsOwnEvents store calls ↔ KeysFree store calls := by
  have hiff : storedEvents store calls = ownEvents store calls ↔ KeysFree store calls := by
    rw [storedEvents_eq, ownEvents, ← filter_scopedEvents]
    exact filter_keepFirst_eq_iff
  refine ⟨fun h => hiff.mp h.1, fun h => ⟨hiff.mpr h, fun filter => ?_⟩⟩
  rw [deliveredEvents_eq, hiff.mpr h]

end Lemmas

/-- **Two runs with the same appends through a store are the same for it exactly when no key of the
store is taken by another product in either of them.** -/
theorem isolated_iff (store : ProductEventStore) (calls calls' : List StoreAppend)
    (hsame : ownAppends store calls = ownAppends store calls') :
    Isolated store calls calls' ↔ KeysFree store calls ∧ KeysFree store calls' := by
  rw [Isolated, ← showsOwnEvents_iff, ← showsOwnEvents_iff]
  refine ⟨fun h => h.2, fun h => ⟨?_, h⟩⟩
  have hown : ownEvents store calls = ownEvents store calls' := by
    rw [ownEvents, ownEvents, hsame]
  refine ⟨by rw [h.1.1, h.2.1, hown], fun filter => ?_⟩
  rw [h.1.2 filter, h.2.2 filter, hown]

/-! ## Two products and one key -/

/-- An order that is placed, under the key `order-1`. -/
def shopOrderPlaced (id : Uuid) : EventEnvelope where
  id := id
  schema := ⟨"https://picloud.local/schemas/events/OrderPlaced/v1"⟩
  eventType := "OrderPlaced"
  timestamp := 0
  source := ⟨"https://picloud.local/products/shop"⟩
  product := none
  correlationId := 1
  idempotencyKey := some "order-1"
  traceparent := none
  replay := none
  payload := .null

/-- The store of a product. -/
def storeShop : ProductEventStore := ⟨"shop"⟩

/-- The store of another product. -/
def storePhotos : ProductEventStore := ⟨"photos"⟩

/-- The shop has used the key first. -/
theorem isolated_shopFirst :
    Isolated storeShop [(storeShop, shopOrderPlaced 1), (storePhotos, shopOrderPlaced 2)]
      [(storeShop, shopOrderPlaced 1)] :=
  (isolated_iff storeShop _ _ (by decide +kernel)).mpr
    ⟨filter_keepFirst_eq_iff.mp (by decide +kernel), filter_keepFirst_eq_iff.mp (by decide +kernel)⟩

/-- **An append of another product with the same key hides the event of the shop.** -/
theorem not_isolated :
    ownAppends storeShop [(storePhotos, shopOrderPlaced 2), (storeShop, shopOrderPlaced 1)] =
        ownAppends storeShop [(storeShop, shopOrderPlaced 1)] ∧
      ¬ Isolated storeShop [(storePhotos, shopOrderPlaced 2), (storeShop, shopOrderPlaced 1)]
        [(storeShop, shopOrderPlaced 1)] := by
  refine ⟨by decide +kernel, fun h => ?_⟩
  have hnone :
      storedEvents storeShop [(storePhotos, shopOrderPlaced 2), (storeShop, shopOrderPlaced 1)] =
        [] := by decide +kernel
  have hone : storedEvents storeShop [(storeShop, shopOrderPlaced 1)] =
      [storeShop.inScope (shopOrderPlaced 1)] := by decide +kernel
  rw [h.1.1, hone] at hnone
  cases hnone

end Picloud
