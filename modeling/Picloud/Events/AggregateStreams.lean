import Picloud.Domain.Http
import Picloud.Domain.Payload
import Picloud.Events.History

/-!
# Aggregate streams

Reference: `handle_event_store_append` and `handle_event_store_read` of `picloud-http`, and
`IriBuilder::aggregate_stream` of `picloud-domain`.

A stream is no log of its own: reading it filters what the log still has by the product and by the IRI
of the stream. Compaction takes the oldest events out of all streams, and a slash in the name of a store
or of an aggregate type can give two streams of one product the same IRI.
-/

namespace Picloud

open Lib

/-! ## The handlers -/

/-- The path of a request: product, store, aggregate type and aggregate identifier. -/
structure StreamKey where
  product : String
  store : String
  aggregateType : String
  aggregateId : String
deriving DecidableEq

/-- `IriBuilder::aggregate_stream`. -/
def IriBuilder.aggregateStream (b : IriBuilder) (key : StreamKey) : String :=
  b.product key.product ++ "/event-store/" ++ key.store ++ "/" ++ key.aggregateType ++ "/" ++
    key.aggregateId ++ "/events"

/-- `EventStoreAppendRequest`. -/
structure EventStoreAppendRequest where
  schema : String
  eventType : String
  payload : Json

/-- What the handlers read from the state of the server, with the parser of URLs and the format of
times. -/
structure EventStoreConfig where
  iris : IriBuilder
  hasEventLog : Bool
  isUrl : String → Bool
  rfc3339 : ℤ → String

/-- What the outside gives to one request: the identifiers and the time of the envelope, and the error
with which the file system refuses the append. -/
structure AppendSlot where
  id : Uuid
  now : ℤ
  correlationId : Uuid
  refused : Option PiCloudError

/-- `event_log.append(event).await`. -/
def logAppend (J : JsonCodec EventEnvelope) (log : PersistentEventLog) (event : EventEnvelope)
    (refused : Option PiCloudError) : Except PiCloudError Unit × PersistentEventLog :=
  match refused with
  | some e => (.error e, log)
  | none => log.append J event

/-- The envelope of a request. -/
def streamEvent (iris : IriBuilder) (key : StreamKey) (req : EventStoreAppendRequest)
    (slot : AppendSlot) : EventEnvelope :=
  EventEnvelope.new slot.id slot.now ⟨req.schema⟩ req.eventType ⟨iris.aggregateStream key⟩
    (some key.product) slot.correlationId req.payload

/-- `handle_event_store_append`. -/
def handleEventStoreAppend (J : JsonCodec EventEnvelope) (cfg : EventStoreConfig)
    (log : PersistentEventLog) (key : StreamKey) (req : EventStoreAppendRequest)
    (slot : AppendSlot) : HttpResponse × PersistentEventLog :=
  if cfg.hasEventLog then
    if cfg.isUrl req.schema then
      let event := streamEvent cfg.iris key req slot
      match logAppend J log event slot.refused with
      | (.ok (), log') => (⟨202, .object [("status", .string "accepted"),
          ("eventId", .string event.id.display),
          ("correlationId", .string slot.correlationId.display)]⟩, log')
      | (.error e, log') => (.error 500 e.display, log')
    else (.error 400 ("invalid schema IRI: Invalid IRI: " ++ req.schema), log)
  else (.error 503 "event log not available", log)

/-- The filter of `handle_event_store_read`. -/
def inStream (iris : IriBuilder) (key : StreamKey) (e : EventEnvelope) : Bool :=
  e.product = some key.product && e.source.value = iris.aggregateStream key

/-- An event in the response. -/
def streamEventJson (cfg : EventStoreConfig) (e : EventEnvelope) : Json :=
  .object [("id", .string e.id.display), ("schema", .string e.schema.value),
    ("type", .string e.eventType), ("timestamp", .string (cfg.rfc3339 e.timestamp)),
    ("source", .string e.source.value), ("correlationId", .string e.correlationId.display),
    ("payload", e.payload)]

/-- The response with the events of a stream. -/
def streamResponse (cfg : EventStoreConfig) (key : StreamKey) (events : List EventEnvelope) :
    HttpResponse :=
  ⟨200, .object [("stream", .string (cfg.iris.aggregateStream key)),
    ("product", .string key.product), ("store", .string key.store),
    ("aggregateType", .string key.aggregateType), ("aggregateId", .string key.aggregateId),
    ("events", .array (events.map (streamEventJson cfg)))]⟩

/-- `handle_event_store_read`. -/
def handleEventStoreRead (cfg : EventStoreConfig) (log : PersistentEventLog) (key : StreamKey) :
    HttpResponse :=
  if cfg.hasEventLog then
    streamResponse cfg key ((log.eventsSince 0).filter (inStream cfg.iris key))
  else .error 503 "event log not available"

/-! ## Runs -/

/-- The actions: a request, an append by something else, and a compaction, of which `compact_if_needed`
is one with a count of its own. -/
inductive StreamAct where
  | request (key : StreamKey) (req : EventStoreAppendRequest) (slot : AppendSlot)
  | other (event : EventEnvelope) (refused : Option PiCloudError)
  | compact (discardCount : ℕ)

/-- The log, all events that it has accepted, those from requests with their path, and how many of
them compactions have discarded. -/
structure StreamRun where
  log : PersistentEventLog
  accepted : List (Option StreamKey × EventEnvelope)
  discarded : ℕ

/-- One action. A request is accepted if it is answered so; an event whose key the log has seen is
not. -/
def streamNext (J : JsonCodec EventEnvelope) (cfg : EventStoreConfig) (s : StreamRun) :
    StreamAct → Option StreamRun
  | .request key req slot =>
    let answer := handleEventStoreAppend J cfg s.log key req slot
    some { s with
      log := answer.2
      accepted := if answer.1.status = 202 then
        s.accepted ++ [(some key, streamEvent cfg.iris key req slot)] else s.accepted }
  | .other event refused =>
    let answer := logAppend J s.log event refused
    some { s with
      log := answer.2
      accepted := if answer.1.isOk && !s.log.inner.isDuplicate event then
        s.accepted ++ [(none, event)] else s.accepted }
  | .compact discardCount => some { s with
      log := (s.log.compact J discardCount).2
      discarded := if discardCount = 0 ∨ discardCount > s.log.len then s.discarded
        else s.discarded + discardCount }

/-- A new log. -/
def streamStart (path : String) : StreamRun := ⟨PersistentEventLog.fresh path, [], 0⟩

/-! ## What is claimed, and what holds -/

/-- What is claimed: reading a stream gives all accepted events that were appended to it, in their
order. -/
def StreamComplete (cfg : EventStoreConfig) (s : StreamRun) (key : StreamKey) : Prop :=
  handleEventStoreRead cfg s.log key =
    streamResponse cfg key ((s.accepted.filter (·.1 = some key)).map Prod.snd)

/-- Reading a stream gives the accepted events that were appended to it and have not been discarded,
with those that something else has appended under its product and its IRI, in their order. -/
def StreamRetained (cfg : EventStoreConfig) (s : StreamRun) (key : StreamKey) : Prop :=
  handleEventStoreRead cfg s.log key = streamResponse cfg key
    (((s.accepted.drop s.discarded).filter fun x =>
      x.1 = some key || x.1 = none && inStream cfg.iris key x.2).map Prod.snd)

/-- A request is not for another path of the product that has the IRI of the stream. -/
def StreamApart (iris : IriBuilder) (key : StreamKey) : StreamAct → Prop
  | .request key' _ _ => key'.product = key.product →
      iris.aggregateStream key' = iris.aggregateStream key → key' = key
  | _ => True

instance (cfg : EventStoreConfig) (s : StreamRun) (key : StreamKey) :
    Decidable (StreamComplete cfg s key) :=
  inferInstanceAs (Decidable (_ = _))

/-! ## The invariant -/

/-- The log has what it has accepted and not discarded, and the events of requests are in the streams
of their paths; of those with the IRI of one path, it is that path. -/
structure StreamSound (cfg : EventStoreConfig) (key : StreamKey) (s : StreamRun) : Prop where
  offset : s.log.snapshotOffset = s.discarded
  discarded : s.discarded ≤ s.accepted.length
  events : s.log.inner.events = (s.accepted.drop s.discarded).map Prod.snd
  streams : ∀ x ∈ s.accepted, ∀ key', x.1 = some key' → inStream cfg.iris key' x.2 = true ∧
    (inStream cfg.iris key x.2 = true → key' = key)

section Steps

variable {J : JsonCodec EventEnvelope} {cfg : EventStoreConfig} {s s' : StreamRun}
  {log : PersistentEventLog} {event : EventEnvelope} {refused : Option PiCloudError}
  {key : StreamKey}

/-- What an append does to memory: nothing, or the event goes to the end. -/
theorem logAppend_cases (J : JsonCodec EventEnvelope) (log : PersistentEventLog)
    (event : EventEnvelope) (refused : Option PiCloudError) :
    ((logAppend J log event refused).2 = log ∧
      ((logAppend J log event refused).1.isOk = false ∨ log.inner.isDuplicate event = true)) ∨
    ((logAppend J log event refused).1 = .ok () ∧ log.inner.isDuplicate event = false ∧
      (logAppend J log event refused).2.snapshotOffset = log.snapshotOffset ∧
      (logAppend J log event refused).2.inner.events = log.inner.events ++ [event]) := by
  cases refused with
  | some e => exact Or.inl ⟨rfl, Or.inl rfl⟩
  | none =>
    change ((log.append J event).2 = log ∧ ((log.append J event).1.isOk = false ∨ _)) ∨
      ((log.append J event).1 = _ ∧ _ ∧ (log.append J event).2.snapshotOffset = _ ∧
        (log.append J event).2.inner.events = _)
    rcases PersistentEventLog.append_cases J log event with
      ⟨hsame, hdup, -⟩ | ⟨hsame, t, hterr⟩ | ⟨hdup, -, heq⟩
    · exact Or.inl ⟨hsame, Or.inr hdup⟩
    · refine Or.inl ⟨hsame, ?_⟩
      cases hdup : log.inner.isDuplicate event with
      | true => exact Or.inr rfl
      | false =>
        left
        unfold PersistentEventLog.append
        rw [hdup, hterr]
        rfl
    · right
      rw [heq]
      refine ⟨rfl, hdup, rfl, ?_⟩
      change (((log.inner.recordKey event).send event).push event).events = _
      simp

/-- An accepted event. -/
theorem StreamSound.accept (h : StreamSound cfg key s) {x : Option StreamKey × EventEnvelope}
    (hoffset : log.snapshotOffset = s.log.snapshotOffset)
    (hevents : log.inner.events = s.log.inner.events ++ [x.2])
    (hx : ∀ key', x.1 = some key' → inStream cfg.iris key' x.2 = true ∧
      (inStream cfg.iris key x.2 = true → key' = key)) :
    StreamSound cfg key { s with log := log, accepted := s.accepted ++ [x] } where
  offset := hoffset.trans h.offset
  discarded := by
    change s.discarded ≤ (s.accepted ++ [x]).length
    rw [List.length_append]
    exact Nat.le_add_right_of_le h.discarded
  events := by
    rw [hevents, h.events, List.drop_append_of_le_length h.discarded, List.map_append]
    rfl
  streams y hy := by
    rcases List.mem_append.mp hy with hy | hy
    · exact h.streams y hy
    · rw [List.mem_singleton.mp hy]
      exact hx

/-- The event of a request is in the streams of its product with its IRI. -/
theorem inStream_streamEvent (iris : IriBuilder) (path : StreamKey) (req : EventStoreAppendRequest)
    (slot : AppendSlot) : inStream iris key (streamEvent iris path req slot) = true ↔
      path.product = key.product ∧ iris.aggregateStream path = iris.aggregateStream key := by
  show (decide (some path.product = some key.product) && decide (iris.aggregateStream path =
    iris.aggregateStream key)) = true ↔ _
  rw [Bool.and_eq_true, decide_eq_true_iff, decide_eq_true_iff, Option.some_inj]

/-- A request appends its event and is answered with 202, or does nothing. -/
theorem handleEventStoreAppend_cases (key : StreamKey) (req : EventStoreAppendRequest)
    (slot : AppendSlot) :
    ((handleEventStoreAppend J cfg log key req slot).1.status ≠ 202 ∧
      (handleEventStoreAppend J cfg log key req slot).2 = log) ∨
    ((handleEventStoreAppend J cfg log key req slot).1.status = 202 ∧
      (handleEventStoreAppend J cfg log key req slot).2.snapshotOffset = log.snapshotOffset ∧
      (handleEventStoreAppend J cfg log key req slot).2.inner.events =
        log.inner.events ++ [streamEvent cfg.iris key req slot]) := by
  have hnew : log.inner.isDuplicate (streamEvent cfg.iris key req slot) = false := rfl
  unfold handleEventStoreAppend
  split_ifs
  · dsimp only
    have hcases := logAppend_cases J log (streamEvent cfg.iris key req slot) slot.refused
    rw [hnew] at hcases
    generalize logAppend J log (streamEvent cfg.iris key req slot) slot.refused = answer at hcases ⊢
    obtain ⟨result, log'⟩ := answer
    cases result with
    | ok =>
      rcases hcases with ⟨-, hrefused | hrefused⟩ | ⟨-, -, hoffset, hevents⟩
      · cases hrefused
      · cases hrefused
      · exact Or.inr ⟨rfl, hoffset, hevents⟩
    | error e =>
      rcases hcases with ⟨hsame, -⟩ | ⟨hok, -⟩
      · exact Or.inl ⟨by simp [HttpResponse.error], hsame⟩
      · cases hok
  · exact Or.inl ⟨by simp [HttpResponse.error], rfl⟩
  · exact Or.inl ⟨by simp [HttpResponse.error], rfl⟩

/-- **Every action keeps the invariant.** -/
theorem StreamSound.next {a : StreamAct} (h : StreamSound cfg key s)
    (hapart : StreamApart cfg.iris key a) (hnext : streamNext J cfg s a = some s') :
    StreamSound cfg key s' := by
  cases a with
  | request path req slot =>
    cases hnext
    rcases handleEventStoreAppend_cases (J := J) path req slot with
      ⟨hstatus, hsame⟩ | ⟨hstatus, hoffset, hevents⟩
    · rw [if_neg hstatus, hsame]
      exact h
    · rw [if_pos hstatus]
      refine h.accept hoffset hevents fun key' hkey' => ?_
      cases hkey'
      rw [inStream_streamEvent, inStream_streamEvent]
      exact ⟨⟨rfl, rfl⟩, fun hin => hapart hin.1 hin.2⟩
  | other event refused =>
    cases hnext
    rcases logAppend_cases J s.log event refused with ⟨hsame, hrefused⟩ | ⟨hok, hnew, hoffset, hevents⟩
    · rw [hsame, if_neg]
      · exact h
      · rcases hrefused with hrefused | hrefused <;> simp [hrefused]
    · rw [if_pos (by rw [hok, hnew]; rfl)]
      exact h.accept hoffset hevents fun key hkey => by cases hkey
  | compact n =>
    cases hnext
    rcases PersistentEventLog.compact_cases (J := J) s.log n with
      ⟨hbad, heq⟩ | ⟨hpos, hle, hinner, hoffset⟩
    · rw [if_pos hbad, heq]
      exact h
    · rw [if_neg (by omega)]
      have hlen : s.log.len = s.accepted.length - s.discarded := by
        have := congrArg List.length h.events
        rw [List.length_map, List.length_drop] at this
        exact this
      refine ⟨by rw [hoffset, h.offset], ?_, ?_, h.streams⟩
      · have := h.discarded
        change s.discarded + n ≤ s.accepted.length
        omega
      · rw [hinner, ← List.drop_drop, List.map_drop, ← h.events]

/-- What is in the log of a stream was appended to it, or by something else. -/
theorem StreamSound.inStream_iff (h : StreamSound cfg key s) {x : Option StreamKey × EventEnvelope} (hx : x ∈ s.accepted) :
    inStream cfg.iris key x.2 = (x.1 = some key || x.1 = none && inStream cfg.iris key x.2) := by
  cases hrequest : x.1 with
  | none => simp
  | some key' =>
    obtain ⟨hin, hsame⟩ := h.streams x hx key' hrequest
    simp only [reduceCtorEq, decide_false, Bool.false_and, Bool.or_false, Option.some.injEq]
    rw [Bool.eq_iff_iff, decide_eq_true_iff]
    exact ⟨hsame, fun heq => heq ▸ hin⟩

/-- **Reading a stream gives what was appended to it and has not been discarded**, when no request is
for another path with its IRI. -/
theorem stream_retained (J : JsonCodec EventEnvelope) (cfg : EventStoreConfig) (path : String)
    {acts : List StreamAct} {s : StreamRun} (hlog : cfg.hasEventLog = true)
    (hrun : runSteps (streamNext J cfg) (streamStart path) acts = some s) {key : StreamKey}
    (hacts : ∀ a ∈ acts, StreamApart cfg.iris key a) : StreamRetained cfg s key := by
  have hstart : StreamSound cfg key (streamStart path) :=
    ⟨rfl, Nat.le_refl _, rfl, by simp [streamStart]⟩
  have hsound : StreamSound cfg key s := runSteps_invariant (streamNext J cfg)
    (fun _ _ _ h hapart => h.next hapart) acts _ s hstart
    (stepsMeet_of_forall _ (fun a ha _ => hacts a ha) _) hrun
  have hevents : s.log.eventsSince 0 = (s.accepted.drop s.discarded).map Prod.snd := by
    rw [PersistentEventLog.eventsSince, if_neg (by omega), InMemoryEventLog.eventsSince_eq_drop,
      List.drop_zero, hsound.events]
  rw [StreamRetained, handleEventStoreRead, if_pos hlog, hevents, List.filter_map]
  congr 2
  refine List.filter_congr fun x hx => ?_
  exact hsound.inStream_iff (List.mem_of_mem_drop hx)

end Steps

/-! ### Sample streams -/

/-- A server that takes every text for a URL. -/
def sampleStores : EventStoreConfig where
  iris := ⟨"picloud.local"⟩
  hasEventLog := true
  isUrl := fun _ => true
  rfc3339 := fun _ => "1970-01-01T00:00:00+00:00"

/-- The body of a request. -/
def orderRequest : EventStoreAppendRequest :=
  ⟨"https://picloud.local/products/shop/schemas/events/OrderPlaced/v1", "OrderPlaced", .null⟩

/-- A request for a stream. -/
def placeOrder (id : Uuid) (key : StreamKey) : StreamAct :=
  .request key orderRequest ⟨id, 0, id, none⟩

/-- The stream of an order. -/
def orderOne : StreamKey := ⟨"shop", "orders", "Order", "1"⟩

/-- Another path with the same IRI. -/
def shiftedOrder : StreamKey := ⟨"shop", "orders/Order", "1/events/Part", "2"⟩

/-- The path that it is shifted from. -/
def unshiftedOrder : StreamKey := ⟨"shop", "orders", "Order/1/events/Part", "2"⟩

/-- The event of a sample request. -/
def orderPlaced (id : Uuid) (key : StreamKey) : EventEnvelope :=
  streamEvent sampleStores.iris key orderRequest ⟨id, 0, id, none⟩

set_option maxRecDepth 4000 in
/-- `serde_json` on the sample events. -/
def orderCodec : RoundTripCodec EventEnvelope :=
  RoundTripCodec.ofTable
    [(orderPlaced 1 orderOne,
      "\x7b\"id\":\"00000000-0000-0000-0000-000000000001\",\"schema\":\"https://picloud.local/products/shop/schemas/events/OrderPlaced/v1\",\"event_type\":\"OrderPlaced\",\"timestamp\":\"1970-01-01T00:00:00Z\",\"source\":\"https://picloud.local/products/shop/event-store/orders/Order/1/events\",\"product\":\"shop\",\"correlation_id\":\"00000000-0000-0000-0000-000000000001\",\"idempotency_key\":null,\"payload\":null\x7d"),
     (orderPlaced 2 orderOne,
      "\x7b\"id\":\"00000000-0000-0000-0000-000000000002\",\"schema\":\"https://picloud.local/products/shop/schemas/events/OrderPlaced/v1\",\"event_type\":\"OrderPlaced\",\"timestamp\":\"1970-01-01T00:00:00Z\",\"source\":\"https://picloud.local/products/shop/event-store/orders/Order/1/events\",\"product\":\"shop\",\"correlation_id\":\"00000000-0000-0000-0000-000000000002\",\"idempotency_key\":null,\"payload\":null\x7d"),
     (orderPlaced 1 shiftedOrder,
      "\x7b\"id\":\"00000000-0000-0000-0000-000000000001\",\"schema\":\"https://picloud.local/products/shop/schemas/events/OrderPlaced/v1\",\"event_type\":\"OrderPlaced\",\"timestamp\":\"1970-01-01T00:00:00Z\",\"source\":\"https://picloud.local/products/shop/event-store/orders/Order/1/events/Part/2/events\",\"product\":\"shop\",\"correlation_id\":\"00000000-0000-0000-0000-000000000001\",\"idempotency_key\":null,\"payload\":null\x7d")]
    (by refine nodup_texts ?_ ?_ ?_ <;> exact ne_of_toList rfl rfl (by decide +kernel))
    (by
      simp only [List.forall_mem_cons]
      exact ⟨isLine_ofList (by decide +kernel), isLine_ofList (by decide +kernel),
        isLine_ofList (by decide +kernel), by simp⟩)

/-- Two orders, the first of them discarded. -/
def discardedOrder : List StreamAct :=
  [placeOrder 1 orderOne, placeOrder 2 orderOne, .compact 1]

/-- A request for a path with slashes in its names does no harm. -/
theorem stream_retained_discarded :
    ∃ s, runSteps (streamNext orderCodec sampleStores) (streamStart "events.jsonl")
        (placeOrder 1 shiftedOrder :: discardedOrder) = some s ∧ s.accepted.length = 3 ∧
      StreamRetained sampleStores s orderOne := by
  have hrun : ∃ s ∈ runSteps (streamNext orderCodec sampleStores) (streamStart "events.jsonl")
      (placeOrder 1 shiftedOrder :: discardedOrder), s.accepted.length = 3 := by
    decide +kernel
  obtain ⟨s, hs, hlength⟩ := hrun
  refine ⟨s, hs, hlength, stream_retained orderCodec sampleStores "events.jsonl" rfl hs fun a ha => ?_⟩
  simp only [discardedOrder, placeOrder, List.mem_cons, List.not_mem_nil, or_false] at ha
  obtain rfl | rfl | rfl | rfl := ha
  · exact fun _ heq => absurd heq (by decide +kernel)
  · exact fun _ _ => rfl
  · exact fun _ _ => rfl
  · trivial

/-- A discarded event is not read, and an event of another path is. -/
theorem stream_not_complete :
    (∃ s, runSteps (streamNext orderCodec sampleStores) (streamStart "events.jsonl")
        discardedOrder = some s ∧ ¬ StreamComplete sampleStores s orderOne) ∧
      ∃ s, runSteps (streamNext orderCodec sampleStores) (streamStart "events.jsonl")
          [placeOrder 1 shiftedOrder] = some s ∧
        ¬ StreamComplete sampleStores s unshiftedOrder := by
  constructor
  · have hrun : ∃ s ∈ runSteps (streamNext orderCodec sampleStores) (streamStart "events.jsonl")
        discardedOrder, ¬ StreamComplete sampleStores s orderOne := by
      decide +kernel
    exact hrun
  · have hrun : ∃ s ∈ runSteps (streamNext orderCodec sampleStores) (streamStart "events.jsonl")
        [placeOrder 1 shiftedOrder], ¬ StreamComplete sampleStores s unshiftedOrder := by
      decide +kernel
    exact hrun

end Picloud
