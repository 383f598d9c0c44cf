import Picloud.Network.DnsRuns
import Picloud.Rdf.StorageEvents
import Picloud.Server.ProductGraph

/-!
# DNS answers from the projector

Reference: `DnsResolver::resolve` of `picloud-network/src/dns/resolver.rs`, with `execute_query` of
`picloud-rdf` as its query function.

The projector writes a value as an object with a type and a text. The resolver reads texts only, so of
a solution it sees nothing but quoted triples, which the projector writes as texts (`shownText`). It
asks with the name as it is written, and names of `in-addr.arpa` are not in its zone.
-/

namespace Picloud

open Lib Lib.Sparql

namespace DnsResolver

/-! ## A call on its own -/

section Resolve

variable {G : Type} (resolver : DnsResolver G)

/-- `resolve`, while nothing else happens. -/
def resolve (graph : G) (cache : DnsCache) (now : ℕ) (name recordType : String) :
    ResolveResult × DnsCache :=
  if resolver.isAuthoritative name then
    let rtype := resolver.case.toUppercase recordType
    match cache.get resolver.case now rtype name with
    | some records => (.records records 30, cache)
    | none =>
      match resolver.answer graph name rtype with
      | none => (.notImplemented, cache)
      | some (.ok []) => (.nxDomain, cache)
      | some (.ok records) => (.records records 30, cache.insert resolver.case now rtype name records)
      | some (.error _) => (.nxDomain, cache)
  else (.nxDomain, cache)

/-- The sections of one task, one after the other. -/
def dnsAlone (p : DnsShared G × DnsTask G) (_ : Unit) : Option (DnsShared G × DnsTask G) :=
  resolver.dnsStep p.1 p.2

/-- A call whose sections follow each other returns what `resolve` returns. -/
theorem runSteps_dnsAlone (s : DnsShared G) (name recordType : String) :
    ∃ n, runSteps resolver.dnsAlone (s, .resolve name recordType) (List.replicate n ()) =
      some ({ s with cache := (resolver.resolve s.graph s.cache s.now name recordType).2 },
        .resolved name (resolver.case.toUppercase recordType) s.handled
          (resolver.resolve s.graph s.cache s.now name recordType).1) := by
  by_cases hname : resolver.isAuthoritative name = true
  · cases hget : s.cache.get resolver.case s.now (resolver.case.toUppercase recordType) name with
    | some records => exact ⟨1, by simp [runSteps, dnsAlone, dnsStep, resolve, hname, hget]⟩
    | none =>
      cases hanswer : resolver.answer s.graph name (resolver.case.toUppercase recordType) with
      | none => exact ⟨2, by simp [runSteps, dnsAlone, dnsStep, resolve, hname, hget, hanswer]⟩
      | some answer =>
        rcases answer with e | records
        · exact ⟨2, by simp [runSteps, dnsAlone, dnsStep, resolve, hname, hget, hanswer]⟩
        · cases records with
          | nil => exact ⟨2, by simp [runSteps, dnsAlone, dnsStep, resolve, hname, hget, hanswer]⟩
          | cons record records =>
            exact ⟨3, by simp [runSteps, dnsAlone, dnsStep, resolve, hname, hget, hanswer]⟩
  · exact ⟨1, by simp [runSteps, dnsAlone, dnsStep, resolve, hname]⟩

end Resolve

/-- A resolver whose query function is `execute_query`. -/
def projected (srv : GraphServer) (domain : String) (clusterInfo : Option (String × String))
    (case : TextCase) : DnsResolver Store where
  domain := domain
  sparqlQuery := some fun store text => (executeQuery srv store text).mapError PiCloudError.display
  clusterInfo := clusterInfo
  case := case

end DnsResolver

/-! ## What the queries yield -/

/-- The text of the value of a variable. -/
def valueText (row : Row) (name : String) : Option String := (row.get name).map termText

/-- The number of the value of a variable, in sixteen bits. -/
def valueNumber (row : Row) (name : String) (fallback : ℕ) : ℕ :=
  (((valueText row name).bind parseNat).getD fallback) % 2 ^ 16

/-- An address without its port. -/
def portStripped (address : String) : Option Ipv4Addr :=
  parseIpv4 (String.ofList (address.toList.takeWhile (· ≠ ':')))

/-- The solutions of the query for addresses. -/
def addressRows (srv : GraphServer) (store : Store) (name : String) : List Row :=
  rowsOf srv store (bindText aRecordQuery "$hostname" name)

/-- The solutions of the query for services, if the name is one of a service. -/
def serviceRows (srv : GraphServer) (store : Store) (domain name : String) : List Row :=
  match parseSrvName name domain with
  | none => []
  | some (service, _, product) =>
    rowsOf srv store (bindText (bindText srvRecordQuery "$service_type" service) "$product" product)

/-- The solutions of the query for texts. -/
def textRows (srv : GraphServer) (store : Store) (name : String) : List Row :=
  rowsOf srv store (bindText txtRecordQuery "$hostname" name)

/-- The solutions of the query for hostnames, if the name is a reverse name. -/
def pointerRows (srv : GraphServer) (store : Store) (name : String) : List Row :=
  match parsePtrName name with
  | none => []
  | some address => rowsOf srv store (bindText ptrRecordQuery "$address" address)

/-- The address of a solution. -/
def addressRecord (row : Row) : Option DnsRecord :=
  ((valueText row "address").bind portStripped).map DnsRecord.a

/-- The service of a solution. -/
def serviceRecord (row : Row) : DnsRecord :=
  .srv ((valueText row "target").getD "") (valueNumber row "port" 0) (valueNumber row "priority" 10)
    (valueNumber row "weight" 10)

/-- The text of a solution. -/
def textRecord (row : Row) : DnsRecord :=
  .txt (formatProductTxt ((valueText row "key").getD "") ((valueText row "value").getD ""))

/-- The hostname of a solution. -/
def pointerRecord (row : Row) : Option DnsRecord := (valueText row "hostname").map DnsRecord.ptr

/-- The quoted triple that a solution has for a variable. -/
def quotedText (row : Row) (name : String) : Option String :=
  match row.get name with
  | some (.triple text) => some text
  | _ => none

/-- The line of a text record. -/
def textLine (key value : Option String) : String := formatProductTxt (key.getD "") (value.getD "")

/-- What the resolver makes of a solution for services. -/
def shownService (row : Row) : DnsRecord := .srv ((shownText row "target").getD "") 0 10 10

/-- What the resolver makes of a solution for texts. -/
def shownTexts (row : Row) : DnsRecord :=
  .txt (formatProductTxt ((shownText row "key").getD "") ((shownText row "value").getD ""))

/-- What the resolver makes of a solution for hostnames. -/
def shownPointer (row : Row) : Option DnsRecord := (shownText row "hostname").map DnsRecord.ptr

/-- The records of a name in lower case; the name of the cluster has a text of its own. -/
def recordsFound (srv : GraphServer) (store : Store) (domain : String)
    (clusterInfo : Option (String × String)) (case : TextCase) (name recordType : String) :
    List DnsRecord :=
  if recordType = "A" then (addressRows srv store (case.toLowercase name)).filterMap addressRecord
  else if recordType = "SRV" then
    (serviceRows srv store domain (case.toLowercase name)).map serviceRecord
  else if recordType = "TXT" then
    if DnsResolver.eqIgnoreAsciiCase name domain then
      (clusterInfo.map fun info => DnsRecord.txt (formatClusterTxt info.1 info.2)).toList
    else (textRows srv store (case.toLowercase name)).map textRecord
  else (pointerRows srv store (case.toLowercase name)).filterMap pointerRecord

/-- The answer with some records. -/
def replyOf (records : List DnsRecord) : ResolveResult :=
  if records = [] then .nxDomain else .records records 30

theorem replyOf_injective : Function.Injective replyOf := by
  intro records records' h
  unfold replyOf at h
  by_cases hnil : records = [] <;> by_cases hnil' : records' = [] <;> simp_all

theorem eq_of_replyOf {records records' : List DnsRecord} {ttl : ℕ}
    (h : replyOf records = .records records' ttl) : records' = records := by
  unfold replyOf at h
  split_ifs at h
  exact (ResolveResult.records.inj h).1.symm

/-- Four numbers with dots between them. -/
def dotted (octets : List ℕ) : String :=
  String.ofList (['.'].intercalate (octets.map fun n => (toString n).toList))

/-- A node is registered under an address and a hostname. -/
def NodeRegistered (store : Store) (address hostname : String) : Prop :=
  ∃ node, '<' ∉ hostname.toList ∧
    (∀ q ∈ [(⟨node, ⟨rdfType⟩, .named ⟨pc "Node"⟩, .default⟩ : Quad),
      ⟨node, ⟨pc "nodeAddress"⟩, simple address, .default⟩,
      ⟨node, ⟨pc "hostname"⟩, simple hostname, .default⟩], q ∈ store)

/-- The record types that are implemented. -/
def dnsTypes : List String := ["A", "SRV", "TXT", "PTR"]

/-- SPARQL reads the four queries as selections of their variables, whatever is put into them, and a
quoted triple is written with angle brackets. -/
structure ReadsDnsQueries (srv : GraphServer) (store : Store) : Prop where
  address : ∀ name, Selects srv (bindText aRecordQuery "$hostname" name) ["address"]
  service : ∀ service product,
    Selects srv (bindText (bindText srvRecordQuery "$service_type" service) "$product" product)
      ["target", "port", "priority", "weight"]
  text : ∀ name, Selects srv (bindText txtRecordQuery "$hostname" name) ["key", "value"]
  pointer : ∀ address, Selects srv (bindText ptrRecordQuery "$address" address) ["hostname"]
  quoted : ∀ text, ∀ row ∈ rowsOf srv store text, ∀ name quoted,
    row.get name = some (.triple quoted) → quoted.toList.head? = some '<'

section Projected

variable (srv : GraphServer) (store : Store) (domain : String)
  (clusterInfo : Option (String × String)) (case : TextCase)

/-- The resolver answers what the graph has: from an empty cache every name of the zone gets the
records of its name in lower case, in every state of the cache the letter case of ASCII letters makes no
difference, and reverse names lead to the nodes. -/
structure AnswersAsGraph : Prop where
  answers : ∀ name, (DnsResolver.projected srv domain clusterInfo case).isAuthoritative name = true →
    ∀ t ∈ dnsTypes, ∀ ttl now,
      ((DnsResolver.projected srv domain clusterInfo case).resolve store ⟨[], ttl⟩ now name t).1 =
        replyOf (recordsFound srv store domain clusterInfo case name t)
  anyCase : ∀ cache now name name' recordType, DnsResolver.eqIgnoreAsciiCase name name' = true →
    ((DnsResolver.projected srv domain clusterInfo case).resolve store cache now name recordType).1 =
      ((DnsResolver.projected srv domain clusterInfo case).resolve store cache now name' recordType).1
  reverse : ∀ a b c d hostname, a ≤ 255 → b ≤ 255 → c ≤ 255 → d ≤ 255 →
    NodeRegistered store (dotted [a, b, c, d]) hostname → ∀ ttl now, ∃ records,
      ((DnsResolver.projected srv domain clusterInfo case).resolve store ⟨[], ttl⟩ now
        (dotted [d, c, b, a] ++ ".in-addr.arpa") "PTR").1 = .records records 30 ∧
        .ptr hostname ∈ records

/-- A service found for a name in lower case says nothing: its port is missing or 0, its priority and
its weight are missing or 10, and its target is missing or blank, or quoted as a triple in the solution
for the name as it is written. -/
structure BlankService (found asked : Row) : Prop where
  target : (valueText found "target").getD "" = (quotedText asked "target").getD ""
  port : valueNumber found "port" 0 = 0
  priority : valueNumber found "priority" 10 = 10
  weight : valueNumber found "weight" 10 = 10

/-- A text found for a name in lower case says nothing but what is quoted as triples in the solution for
the name as it is written. -/
def BlankText (found asked : Row) : Prop :=
  textLine (valueText found "key") (valueText found "value") =
    textLine (quotedText asked "key") (quotedText asked "value")

/-- The graph has nothing to answer: no name of the zone has an IPv4 address, the services and texts of a
name in lower case are blank, solution by solution, its hostnames are only quoted triples, and no node is
registered under an address. -/
structure DnsSilent : Prop where
  addresses : ∀ name, (DnsResolver.projected srv domain clusterInfo case).isAuthoritative name = true →
    ∀ row ∈ addressRows srv store (case.toLowercase name), ∀ t, row.get "address" = some t →
      portStripped (termText t) = none
  services : ∀ name, (DnsResolver.projected srv domain clusterInfo case).isAuthoritative name = true →
    List.Forall₂ BlankService (serviceRows srv store domain (case.toLowercase name))
      (serviceRows srv store domain name)
  texts : ∀ name, (DnsResolver.projected srv domain clusterInfo case).isAuthoritative name = true →
    DnsResolver.eqIgnoreAsciiCase name domain = false →
    List.Forall₂ BlankText (textRows srv store (case.toLowercase name)) (textRows srv store name)
  pointers : ∀ name, (DnsResolver.projected srv domain clusterInfo case).isAuthoritative name = true →
    (pointerRows srv store (case.toLowercase name)).filterMap (valueText · "hostname") =
      (pointerRows srv store name).filterMap (quotedText · "hostname")
  nodes : ∀ a b c d hostname, a ≤ 255 → b ≤ 255 → c ≤ 255 → d ≤ 255 →
    ¬ NodeRegistered store (dotted [a, b, c, d]) hostname

/-- The records that the resolver makes of the solutions. -/
def recordsShown (name recordType : String) : List DnsRecord :=
  if recordType = "A" then []
  else if recordType = "SRV" then (serviceRows srv store domain name).map shownService
  else if recordType = "TXT" then
    if DnsResolver.eqIgnoreAsciiCase name domain then
      (clusterInfo.map fun info => DnsRecord.txt (formatClusterTxt info.1 info.2)).toList
    else (textRows srv store name).map shownTexts
  else (pointerRows srv store name).filterMap shownPointer

end Projected

/-! ## What the resolver sees -/

section Shown

variable {srv : GraphServer} {store : Store} {names : List String}

/-- It sees no numbers. -/
theorem number_of_rowToJson {name : String} (h : name ∈ names) (row : Row) :
    ((rowToJson names row).get? name).bind Json.asU64 = none := by
  rw [get?_rowToJson h]
  cases row.get name with
  | none => rfl
  | some t => cases t <;> rfl

/-- What is seen of a solution is what it quotes. -/
theorem shownText_eq (row : Row) (name : String) : shownText row name = quotedText row name := by
  rw [shownText, quotedText]
  cases row.get name with
  | none => rfl
  | some t => cases t <;> rfl

/-- A solution has an address exactly when its value is one. -/
theorem addressRecord_eq_none_iff (row : Row) : addressRecord row = none ↔
    ∀ t, row.get "address" = some t → portStripped (termText t) = none := by
  rw [addressRecord, valueText]
  cases row.get "address" <;> simp

theorem serviceRecord_eq_iff {found asked : List Row} :
    found.map serviceRecord = asked.map shownService ↔ List.Forall₂ BlankService found asked := by
  have hrow : ∀ row row' : Row, serviceRecord row = shownService row' ↔ BlankService row row' := by
    intro row row'
    rw [serviceRecord, shownService, shownText_eq, DnsRecord.srv.injEq]
    exact ⟨fun ⟨htarget, hport, hpriority, hweight⟩ => ⟨htarget, hport, hpriority, hweight⟩,
      fun h => ⟨h.target, h.port, h.priority, h.weight⟩⟩
  simp only [← List.forall₂_eq_eq_eq, List.forall₂_map_left_iff, List.forall₂_map_right_iff, hrow]

theorem textRecord_eq_iff {found asked : List Row} :
    found.map textRecord = asked.map shownTexts ↔ List.Forall₂ BlankText found asked := by
  have hrow : ∀ row row' : Row, textRecord row = shownTexts row' ↔ BlankText row row' := by
    intro row row'
    rw [textRecord, shownTexts, shownText_eq, shownText_eq, DnsRecord.txt.injEq]
    rfl
  simp only [← List.forall₂_eq_eq_eq, List.forall₂_map_left_iff, List.forall₂_map_right_iff, hrow]

theorem pointerRecord_eq_iff {found asked : List Row} :
    found.filterMap pointerRecord = asked.filterMap shownPointer ↔
      found.filterMap (valueText · "hostname") = asked.filterMap (quotedText · "hostname") := by
  have hfound : found.filterMap pointerRecord =
      (found.filterMap (valueText · "hostname")).map DnsRecord.ptr := by
    rw [List.map_filterMap]
    rfl
  have hasked : asked.filterMap shownPointer =
      (asked.filterMap (quotedText · "hostname")).map DnsRecord.ptr := by
    rw [List.map_filterMap]
    refine List.filterMap_congr fun row _ => ?_
    rw [shownPointer, shownText_eq]
  rw [hfound, hasked]
  exact (List.map_injective_iff.mpr fun _ _ h => DnsRecord.ptr.inj h).eq_iff

/-- A text that begins with an angle bracket is no address. -/
theorem portStripped_eq_none {text : String} (h : text.toList.head? = some '<') :
    portStripped text = none := by
  obtain ⟨rest, hrest⟩ : ∃ rest, text.toList = '<' :: rest := by
    cases hlist : text.toList with
    | nil => simp [hlist] at h
    | cons c rest =>
      rw [hlist, List.head?_cons, Option.some.injEq] at h
      exact ⟨rest, h ▸ rfl⟩
  obtain ⟨tail, htail⟩ : ∃ tail, text.toList.takeWhile (· ≠ ':') = '<' :: tail := by
    rw [hrest]
    exact ⟨_, List.takeWhile_cons_of_pos (by decide)⟩
  rw [portStripped, htail, parseIpv4, String.toList_ofList]
  -- the first part begins with the bracket, so it is no octet
  obtain ⟨part, parts, hparts⟩ : ∃ part parts, ('<' :: tail).splitOn '.' = ('<' :: part) :: parts := by
    rw [List.splitOn, List.splitOnP_cons_eq_if_modifyHead, if_neg (by decide)]
    cases hsplit : tail.splitOnP (· == '.') with
    | nil => exact absurd hsplit (List.splitOnP_ne_nil _ _)
    | cons part parts => exact ⟨part, parts, rfl⟩
  have hoctet : parseOctet ('<' :: part) = none := by
    rw [parseOctet]
    exact if_neg fun hall => absurd (hall.2.2.1 '<' List.mem_cons_self) (by decide)
  rw [hparts, List.mapM_cons, hoctet]
  split <;> rfl

end Shown

/-! ## From an empty cache -/

/-- What is returned for the outcome of a question to the graph. -/
def missReply : Option (Except String (List DnsRecord)) → ResolveResult
  | none => .notImplemented
  | some (.ok records) => replyOf records
  | some (.error _) => .nxDomain

namespace DnsResolver

variable {name name' : String}

/-- What the cache does not have is asked for. -/
theorem resolve_of_miss {G : Type} {resolver : DnsResolver G} {graph : G} {cache : DnsCache}
    {now : ℕ} {recordType : String} (hname : resolver.isAuthoritative name = true)
    (hget : cache.get resolver.case now (resolver.case.toUppercase recordType) name = none) :
    (resolver.resolve graph cache now name recordType).1 =
      missReply (resolver.answer graph name (resolver.case.toUppercase recordType)) := by
  rw [resolve, if_pos hname]
  dsimp only
  rw [hget]
  dsimp only
  cases resolver.answer graph name (resolver.case.toUppercase recordType) with
  | none => rfl
  | some answer =>
    rcases answer with e | records
    · rfl
    · cases records <;> rfl

theorem isAuthoritative_congr {G : Type} {resolver : DnsResolver G}
    (h : resolver.case.toLowercase name = resolver.case.toLowercase name') :
    resolver.isAuthoritative name = resolver.isAuthoritative name' := by
  rw [isAuthoritative, isAuthoritative, h]

/-- Names with one lower case and the same answers of the graph get the same answer in every state of the
cache. -/
theorem resolve_congr {G : Type} {resolver : DnsResolver G} {graph : G}
    (h : resolver.case.toLowercase name = resolver.case.toLowercase name')
    (hanswer : resolver.isAuthoritative name = true → ∀ rtype,
      missReply (resolver.answer graph name rtype) = missReply (resolver.answer graph name' rtype))
    (cache : DnsCache) (now : ℕ) (recordType : String) :
    (resolver.resolve graph cache now name recordType).1 =
      (resolver.resolve graph cache now name' recordType).1 := by
  have hzone := isAuthoritative_congr h
  have hget : cache.get resolver.case now (resolver.case.toUppercase recordType) name =
      cache.get resolver.case now (resolver.case.toUppercase recordType) name' := by
    rw [DnsCache.get, DnsCache.get, DnsCache.key, DnsCache.key, h]
  by_cases hname : resolver.isAuthoritative name = true
  · have hname' := hzone ▸ hname
    cases hcached : cache.get resolver.case now (resolver.case.toUppercase recordType) name with
    | some records =>
      have hcached' := hget.symm.trans hcached
      simp only [resolve, hname, hname', if_true, hcached, hcached']
    | none =>
      rw [resolve_of_miss hname hcached, resolve_of_miss hname' (hget.symm.trans hcached)]
      exact hanswer hname _
  · have hname' : ¬ resolver.isAuthoritative name' = true := hzone ▸ hname
    rw [resolve, resolve, if_neg hname, if_neg hname']

/-- Other types are not implemented. -/
theorem answer_eq_none {G : Type} {resolver : DnsResolver G} {graph : G} {t : String}
    (h : t ∉ dnsTypes) : resolver.answer graph name t = none := by
  simp only [dnsTypes, List.mem_cons, List.not_mem_nil, or_false, not_or] at h
  rw [answer, if_neg h.1, if_neg h.2.1, if_neg h.2.2.1, if_neg h.2.2.2]

theorem eqIgnoreAsciiCase_congr (h : eqIgnoreAsciiCase name name' = true) (text : String) :
    eqIgnoreAsciiCase name text = eqIgnoreAsciiCase name' text := by
  rw [eqIgnoreAsciiCase, eqIgnoreAsciiCase, of_decide_eq_true h]

end DnsResolver

section Answers

variable {srv : GraphServer} {store : Store} {domain : String} {clusterInfo : Option (String × String)}
  {case : TextCase}

/-- The records that a query function makes of the bindings, or none. -/
theorem missReply_query {names : List String} {text : String} {f : List Json → List DnsRecord}
    {g : List Row → List DnsRecord} (hnil : g [] = []) (h : Selects srv text names)
    (hf : ∀ names', names ⊆ names' → f ((rowsOf srv store text).map (rowToJson names')) =
      g (rowsOf srv store text)) :
    missReply (some (((executeQuery srv store text).mapError PiCloudError.display).map f)) =
      replyOf (g (rowsOf srv store text)) := by
  rcases executeQuery_cases h with ⟨e, hquery, hrows⟩ | ⟨names', hnames, hquery⟩
  · rw [hquery, hrows, hnil]
    rfl
  · rw [hquery, ← hf names' hnames]
    rfl

/-- An address is written as an object, or is a quoted triple: no address is seen. -/
theorem missReply_queryA (hreads : ReadsDnsQueries srv store) (name : String) :
    missReply (some ((DnsResolver.projected srv domain clusterInfo case).queryA store name)) =
      .nxDomain := by
  refine missReply_query (g := fun _ => []) rfl (hreads.address name) fun names hnames => ?_
  rw [List.filterMap_map, List.filterMap_eq_nil_iff]
  intro row hrow
  rw [Function.comp, DnsResolver.addressOf, shown_of_rowToJson (hnames (by simp))]
  cases hshown : shownText row "address" with
  | none => rfl
  | some text =>
    have hquoted := hreads.quoted _ row hrow "address" text (shownText_eq_some hshown)
    rw [Option.bind_some, ← portStripped, portStripped_eq_none hquoted]
    rfl

theorem missReply_querySrv (hreads : ReadsDnsQueries srv store) (name : String) :
    missReply (some ((DnsResolver.projected srv domain clusterInfo case).querySrv store name)) =
      replyOf ((serviceRows srv store domain name).map shownService) := by
  rw [DnsResolver.querySrv]
  simp only [DnsResolver.projected, serviceRows]
  cases parseSrvName name domain with
  | none => rfl
  | some parts =>
    obtain ⟨service, proto, product⟩ := parts
    refine missReply_query rfl (hreads.service service product) fun names hnames => ?_
    rw [List.map_map]
    refine List.map_congr_left fun row _ => ?_
    rw [Function.comp, DnsResolver.serviceOf, shownService]
    dsimp only
    rw [shown_of_rowToJson (hnames (by simp)), number_of_rowToJson (hnames (by simp)),
      number_of_rowToJson (hnames (by simp)), number_of_rowToJson (hnames (by simp))]
    rfl

theorem missReply_queryTxt (hreads : ReadsDnsQueries srv store) (name : String) :
    missReply (some ((DnsResolver.projected srv domain clusterInfo case).queryTxt store name)) =
      replyOf (if DnsResolver.eqIgnoreAsciiCase name domain then
        (clusterInfo.map fun info => DnsRecord.txt (formatClusterTxt info.1 info.2)).toList
      else (textRows srv store name).map shownTexts) := by
  by_cases hapex : DnsResolver.eqIgnoreAsciiCase name domain = true
  · rw [if_pos hapex]
    rw [show (DnsResolver.projected srv domain clusterInfo case).queryTxt store name = _ from if_pos hapex]
    cases clusterInfo <;> rfl
  · rw [if_neg hapex]
    have hquery : (DnsResolver.projected srv domain clusterInfo case).queryTxt store name =
        ((executeQuery srv store (bindText txtRecordQuery "$hostname" name)).mapError
          PiCloudError.display).map fun bindings => bindings.map DnsResolver.textOf := if_neg hapex
    rw [hquery]
    refine missReply_query rfl (hreads.text name) fun names hnames => ?_
    rw [List.map_map]
    refine List.map_congr_left fun row _ => ?_
    rw [Function.comp, DnsResolver.textOf, shownTexts, shown_of_rowToJson (hnames (by simp)),
      shown_of_rowToJson (hnames (by simp))]

theorem missReply_queryPtr (hreads : ReadsDnsQueries srv store) (name : String) :
    missReply (some ((DnsResolver.projected srv domain clusterInfo case).queryPtr store name)) =
      replyOf ((pointerRows srv store name).filterMap shownPointer) := by
  rw [DnsResolver.queryPtr]
  simp only [DnsResolver.projected, pointerRows]
  cases parsePtrName name with
  | none => rfl
  | some address =>
    refine missReply_query rfl (hreads.pointer address) fun names hnames => ?_
    rw [List.filterMap_map]
    refine List.filterMap_congr fun row _ => ?_
    rw [Function.comp, shown_of_rowToJson (hnames (by simp)), shownPointer]

variable {t name : String}

theorem missReply_answer (hreads : ReadsDnsQueries srv store) (name : String) (ht : t ∈ dnsTypes) :
    missReply ((DnsResolver.projected srv domain clusterInfo case).answer store name t) =
      replyOf (recordsShown srv store domain clusterInfo name t) := by
  have ht : t = "A" ∨ t = "SRV" ∨ t = "TXT" ∨ t = "PTR" := by simpa [dnsTypes] using ht
  rcases ht with rfl | rfl | rfl | rfl
  · exact missReply_queryA hreads name
  · exact missReply_querySrv hreads name
  · exact missReply_queryTxt hreads name
  · exact missReply_queryPtr hreads name

/-- From an empty cache a name of the zone gets what the resolver makes of the solutions. -/
theorem resolve_empty (hreads : ReadsDnsQueries srv store)
    (hupper : ∀ t ∈ dnsTypes, case.toUppercase t = t)
    (hname : (DnsResolver.projected srv domain clusterInfo case).isAuthoritative name = true)
    (ht : t ∈ dnsTypes) (ttl now : ℕ) :
    ((DnsResolver.projected srv domain clusterInfo case).resolve store ⟨[], ttl⟩ now name t).1 =
      replyOf (recordsShown srv store domain clusterInfo name t) := by
  have hcase : (DnsResolver.projected srv domain clusterInfo case).case.toUppercase t = t := hupper t ht
  rw [DnsResolver.resolve_of_miss hname rfl, hcase]
  exact missReply_answer hreads name ht

/-- The resolver answers as the graph from an empty cache exactly when the records agree. -/
theorem answers_iff (hreads : ReadsDnsQueries srv store)
    (hupper : ∀ t ∈ dnsTypes, case.toUppercase t = t)
    (hname : (DnsResolver.projected srv domain clusterInfo case).isAuthoritative name = true)
    (ht : t ∈ dnsTypes) :
    (∀ ttl now,
      ((DnsResolver.projected srv domain clusterInfo case).resolve store ⟨[], ttl⟩ now name t).1 =
        replyOf (recordsFound srv store domain clusterInfo case name t)) ↔
      recordsFound srv store domain clusterInfo case name t =
        recordsShown srv store domain clusterInfo name t := by
  constructor
  · intro h
    have hanswer := h 0 0
    rw [resolve_empty hreads hupper hname ht] at hanswer
    exact (replyOf_injective hanswer).symm
  · intro h ttl now
    rw [resolve_empty hreads hupper hname ht, h]

/-- What is found and what is shown, type by type. -/
theorem recordsFound_eq_iff (name : String) :
    (∀ t ∈ dnsTypes, recordsFound srv store domain clusterInfo case name t =
      recordsShown srv store domain clusterInfo name t) ↔
      (∀ row ∈ addressRows srv store (case.toLowercase name), ∀ t, row.get "address" = some t →
        portStripped (termText t) = none) ∧
      List.Forall₂ BlankService (serviceRows srv store domain (case.toLowercase name))
        (serviceRows srv store domain name) ∧
      (DnsResolver.eqIgnoreAsciiCase name domain = false →
        List.Forall₂ BlankText (textRows srv store (case.toLowercase name))
          (textRows srv store name)) ∧
      (pointerRows srv store (case.toLowercase name)).filterMap (valueText · "hostname") =
        (pointerRows srv store name).filterMap (quotedText · "hostname") := by
  simp only [← addressRecord_eq_none_iff, ← List.filterMap_eq_nil_iff, ← pointerRecord_eq_iff,
    ← serviceRecord_eq_iff, ← textRecord_eq_iff]
  cases hapex : DnsResolver.eqIgnoreAsciiCase name domain <;>
    simp [dnsTypes, recordsFound, recordsShown, hapex]

theorem recordsFound_congr {name' : String} (h : case.toLowercase name = case.toLowercase name')
    (hsame : DnsResolver.eqIgnoreAsciiCase name name' = true) :
    recordsFound srv store domain clusterInfo case name t =
      recordsFound srv store domain clusterInfo case name' t := by
  rw [recordsFound, recordsFound, h, DnsResolver.eqIgnoreAsciiCase_congr hsame]

theorem recordsShown_ptr (name : String) : recordsShown srv store domain clusterInfo name "PTR" =
    (pointerRows srv store name).filterMap shownPointer := by
  simp [recordsShown]

/-- A hostname is no quoted triple. -/
theorem ptr_notMem_shown (hreads : ReadsDnsQueries srv store) {hostname : String}
    (h : '<' ∉ hostname.toList) :
    DnsRecord.ptr hostname ∉ (pointerRows srv store name).filterMap shownPointer := by
  intro hmem
  obtain ⟨row, hrow, hshown⟩ := List.mem_filterMap.mp hmem
  obtain ⟨text, htext, heq⟩ := Option.map_eq_some_iff.mp hshown
  cases heq
  have hfound : ∃ query, row ∈ rowsOf srv store query := by
    rw [pointerRows] at hrow
    split at hrow
    · exact absurd hrow List.not_mem_nil
    · exact ⟨_, hrow⟩
  obtain ⟨query, hquery⟩ := hfound
  have hquoted := hreads.quoted query row hquery "hostname" hostname (shownText_eq_some htext)
  exact h (List.mem_of_head? hquoted)

/-- **The resolver answers as the graph exactly when there is nothing to answer.** From an empty cache
every name of the zone gets the records of its name in lower case, letter case makes no difference in any
state of the cache and reverse names lead to their nodes, if and only if no name of the zone has an
IPv4 address in the graph, no node is registered under an address, and the services, texts and hostnames
of a name in lower case are blank, or quoted as triples for the name as it is written. -/
theorem answersAsGraph_iff (hreads : ReadsDnsQueries srv store)
    (hupper : ∀ t ∈ dnsTypes, case.toUppercase t = t)
    (hlower : ∀ name name', DnsResolver.eqIgnoreAsciiCase name name' = true →
      case.toLowercase name = case.toLowercase name') :
    AnswersAsGraph srv store domain clusterInfo case ↔ DnsSilent srv store domain clusterInfo case := by
  constructor
  · intro hanswers
    have hfound : ∀ name,
        (DnsResolver.projected srv domain clusterInfo case).isAuthoritative name = true →
        ∀ t ∈ dnsTypes, recordsFound srv store domain clusterInfo case name t =
          recordsShown srv store domain clusterInfo name t := fun name hname t ht =>
      (answers_iff hreads hupper hname ht).mp (hanswers.answers name hname t ht)
    refine ⟨fun name hname => ((recordsFound_eq_iff name).mp (hfound name hname)).1,
      fun name hname => ((recordsFound_eq_iff name).mp (hfound name hname)).2.1,
      fun name hname => ((recordsFound_eq_iff name).mp (hfound name hname)).2.2.1,
      fun name hname => ((recordsFound_eq_iff name).mp (hfound name hname)).2.2.2, ?_⟩
    intro a b c d hostname ha hb hc hd hnode
    obtain ⟨records, hrecords, hmem⟩ := hanswers.reverse a b c d hostname ha hb hc hd hnode 0 0
    -- outside the zone there is no answer, and inside it no hostname is seen
    by_cases hzone : (DnsResolver.projected srv domain clusterInfo case).isAuthoritative
        (dotted [d, c, b, a] ++ ".in-addr.arpa") = true
    · obtain ⟨node, hhostname, -⟩ := hnode
      rw [resolve_empty hreads hupper hzone (by simp [dnsTypes])] at hrecords
      have hshown := eq_of_replyOf hrecords
      rw [hshown, recordsShown_ptr] at hmem
      exact ptr_notMem_shown hreads hhostname hmem
    · rw [DnsResolver.resolve, if_neg hzone] at hrecords
      cases hrecords
  · intro hsilent
    have hfound : ∀ name,
        (DnsResolver.projected srv domain clusterInfo case).isAuthoritative name = true →
        ∀ t ∈ dnsTypes, recordsFound srv store domain clusterInfo case name t =
          recordsShown srv store domain clusterInfo name t := fun name hname =>
      (recordsFound_eq_iff name).mpr ⟨hsilent.addresses name hname, hsilent.services name hname,
        hsilent.texts name hname, hsilent.pointers name hname⟩
    refine ⟨fun name hname t ht => (answers_iff hreads hupper hname ht).mpr (hfound name hname t ht),
      fun cache now name name' recordType hsame => ?_, fun a b c d hostname ha hb hc hd hnode =>
        absurd hnode (hsilent.nodes a b c d hostname ha hb hc hd)⟩
    refine DnsResolver.resolve_congr (hlower name name' hsame) (fun hname t => ?_) cache now recordType
    by_cases ht : t ∈ dnsTypes
    · have hname' : (DnsResolver.projected srv domain clusterInfo case).isAuthoritative name' = true :=
        (DnsResolver.isAuthoritative_congr (hlower name name' hsame)).symm.trans hname
      rw [missReply_answer hreads name ht, missReply_answer hreads name' ht, ← hfound name hname t ht,
        ← hfound name' hname' t ht, recordsFound_congr (hlower name name' hsame) hsame]
    · rw [DnsResolver.answer_eq_none ht, DnsResolver.answer_eq_none ht]

end Answers

/-! ## A cluster without nodes, and one with a node -/

/-- The variables of the four queries. -/
def dnsVariables : List String :=
  ["address", "target", "port", "priority", "weight", "key", "value", "hostname"]

/-- A server that finds the addresses of one node, and nothing else. -/
def dnsServer : GraphServer where
  iris := ⟨"picloud.local"⟩
  validate := none
  hasProjector := true
  parse := fun text => .ok ⟨none, .basic fun _ active => active.filterMap fun t =>
    if text = bindText aRecordQuery "$hostname" "rpi-1.picloud.local" ∧
        t.predicate.value = pc "nodeAddress" then some [("address", t.object)]
    else none, .select dnsVariables⟩
  jsonText := fun _ => ""
  prettyText := fun _ => ""
  turtleText := fun _ => .error ""

theorem rowsOf_dnsServer (store : Store) (text : String) : rowsOf dnsServer store text =
    (triplesIn store .default).filterMap fun t =>
      if text = bindText aRecordQuery "$hostname" "rpi-1.picloud.local" ∧
          t.predicate.value = pc "nodeAddress" then some [("address", t.object)]
      else none := rfl

/-- The solutions of the server are addresses of the graph. -/
theorem mem_rowsOf_dnsServer {store : Store} {text : String} {row : Row}
    (h : row ∈ rowsOf dnsServer store text) : ∃ q ∈ store, row = [("address", q.object)] := by
  rw [rowsOf_dnsServer] at h
  obtain ⟨t, ht, heq⟩ := List.mem_filterMap.mp h
  obtain ⟨q, hq, rfl⟩ := List.mem_map.mp ht
  split_ifs at heq
  exact ⟨q, (List.mem_filter.mp hq).1, (Option.some.inj heq).symm⟩

theorem readsDnsQueries_dnsServer {store : Store} (h : ∀ q ∈ store, ∀ text, q.object ≠ .triple text) :
    ReadsDnsQueries dnsServer store := by
  have hselects : ∀ text vars, vars ⊆ dnsVariables → Selects dnsServer text vars := by
    intro text vars hvars q hparse
    cases hparse
    exact ⟨_, rfl, hvars⟩
  refine ⟨fun name => hselects _ _ (by decide), fun service product => hselects _ _ (by decide),
    fun name => hselects _ _ (by decide), fun address => hselects _ _ (by decide), ?_⟩
  intro text row hrow name quoted hvalue
  obtain ⟨q, hq, rfl⟩ := mem_rowsOf_dnsServer hrow
  have hobject : q.object = .triple quoted := by
    rw [Assoc.get, List.find?_cons] at hvalue
    split at hvalue
    · exact Option.some.inj hvalue
    · cases hvalue
  exact absurd hobject (h q hq quoted)

theorem asciiCase_toUppercase : ∀ t ∈ dnsTypes, DnsResolver.asciiCase.toUppercase t = t := by
  decide +kernel

theorem asciiCase_toLowercase {name name' : String}
    (h : DnsResolver.eqIgnoreAsciiCase name name' = true) :
    DnsResolver.asciiCase.toLowercase name = DnsResolver.asciiCase.toLowercase name' :=
  congrArg String.ofList (of_decide_eq_true h)

/-- A graph with a node under an IPv6 address. -/
def farNodeStore : Store :=
  [⟨.named ⟨"https://picloud.local/nodes/rpi-1"⟩, ⟨rdfType⟩, .named ⟨pc "Node"⟩, .default⟩,
    ⟨.named ⟨"https://picloud.local/nodes/rpi-1"⟩, ⟨pc "nodeAddress"⟩, simple "fe80::1", .default⟩,
    ⟨.named ⟨"https://picloud.local/nodes/rpi-1"⟩, ⟨pc "hostname"⟩, simple "rpi-1.picloud.local",
      .default⟩]

/-- Numbers with dots between them have no colon. -/
theorem colon_notMem_dotted (octets : List ℕ) : ':' ∉ (dotted octets).toList := by
  have hdigits : ∀ n : ℕ, ':' ∉ (toString n).toList := by
    intro n hcolon
    rw [toList_natText] at hcolon
    exact absurd (Nat.isDigit_of_mem_toDigits (by decide) (by decide) hcolon) (by decide)
  rw [dotted, String.toList_ofList]
  induction octets with
  | nil => simp [List.intercalate]
  | cons n octets ih =>
    cases octets with
    | nil => simpa [List.intercalate] using hdigits n
    | cons n' octets =>
      rw [List.map_cons, List.map_cons, List.intercalate_cons_cons]
      simp only [List.mem_append, not_or]
      exact ⟨⟨hdigits n, by decide⟩, ih⟩

/-- Of a node without an IPv4 address the resolver answers what there is. -/
theorem answersAsGraph_farNode :
    AnswersAsGraph dnsServer farNodeStore "picloud.local" (some ("c1", "0.1.0"))
      DnsResolver.asciiCase := by
  have hreads : ReadsDnsQueries dnsServer farNodeStore := by
    refine readsDnsQueries_dnsServer fun q hq text => ?_
    simp only [farNodeStore, List.mem_cons, List.not_mem_nil, or_false] at hq
    rcases hq with rfl | rfl | rfl <;> simp [simple]
  -- only the query for the addresses of the node finds something
  have hrows : ∀ text, text ≠ bindText aRecordQuery "$hostname" "rpi-1.picloud.local" →
      rowsOf dnsServer farNodeStore text = [] := by
    intro text htext
    rw [rowsOf_dnsServer, List.filterMap_eq_nil_iff]
    exact fun t _ => if_neg fun h => htext h.1
  refine (answersAsGraph_iff hreads asciiCase_toUppercase fun name name' => asciiCase_toLowercase).mpr
    ⟨fun name _ row hrow t ht => ?_, fun name _ => ?_, fun name _ _ => ?_, fun name _ => ?_, ?_⟩
  · obtain ⟨q, hq, rfl⟩ := mem_rowsOf_dnsServer hrow
    obtain rfl : q.object = t := Option.some.inj ht
    simp only [farNodeStore, List.mem_cons, List.not_mem_nil, or_false] at hq
    rcases hq with rfl | rfl | rfl <;> decide +kernel
  · have hnone : ∀ name', serviceRows dnsServer farNodeStore "picloud.local" name' = [] := by
      intro name'
      rw [serviceRows]
      split
      · rfl
      · exact hrows _ (ne_of_selectHead (selectHead_service _ _))
    rw [hnone, hnone]
    exact List.Forall₂.nil
  · have hnone : ∀ name', textRows dnsServer farNodeStore name' = [] := fun name' =>
      hrows _ (ne_of_selectHead (selectHead_text name'))
    rw [hnone, hnone]
    exact List.Forall₂.nil
  · have hnone : ∀ name', pointerRows dnsServer farNodeStore name' = [] := by
      intro name'
      rw [pointerRows]
      split
      · rfl
      · exact hrows _ (ne_of_selectHead (selectHead_pointer _))
    rw [hnone, hnone]
    rfl
  · rintro a b c d hostname - - - - ⟨node, -, hnode⟩
    have hmem := hnode _ (List.mem_cons_of_mem _ List.mem_cons_self)
    simp only [farNodeStore, List.mem_cons, List.not_mem_nil, or_false, Quad.mk.injEq, simple,
      Term.literal.injEq, Literal.mk.injEq, NamedNode.mk.injEq, pc_ne_rdfType, pc_inj, and_true,
      false_and, and_false, false_or] at hmem
    rcases hmem with ⟨-, -, haddress⟩ | ⟨-, hproperty, -⟩
    · exact colon_notMem_dotted [a, b, c, d] (haddress ▸ by decide +kernel)
    · exact absurd hproperty (by decide)

/-- A graph with a node. -/
def nodeStore : Store :=
  [⟨.named ⟨"https://picloud.local/nodes/rpi-1"⟩, ⟨rdfType⟩, .named ⟨pc "Node"⟩, .default⟩,
    ⟨.named ⟨"https://picloud.local/nodes/rpi-1"⟩, ⟨pc "nodeAddress"⟩, simple "192.168.1.10", .default⟩,
    ⟨.named ⟨"https://picloud.local/nodes/rpi-1"⟩, ⟨pc "hostname"⟩, simple "rpi-1.picloud.local",
      .default⟩]

/-- The graph has the address of the node, and the resolver answers that there is no such name; nor does
it know the reverse name. -/
theorem not_answersAsGraph_node :
    (DnsResolver.projected dnsServer "picloud.local" none DnsResolver.asciiCase).isAuthoritative
      "rpi-1.picloud.local" = true ∧
    recordsFound dnsServer nodeStore "picloud.local" none DnsResolver.asciiCase "rpi-1.picloud.local" "A" =
      [.a ⟨[192, 168, 1, 10]⟩] ∧
    ((DnsResolver.projected dnsServer "picloud.local" none DnsResolver.asciiCase).resolve nodeStore ⟨[], 30⟩ 0
      "rpi-1.picloud.local" "A").1 = .nxDomain ∧
    NodeRegistered nodeStore (dotted [192, 168, 1, 10]) "rpi-1.picloud.local" ∧
    ((DnsResolver.projected dnsServer "picloud.local" none DnsResolver.asciiCase).resolve nodeStore ⟨[], 30⟩ 0
      (dotted [10, 1, 168, 192] ++ ".in-addr.arpa") "PTR").1 = .nxDomain ∧
    ¬ AnswersAsGraph dnsServer nodeStore "picloud.local" none DnsResolver.asciiCase := by
  have hreads : ReadsDnsQueries dnsServer nodeStore := by
    refine readsDnsQueries_dnsServer fun q hq text => ?_
    simp only [nodeStore, List.mem_cons, List.not_mem_nil, or_false] at hq
    rcases hq with rfl | rfl | rfl <;> simp [simple]
  have hzone : (DnsResolver.projected dnsServer "picloud.local" none DnsResolver.asciiCase).isAuthoritative
      "rpi-1.picloud.local" = true := by decide +kernel
  have hfound : recordsFound dnsServer nodeStore "picloud.local" none DnsResolver.asciiCase "rpi-1.picloud.local"
      "A" = [.a ⟨[192, 168, 1, 10]⟩] := by
    have hlower : DnsResolver.asciiCase.toLowercase "rpi-1.picloud.local" = "rpi-1.picloud.local" := by
      decide +kernel
    have hrows : addressRows dnsServer nodeStore "rpi-1.picloud.local" =
        [[("address", simple "192.168.1.10")]] := by
      rw [addressRows, rowsOf_dnsServer]
      simp only [true_and]
      decide +kernel
    rw [recordsFound, if_pos rfl, hlower, hrows]
    decide +kernel
  have hnone : ∀ ttl now, ((DnsResolver.projected dnsServer "picloud.local" none DnsResolver.asciiCase).resolve
      nodeStore ⟨[], ttl⟩ now "rpi-1.picloud.local" "A").1 = .nxDomain := fun ttl now =>
    (resolve_empty hreads asciiCase_toUppercase hzone (by decide) ttl now).trans rfl
  have hreverse : (DnsResolver.projected dnsServer "picloud.local" none DnsResolver.asciiCase).isAuthoritative
      (dotted [10, 1, 168, 192] ++ ".in-addr.arpa") = false := by decide +kernel
  refine ⟨hzone, hfound, hnone 30 0, ⟨.named ⟨"https://picloud.local/nodes/rpi-1"⟩, ?_, ?_⟩, ?_, ?_⟩
  · decide +kernel
  · decide +kernel
  · rw [DnsResolver.resolve, hreverse]
    rfl
  · intro hanswers
    have hanswer := hanswers.answers "rpi-1.picloud.local" hzone "A" (by decide) 30 0
    rw [hnone, hfound] at hanswer
    exact absurd hanswer (by decide)

end Picloud
