import Picloud.Domain.Payload
import Picloud.Lib.Assoc
import Picloud.Lib.Split
import Picloud.Lib.Texts

/-!
# The DNS resolver and its cache

Reference: `picloud-network/src/dns`. A name of the cluster is looked up in the cache and then in the RDF
graph, and what is found there is cached for thirty seconds. Platform events invalidate the hostname that
their payload leads to.

The query engine is a parameter that answers a SPARQL text over a graph; upper and lower case are
parameters, too. Times are counted in any unit.
-/

namespace Picloud

open Lib

/-! ## Records -/

/-- `Ipv4Addr`. -/
structure Ipv4Addr where
  octets : List ℕ
deriving DecidableEq

/-- `DnsRecord`. -/
inductive DnsRecord where
  | a (address : Ipv4Addr)
  | srv (target : String) (port priority weight : ℕ)
  | txt (text : String)
  | ptr (name : String)
deriving DecidableEq

/-- An octet of an address: up to three digits, without a leading zero. -/
def parseOctet (digits : List Char) : Option ℕ :=
  let value := digits.foldl (fun n c => 10 * n + (c.toNat - '0'.toNat)) 0
  if digits ≠ [] ∧ digits.length ≤ 3 ∧ (∀ c ∈ digits, c.isDigit) ∧
      (digits.head? = some '0' → digits.length = 1) ∧ value ≤ 255 then some value
  else none

/-- `str::parse::<Ipv4Addr>`. -/
def parseIpv4 (text : String) : Option Ipv4Addr :=
  let parts := text.toList.splitOn '.'
  if parts.length = 4 then (parts.mapM parseOctet).map Ipv4Addr.mk else none

/-! ## Queries -/

/-- `A_RECORD_QUERY`. -/
def aRecordQuery : String := "\n".intercalate [
  "",
  "PREFIX pc: <https://picloud.local/ontology#>",
  "PREFIX rdfs: <http://www.w3.org/2000/01/rdf-schema#>",
  "SELECT ?address WHERE \x7b",
  "    \x7b",
  "        # Ingress hostname -> workload node address",
  "        ?ingress a pc:Ingress ;",
  "                 pc:hostname ?hostname ;",
  "                 pc:ingressAddress ?address .",
  "        FILTER(?hostname = $hostname)",
  "    \x7d UNION \x7b",
  "        # Node hostname -> node address",
  "        ?node a pc:Node ;",
  "              pc:hostname ?hostname ;",
  "              pc:nodeAddress ?address .",
  "        FILTER(?hostname = $hostname)",
  "    \x7d UNION \x7b",
  "        # Product hostname -> product endpoint",
  "        ?product a pc:Product ;",
  "                 pc:hostname ?hostname ;",
  "                 pc:nodeAddress ?address .",
  "        FILTER(?hostname = $hostname)",
  "    \x7d",
  "\x7d",
  ""]

/-- `SRV_RECORD_QUERY`. -/
def srvRecordQuery : String := "\n".intercalate [
  "",
  "PREFIX pc: <https://picloud.local/ontology#>",
  "SELECT ?target ?port ?priority ?weight WHERE \x7b",
  "    ?service a pc:Service ;",
  "             pc:serviceType ?svc_type ;",
  "             pc:product ?product ;",
  "             pc:target ?target ;",
  "             pc:port ?port .",
  "    OPTIONAL \x7b ?service pc:priority ?priority \x7d",
  "    OPTIONAL \x7b ?service pc:weight ?weight \x7d",
  "    FILTER(?svc_type = $service_type && ?product = $product)",
  "\x7d",
  ""]

/-- `TXT_RECORD_QUERY`. -/
def txtRecordQuery : String := "\n".intercalate [
  "",
  "PREFIX pc: <https://picloud.local/ontology#>",
  "SELECT ?key ?value WHERE \x7b",
  "    \x7b",
  "        ?product a pc:Product ;",
  "                 pc:hostname ?hostname ;",
  "                 pc:version ?value .",
  "        BIND(\"version\" AS ?key)",
  "        FILTER(?hostname = $hostname)",
  "    \x7d UNION \x7b",
  "        ?product a pc:Product ;",
  "                 pc:hostname ?hostname ;",
  "                 pc:ontologyIri ?value .",
  "        BIND(\"ontology\" AS ?key)",
  "        FILTER(?hostname = $hostname)",
  "    \x7d",
  "\x7d",
  ""]

/-- `PTR_RECORD_QUERY`. -/
def ptrRecordQuery : String := "\n".intercalate [
  "",
  "PREFIX pc: <https://picloud.local/ontology#>",
  "SELECT ?hostname WHERE \x7b",
  "    \x7b",
  "        ?node a pc:Node ;",
  "              pc:nodeAddress ?address ;",
  "              pc:hostname ?hostname .",
  "        FILTER(?address = $address)",
  "    \x7d UNION \x7b",
  "        ?ingress a pc:Ingress ;",
  "                 pc:ingressAddress ?address ;",
  "                 pc:hostname ?hostname .",
  "        FILTER(?address = $address)",
  "    \x7d",
  "\x7d",
  ""]

/-- A parameter of a query is replaced by a quoted text. -/
def bindText (query parameter text : String) : String :=
  String.ofList (replaceAll parameter.toList ("\"" ++ text ++ "\"").toList query.toList)

/-- `strip_suffix`. -/
def stripSuffixText (text ending : List Char) : Option (List Char) :=
  if ending <:+ text then some (text.take (text.length - ending.length)) else none

/-- `parse_srv_name`: the service, the protocol and the product. -/
def parseSrvName (name domain : String) : Option (String × String × String) :=
  match stripSuffixText name.toList ('.' :: domain.toList) with
  | none => none
  | some labels =>
    match breakOn ['.'] labels with
    | none => none
    | some (service, rest) =>
      match breakOn ['.'] rest, service with
      | some ('_' :: proto, product), '_' :: service =>
        some (String.ofList service, String.ofList proto, String.ofList product)
      | _, _ => none

/-- `parse_ptr_name`. -/
def parsePtrName (name : String) : Option String :=
  match stripSuffixText name.toList ".in-addr.arpa".toList with
  | none => none
  | some labels =>
    let octets := labels.splitOn '.'
    if octets.length = 4 then some (String.ofList (List.intercalate ['.'] octets.reverse)) else none

/-- `format_product_txt`. -/
def formatProductTxt (key value : String) : String := key ++ "=" ++ value

/-- `format_cluster_txt`. -/
def formatClusterTxt (clusterId version : String) : String :=
  "cluster_id=" ++ clusterId ++ " version=" ++ version

/-! ## The resolver -/

/-- Upper and lower case of texts. -/
structure TextCase where
  toUppercase : String → String
  toLowercase : String → String
  /-- Upper case is upper case. -/
  upper_upper : ∀ text, toUppercase (toUppercase text) = toUppercase text

/-- `DnsResolver`, over graphs of a kind. The cluster id and the version are set together. -/
structure DnsResolver (G : Type) where
  domain : String
  sparqlQuery : Option (G → String → Except String (List Json))
  clusterInfo : Option (String × String)
  case : TextCase

/-- `ResolveResult`. -/
inductive ResolveResult where
  | records (records : List DnsRecord) (ttl : ℕ)
  | nxDomain
  | notImplemented
deriving DecidableEq

namespace DnsResolver

variable {G : Type} (resolver : DnsResolver G) (graph : G) (name : String)

/-- `is_authoritative`. -/
def isAuthoritative : Bool :=
  let lower := resolver.case.toLowercase name
  decide (lower = resolver.domain ∨ ("." ++ resolver.domain).toList <:+ lower.toList)

/-- The address that a binding gives, without its port. -/
def addressOf (binding : Json) : Option Ipv4Addr :=
  ((binding.get? "address").bind Json.asStr).bind fun address =>
    parseIpv4 (String.ofList (address.toList.takeWhile (· ≠ ':')))

/-- `query_a`. -/
def queryA : Except String (List DnsRecord) :=
  match resolver.sparqlQuery with
  | none => .ok []
  | some query => (query graph (bindText aRecordQuery "$hostname" name)).map fun bindings =>
      bindings.filterMap fun binding => (addressOf binding).map DnsRecord.a

/-- The service that a binding gives; the numbers are cut to sixteen bits. -/
def serviceOf (binding : Json) : DnsRecord :=
  let number (key : String) (fallback : ℕ) := (((binding.get? key).bind Json.asU64).getD fallback) % 2 ^ 16
  .srv (((binding.get? "target").bind Json.asStr).getD "") (number "port" 0) (number "priority" 10)
    (number "weight" 10)

/-- `query_srv`. -/
def querySrv : Except String (List DnsRecord) :=
  match resolver.sparqlQuery with
  | none => .ok []
  | some query =>
    match parseSrvName name resolver.domain with
    | none => .ok []
    | some (service, _, product) =>
      (query graph (bindText (bindText srvRecordQuery "$service_type" service) "$product" product)).map
        fun bindings => bindings.map serviceOf

/-- The text that a binding gives. -/
def textOf (binding : Json) : DnsRecord :=
  .txt (formatProductTxt (((binding.get? "key").bind Json.asStr).getD "")
    (((binding.get? "value").bind Json.asStr).getD ""))

/-- `eq_ignore_ascii_case`. -/
def eqIgnoreAsciiCase (s t : String) : Bool := decide (s.toList.map Char.toLower = t.toList.map Char.toLower)

/-- `query_txt`. -/
def queryTxt : Except String (List DnsRecord) :=
  if eqIgnoreAsciiCase name resolver.domain then
    match resolver.clusterInfo with
    | some (clusterId, version) => .ok [.txt (formatClusterTxt clusterId version)]
    | none => .ok []
  else
    match resolver.sparqlQuery with
    | none => .ok []
    | some query => (query graph (bindText txtRecordQuery "$hostname" name)).map fun bindings =>
        bindings.map textOf

/-- `query_ptr`. -/
def queryPtr : Except String (List DnsRecord) :=
  match resolver.sparqlQuery with
  | none => .ok []
  | some query =>
    match parsePtrName name with
    | none => .ok []
    | some address => (query graph (bindText ptrRecordQuery "$address" address)).map fun bindings =>
        bindings.filterMap fun binding =>
          ((binding.get? "hostname").bind Json.asStr).map DnsRecord.ptr

/-- The records of a type, or `none` for a type that is not implemented. -/
def answer (recordType : String) : Option (Except String (List DnsRecord)) :=
  if recordType = "A" then some (resolver.queryA graph name)
  else if recordType = "SRV" then some (resolver.querySrv graph name)
  else if recordType = "TXT" then some (resolver.queryTxt graph name)
  else if recordType = "PTR" then some (resolver.queryPtr graph name)
  else none

end DnsResolver

/-! ## The cache -/

/-- `CacheEntry`. -/
structure CacheEntry where
  records : List DnsRecord
  insertedAt : ℕ
  ttl : ℕ
deriving DecidableEq

/-- `CacheEntry::is_expired`. -/
def CacheEntry.isExpired (entry : CacheEntry) (now : ℕ) : Bool := decide (entry.ttl < now - entry.insertedAt)

/-- `DnsCache`, by record types and hostnames. -/
structure DnsCache where
  entries : Assoc (String × String) CacheEntry
  ttl : ℕ
deriving DecidableEq

namespace DnsCache

variable (case : TextCase) (cache : DnsCache)

/-- The key of an entry. -/
def key (recordType hostname : String) : String × String :=
  (case.toUppercase recordType, case.toLowercase hostname)

/-- `DnsCache::get`. -/
def get (now : ℕ) (recordType hostname : String) : Option (List DnsRecord) :=
  match Assoc.get cache.entries (key case recordType hostname) with
  | some entry => if entry.isExpired now then none else some entry.records
  | none => none

/-- `DnsCache::insert`. -/
def insert (now : ℕ) (recordType hostname : String) (records : List DnsRecord) : DnsCache :=
  let entry : CacheEntry := ⟨records, now, cache.ttl⟩
  { cache with entries := Assoc.set cache.entries (key case recordType hostname) entry }

/-- `DnsCache::invalidate`. -/
def invalidate (hostname : String) : DnsCache :=
  { cache with entries := cache.entries.filter fun e => e.1.2 ≠ case.toLowercase hostname }

/-- `DnsCache::evict_expired`. -/
def evictExpired (now : ℕ) : DnsCache :=
  { cache with entries := cache.entries.filter fun e => ¬ e.2.isExpired now }

end DnsCache

/-! ## Events -/

/-- `DNS_INVALIDATION_EVENTS`. -/
def dnsInvalidationEvents : List String :=
  ["WorkloadRescheduled", "IngressCreated", "IngressUpdated", "IngressDeleted", "NodeJoined", "NodeLeft",
    "ProductDeployed", "ProductUpgradeCompleted", "StagingDeploymentReady", "StagingTeardownCompleted"]

/-- `payload.get(key).and_then(|v| v.as_str())`. -/
def payloadText (payload : Json) (key : String) : Option String := (payload.get? key).bind Json.asStr

/-- The hostname of the last segment of an IRI in the payload, or of a name. -/
def segmentHost (domain : String) (payload : Json) (key : String) : Option String :=
  (payloadText payload key).map fun iri => lastSegment iri ++ "." ++ domain

/-- The hostname that an event invalidates. -/
def invalidatedHost (domain eventType : String) (payload : Json) : Option String :=
  if eventType = "WorkloadRescheduled" then segmentHost domain payload "workload_iri"
  else if eventType = "IngressCreated" ∨ eventType = "IngressUpdated" ∨ eventType = "IngressDeleted" then
    payloadText payload "hostname"
  else if eventType = "NodeJoined" ∨ eventType = "NodeLeft" then
    (payloadText payload "node_name").map fun nodeName => nodeName ++ "." ++ domain
  else if eventType = "ProductDeployed" ∨ eventType = "ProductUpgradeCompleted" then
    segmentHost domain payload "product_iri"
  else if eventType = "StagingDeploymentReady" ∨ eventType = "StagingTeardownCompleted" then
    match payloadText payload "hostname" with
    | some hostname => some hostname
    | none => (payloadText payload "product_name").map fun productName =>
        "staging." ++ productName ++ "." ++ domain
  else none

/-- `handle_event`. -/
def handleDnsEvent (case : TextCase) (cache : DnsCache) (domain eventType : String) (payload : Json) :
    DnsCache :=
  match invalidatedHost domain eventType payload with
  | some hostname => cache.invalidate case hostname
  | none => cache

end Picloud
