import Picloud.Domain.Event
import Picloud.Lib.Assoc
import Mathlib.Algebra.GroupWithZero.Nat

/-!
# The ingress router

Reference: `IngressRouter` of `picloud-http/src/router.rs`. Every call holds the write locks of the
tables it changes, so the calls are functions on the whole state.
-/

namespace Picloud

open Lib

/-- `RouteEntry`. -/
structure RouteEntry where
  pathPrefix : String
  upstreamAddr : String
  upstreamPort : UInt16
  product : String
  internal : Bool
  ingressIri : ResourceIri
deriving DecidableEq

/-- `IngressRouter`: the external routes by hostname, and the internal ones. -/
structure IngressRouter where
  external : Assoc String (List RouteEntry)
  internal : List RouteEntry

/-- `Iterator::max_by_key`: of several greatest elements, the last. -/
def maxByKey {α : Type} (key : α → ℕ) : List α → Option α
  | [] => none
  | a :: l =>
    match maxByKey key l with
    | none => some a
    | some b => if key b < key a then some a else some b

namespace IngressRouter

/-- `IngressRouter::new`. -/
def new : IngressRouter := ⟨[], []⟩

/-- `path.starts_with(&r.path_prefix)`. -/
def startsWith (path : String) (r : RouteEntry) : Bool := r.pathPrefix.toList.isPrefixOf path.toList

/-- The best of some routes for a path; the length of a prefix is its length in bytes. -/
def best (path : String) (routes : List RouteEntry) : Option RouteEntry :=
  maxByKey (fun r => r.pathPrefix.utf8ByteSize) (routes.filter (startsWith path))

/-- `lookup`. -/
def lookup (router : IngressRouter) (host path : String) : Option RouteEntry :=
  (Assoc.get router.external host).bind (best path)

/-- `lookup_internal`. -/
def lookupInternal (router : IngressRouter) (path : String) : Option RouteEntry :=
  best path router.internal

/-- `retain(|r| r.ingress_iri != ingress_iri)`. -/
def without (ingressIri : ResourceIri) (routes : List RouteEntry) : List RouteEntry :=
  routes.filter fun r => r.ingressIri ≠ ingressIri

/-- `upsert_route`. -/
def upsertRoute (router : IngressRouter) (hostname : String) (entry : RouteEntry) : IngressRouter :=
  if entry.internal then
    { router with internal := without entry.ingressIri router.internal ++ [entry] }
  else
    let routes := (Assoc.get router.external hostname).getD []
    { router with
      external := Assoc.set router.external hostname (without entry.ingressIri routes ++ [entry]) }

/-- `remove_route`: hostnames without routes are removed too. -/
def removeRoute (router : IngressRouter) (ingressIri : ResourceIri) : IngressRouter where
  external := (router.external.map fun e => (e.1, without ingressIri e.2)).filter fun e => e.2 ≠ []
  internal := without ingressIri router.internal

/-- The upstream of a route after a workload has moved. -/
def moveUpstream (oldAddr newAddr : String) (route : RouteEntry) : RouteEntry :=
  if route.upstreamAddr = oldAddr then { route with upstreamAddr := newAddr } else route

/-- `update_upstream`. -/
def updateUpstream (router : IngressRouter) (oldAddr newAddr : String) : IngressRouter where
  external := router.external.map fun e => (e.1, e.2.map (moveUpstream oldAddr newAddr))
  internal := router.internal.map (moveUpstream oldAddr newAddr)

/-- `route_count`. -/
def routeCount (router : IngressRouter) : ℕ :=
  (router.external.map fun e => e.2.length).sum + router.internal.length

end IngressRouter

/-- A call to the router. -/
inductive RouterCall where
  | upsert (hostname : String) (entry : RouteEntry)
  | remove (ingressIri : ResourceIri)
  | updateUpstream (oldAddr newAddr : String)
deriving DecidableEq

/-- The router after a call. -/
def IngressRouter.call (router : IngressRouter) : RouterCall → IngressRouter
  | .upsert hostname entry => router.upsertRoute hostname entry
  | .remove ingressIri => router.removeRoute ingressIri
  | .updateUpstream oldAddr newAddr => router.updateUpstream oldAddr newAddr

end Picloud
