import Picloud.Ingress.Router
import Picloud.Lib.Steps
import Mathlib.Data.Set.Card

/-!
# The router as a map

The tables are there to hold one route for each ingress. `RouteMap` says so; the tables represent it
as long as no ingress is moved to another host, or between the external and the internal table.
-/

namespace Picloud

open Lib

/-- The host of a route; an internal route has none. -/
abbrev RouteHost := Option String

/-- The route of each ingress. -/
abbrev RouteMap := ResourceIri → Option (RouteHost × RouteEntry)

/-- The host under which a route is put. -/
def hostOf (hostname : String) (entry : RouteEntry) : RouteHost :=
  if entry.internal then none else some hostname

/-- The map after a call. -/
def RouteMap.call (m : RouteMap) : RouterCall → RouteMap
  | .upsert hostname entry => Function.update m entry.ingressIri (some (hostOf hostname entry, entry))
  | .remove ingressIri => Function.update m ingressIri none
  | .updateUpstream oldAddr newAddr => fun iri =>
    (m iri).map fun r => (r.1, IngressRouter.moveUpstream oldAddr newAddr r.2)

namespace IngressRouter

/-- The routes of all tables, with their hosts. -/
def routes (router : IngressRouter) : List (RouteHost × RouteEntry) :=
  (router.external.flatMap fun e => e.2.map fun r => (some e.1, r)) ++
    router.internal.map fun r => (none, r)

variable {router : IngressRouter} {m : RouteMap} {host : String} {r entry : RouteEntry}

theorem mem_routes_external :
    (some host, r) ∈ router.routes ↔ ∃ rs, (host, rs) ∈ router.external ∧ r ∈ rs := by
  simp only [routes, List.mem_append, List.mem_flatMap, List.mem_map, Prod.mk.injEq, reduceCtorEq,
    false_and, and_false, exists_false, or_false, Option.some.injEq]
  constructor
  · rintro ⟨⟨h, rs⟩, he, r', hr', rfl, rfl⟩
    exact ⟨rs, he, hr'⟩
  · rintro ⟨rs, he, hr⟩
    exact ⟨(host, rs), he, r, hr, rfl, rfl⟩

theorem mem_routes_internal : (none, r) ∈ router.routes ↔ r ∈ router.internal := by
  simp [routes]

/-- The tables represent a map. -/
structure Represents (router : IngressRouter) (m : RouteMap) : Prop where
  hosts : (Assoc.keys router.external).Nodup
  externalNodup : ∀ e ∈ router.external, (e.2.map RouteEntry.ingressIri).Nodup
  internalNodup : (router.internal.map RouteEntry.ingressIri).Nodup
  externalFlag : ∀ e ∈ router.external, ∀ r ∈ e.2, r.internal = false
  internalFlag : ∀ r ∈ router.internal, r.internal = true
  mem_iff : ∀ x, x ∈ router.routes ↔ m x.2.ingressIri = some x
  keyed : ∀ iri x, m iri = some x → x.2.ingressIri = iri

/-- The call leaves an ingress where it is: an upsert finds it under the same host only. -/
def Stays (router : IngressRouter) : RouterCall → Prop
  | .upsert hostname entry => ∀ x ∈ router.routes, x.2.ingressIri = entry.ingressIri →
      x.1 = hostOf hostname entry
  | _ => True

instance (router : IngressRouter) (c : RouterCall) : Decidable (Stays router c) :=
  match c with
  | .upsert _ _ => inferInstanceAs (Decidable (∀ x ∈ _, _))
  | .remove _ => isTrue trivial
  | .updateUpstream _ _ => isTrue trivial

theorem represents_new : Represents new fun _ => none where
  hosts := List.nodup_nil
  externalNodup := by simp [new]
  internalNodup := List.nodup_nil
  externalFlag := by simp [new]
  internalFlag := by simp [new]
  mem_iff := by simp [routes, new]
  keyed := by simp

/-! ## Adding a route -/

theorem mem_without {iri : ResourceIri} {rs : List RouteEntry} :
    r ∈ without iri rs ↔ r ∈ rs ∧ r.ingressIri ≠ iri := by
  simp [without]

theorem nodup_without_append {rs : List RouteEntry} (h : (rs.map RouteEntry.ingressIri).Nodup) :
    ((without entry.ingressIri rs ++ [entry]).map RouteEntry.ingressIri).Nodup := by
  rw [List.map_append, List.map_singleton]
  refine List.nodup_append.mpr ⟨h.sublist (List.filter_sublist.map _), List.nodup_singleton _, ?_⟩
  intro a ha b hb
  obtain ⟨r, hr, rfl⟩ := List.mem_map.mp ha
  rw [List.mem_singleton.mp hb]
  exact (mem_without.mp hr).2

theorem Represents.getD_mem (h : Represents router m) :
    r ∈ (Assoc.get router.external host).getD [] ↔ (some host, r) ∈ router.routes := by
  rw [mem_routes_external]
  constructor
  · intro hr
    cases hget : Assoc.get router.external host with
    | none => simp [hget] at hr
    | some rs => exact ⟨rs, Assoc.mem_of_get hget, by simpa [hget] using hr⟩
  · rintro ⟨rs, hrs, hr⟩
    rwa [Assoc.get_of_mem h.hosts hrs, Option.getD_some]

/-- The routes of a host are different ingresses, of no internal route. -/
theorem Represents.getD_external (h : Represents router m) (host : String) :
    (((Assoc.get router.external host).getD []).map RouteEntry.ingressIri).Nodup ∧
      ∀ r ∈ (Assoc.get router.external host).getD [], r.internal = false := by
  cases hget : Assoc.get router.external host with
  | none => simp
  | some rs =>
    exact ⟨h.externalNodup _ (Assoc.mem_of_get hget), h.externalFlag _ (Assoc.mem_of_get hget)⟩

theorem Represents.mem_upsert (h : Represents router m)
    (hs : Stays router (.upsert host entry)) (x : RouteHost × RouteEntry) :
    x ∈ (router.upsertRoute host entry).routes ↔
      x = (hostOf host entry, entry) ∨ x ∈ router.routes ∧ x.2.ingressIri ≠ entry.ingressIri := by
  -- a route elsewhere is of another ingress
  have hother : x.1 ≠ hostOf host entry → x ∈ router.routes →
      x.2.ingressIri ≠ entry.ingressIri := fun hne hx heq => hne (hs x hx heq)
  obtain ⟨xhost, r⟩ := x
  unfold upsertRoute hostOf at *
  by_cases hint : entry.internal
  · rw [if_pos hint] at hother ⊢
    rw [if_pos hint]
    cases xhost with
    | none =>
      rw [mem_routes_internal, mem_routes_internal]
      simp only [List.mem_append, List.mem_singleton, mem_without, Prod.mk.injEq, true_and]
      exact or_comm
    | some xhost =>
      rw [mem_routes_external, mem_routes_external]
      simp only [Prod.mk.injEq, reduceCtorEq, false_and, false_or]
      refine ⟨fun hx => ⟨hx, hother (by simp) (mem_routes_external.mpr hx)⟩, And.left⟩
  · rw [if_neg hint] at hother ⊢
    rw [if_neg hint]
    cases xhost with
    | none =>
      rw [mem_routes_internal, mem_routes_internal]
      simp only [Prod.mk.injEq, reduceCtorEq, false_and, false_or]
      exact ⟨fun hx => ⟨hx, hother (by simp) (mem_routes_internal.mpr hx)⟩, And.left⟩
    | some xhost =>
      rw [mem_routes_external]
      simp only [Assoc.mem_set, Prod.mk.injEq, Option.some.injEq]
      by_cases hhost : xhost = host
      · subst hhost
        simp only [ne_eq, not_true_eq_false, and_false, or_false, true_and, exists_eq_left,
          List.mem_append, List.mem_singleton, mem_without, h.getD_mem]
        exact or_comm
      · simp only [hhost, false_and, ne_eq, not_false_eq_true, and_true, false_or]
        rw [← mem_routes_external]
        exact ⟨fun hx => ⟨hx, hother (by simpa using hhost) hx⟩, And.left⟩

theorem Represents.upsert (h : Represents router m) (hs : Stays router (.upsert host entry)) :
    Represents (router.upsertRoute host entry) (m.call (.upsert host entry)) := by
  have hmem : ∀ x, x ∈ (router.upsertRoute host entry).routes ↔
      m.call (.upsert host entry) x.2.ingressIri = some x := by
    intro x
    rw [h.mem_upsert hs x, RouteMap.call, h.mem_iff x]
    by_cases hx : x.2.ingressIri = entry.ingressIri
    · rw [hx, Function.update_self]
      simp [eq_comm]
    · rw [Function.update_of_ne hx]
      simp only [ne_eq, hx, not_false_eq_true, and_true, or_iff_right_iff_imp]
      rintro rfl
      exact absurd rfl hx
  have hkeyed : ∀ iri x, m.call (.upsert host entry) iri = some x → x.2.ingressIri = iri := by
    intro iri x hx
    rw [RouteMap.call] at hx
    by_cases hiri : iri = entry.ingressIri
    · rw [hiri, Function.update_self] at hx
      rw [hiri, ← Option.some.inj hx]
    · rw [Function.update_of_ne hiri] at hx
      exact h.keyed iri x hx
  unfold upsertRoute at hmem ⊢
  by_cases hint : entry.internal
  · rw [if_pos hint] at hmem ⊢
    refine ⟨h.hosts, h.externalNodup, nodup_without_append h.internalNodup, h.externalFlag, ?_, hmem,
      hkeyed⟩
    intro r hr
    rcases List.mem_append.mp hr with hr | hr
    · exact h.internalFlag r (mem_without.mp hr).1
    · exact List.mem_singleton.mp hr ▸ hint
  · rw [if_neg hint] at hmem ⊢
    obtain ⟨hnodup, hflag⟩ := h.getD_external host
    refine ⟨Assoc.nodup_keys_set h.hosts _ _, fun e he => ?_, h.internalNodup, fun e he r hr => ?_,
      h.internalFlag, hmem, hkeyed⟩
    · rcases Assoc.mem_set.mp he with rfl | ⟨he, -⟩
      · exact nodup_without_append hnodup
      · exact h.externalNodup e he
    · rcases Assoc.mem_set.mp he with rfl | ⟨he, -⟩
      · rcases List.mem_append.mp hr with hr | hr
        · exact hflag r (mem_without.mp hr).1
        · exact List.mem_singleton.mp hr ▸ Bool.eq_false_iff.mpr hint
      · exact h.externalFlag e he r hr

/-! ## Removing a route -/

theorem mem_removeRoute (iri : ResourceIri) (x : RouteHost × RouteEntry) :
    x ∈ (router.removeRoute iri).routes ↔ x ∈ router.routes ∧ x.2.ingressIri ≠ iri := by
  obtain ⟨xhost, r⟩ := x
  cases xhost with
  | none =>
    rw [mem_routes_internal, mem_routes_internal]
    exact mem_without
  | some xhost =>
    rw [mem_routes_external, mem_routes_external]
    simp only [removeRoute, List.mem_filter, List.mem_map, Prod.mk.injEq, decide_eq_true_eq]
    constructor
    · rintro ⟨_, ⟨⟨⟨_, rs⟩, he, rfl, rfl⟩, -⟩, hr⟩
      obtain ⟨hr, hiri⟩ := mem_without.mp hr
      exact ⟨⟨rs, he, hr⟩, hiri⟩
    · rintro ⟨⟨rs, he, hr⟩, hiri⟩
      have hr' : r ∈ without iri rs := mem_without.mpr ⟨hr, hiri⟩
      exact ⟨_, ⟨⟨(xhost, rs), he, rfl, rfl⟩, List.ne_nil_of_mem hr'⟩, hr'⟩

theorem Represents.remove (h : Represents router m) (iri : ResourceIri) :
    Represents (router.removeRoute iri) (m.call (.remove iri)) where
  hosts := by
    have hkeys : Assoc.keys (router.external.map fun e => (e.1, without iri e.2)) =
        Assoc.keys router.external := by
      rw [Assoc.keys, List.map_map]
      rfl
    exact (hkeys ▸ h.hosts).sublist (List.filter_sublist.map Prod.fst)
  externalNodup := by
    intro e he
    obtain ⟨e', he', rfl⟩ := List.mem_map.mp (List.mem_of_mem_filter he)
    exact (h.externalNodup e' he').sublist (List.filter_sublist.map _)
  internalNodup := h.internalNodup.sublist (List.filter_sublist.map _)
  externalFlag := by
    intro e he r hr
    obtain ⟨e', he', rfl⟩ := List.mem_map.mp (List.mem_of_mem_filter he)
    exact h.externalFlag e' he' r (mem_without.mp hr).1
  internalFlag := fun r hr => h.internalFlag r (mem_without.mp hr).1
  mem_iff := by
    intro x
    rw [mem_removeRoute, h.mem_iff x, RouteMap.call]
    by_cases hx : x.2.ingressIri = iri
    · rw [hx, Function.update_self]
      simp
    · rw [Function.update_of_ne hx]
      simp [hx]
  keyed := by
    intro iri' x hx
    rw [RouteMap.call] at hx
    by_cases hiri : iri' = iri
    · rw [hiri, Function.update_self] at hx
      simp at hx
    · rw [Function.update_of_ne hiri] at hx
      exact h.keyed iri' x hx

/-! ## Moving an upstream -/

@[simp] theorem ingressIri_moveUpstream (oldAddr newAddr : String) (r : RouteEntry) :
    (moveUpstream oldAddr newAddr r).ingressIri = r.ingressIri := by
  unfold moveUpstream
  split <;> rfl

@[simp] theorem internal_moveUpstream (oldAddr newAddr : String) (r : RouteEntry) :
    (moveUpstream oldAddr newAddr r).internal = r.internal := by
  unfold moveUpstream
  split <;> rfl

theorem map_ingressIri_moveUpstream (oldAddr newAddr : String) (rs : List RouteEntry) :
    (rs.map (moveUpstream oldAddr newAddr)).map RouteEntry.ingressIri =
      rs.map RouteEntry.ingressIri := by
  rw [List.map_map]
  exact List.map_congr_left fun r _ => ingressIri_moveUpstream oldAddr newAddr r

theorem routes_updateUpstream (oldAddr newAddr : String) :
    (router.updateUpstream oldAddr newAddr).routes =
      router.routes.map fun x => (x.1, moveUpstream oldAddr newAddr x.2) := by
  simp only [routes, updateUpstream, List.flatMap_map, List.map_append, List.map_flatMap,
    List.map_map]
  rfl

theorem Represents.move (h : Represents router m) (oldAddr newAddr : String) :
    Represents (router.updateUpstream oldAddr newAddr)
      (m.call (.updateUpstream oldAddr newAddr)) where
  hosts := by
    have hkeys : Assoc.keys (router.updateUpstream oldAddr newAddr).external =
        Assoc.keys router.external := by
      rw [Assoc.keys, updateUpstream, List.map_map]
      rfl
    exact hkeys ▸ h.hosts
  externalNodup := by
    intro e he
    obtain ⟨e', he', rfl⟩ := List.mem_map.mp he
    rw [map_ingressIri_moveUpstream]
    exact h.externalNodup e' he'
  internalNodup := by
    rw [updateUpstream, map_ingressIri_moveUpstream]
    exact h.internalNodup
  externalFlag := by
    intro e he r hr
    obtain ⟨e', he', rfl⟩ := List.mem_map.mp he
    obtain ⟨r', hr', rfl⟩ := List.mem_map.mp hr
    rw [internal_moveUpstream]
    exact h.externalFlag e' he' r' hr'
  internalFlag := by
    intro r hr
    obtain ⟨r', hr', rfl⟩ := List.mem_map.mp hr
    rw [internal_moveUpstream]
    exact h.internalFlag r' hr'
  mem_iff := by
    intro x
    rw [routes_updateUpstream, List.mem_map, RouteMap.call, Option.map_eq_some_iff]
    constructor
    · rintro ⟨y, hy, rfl⟩
      rw [ingressIri_moveUpstream]
      exact ⟨y, (h.mem_iff y).mp hy, rfl⟩
    · rintro ⟨y, hy, rfl⟩
      rw [ingressIri_moveUpstream] at hy
      exact ⟨y, (h.mem_iff y).mpr hy, rfl⟩
  keyed := by
    intro iri x hx
    obtain ⟨y, hy, rfl⟩ := Option.map_eq_some_iff.mp hx
    rw [ingressIri_moveUpstream]
    exact h.keyed iri y hy

theorem Represents.call (h : Represents router m) {c : RouterCall} (hs : Stays router c) :
    Represents (router.call c) (m.call c) := by
  cases c with
  | upsert hostname entry => exact h.upsert hs
  | remove iri => exact h.remove iri
  | updateUpstream oldAddr newAddr => exact h.move oldAddr newAddr

/-! ## What the tables answer -/

theorem maxByKey_spec {α : Type} {key : α → ℕ} {l : List α} {a : α}
    (h : maxByKey key l = some a) : a ∈ l ∧ ∀ b ∈ l, key b ≤ key a := by
  induction l generalizing a with
  | nil => simp [maxByKey] at h
  | cons c l ih =>
    rw [maxByKey] at h
    cases hl : maxByKey key l with
    | none =>
      rw [hl] at h
      obtain rfl := Option.some.inj h
      have hnil : l = [] := by
        cases l with
        | nil => rfl
        | cons b l =>
          rw [maxByKey] at hl
          split at hl
          · simp at hl
          · split at hl <;> simp at hl
      simp [hnil]
    | some b =>
      rw [hl] at h
      obtain ⟨hb, hmax⟩ := ih hl
      dsimp only at h
      split at h
      · obtain rfl := Option.some.inj h
        refine ⟨List.mem_cons_self, fun d hd => ?_⟩
        rcases List.mem_cons.mp hd with rfl | hd
        · exact le_rfl
        · have := hmax d hd
          omega
      · obtain rfl := Option.some.inj h
        refine ⟨List.mem_cons_of_mem c hb, fun d hd => ?_⟩
        rcases List.mem_cons.mp hd with rfl | hd
        · omega
        · exact hmax d hd

theorem maxByKey_eq_none {α : Type} {key : α → ℕ} {l : List α} :
    maxByKey key l = none ↔ l = [] := by
  cases l with
  | nil => simp [maxByKey]
  | cons a l =>
    rw [maxByKey]
    split
    · simp
    · split <;> simp

/-- The map has a route of the host that the path starts with. -/
def RouteOf (m : RouteMap) (host path : String) (r : RouteEntry) : Prop :=
  m r.ingressIri = some (some host, r) ∧ r.pathPrefix.toList <+: path.toList

variable {path : String}

theorem Represents.routeOf_iff (h : Represents router m) :
    RouteOf m host path r ↔
      r ∈ ((Assoc.get router.external host).getD []).filter (startsWith path) := by
  rw [List.mem_filter, h.getD_mem, h.mem_iff, RouteOf, startsWith, List.isPrefixOf_iff_prefix]

theorem lookup_eq (router : IngressRouter) (host path : String) :
    router.lookup host path = best path ((Assoc.get router.external host).getD []) := by
  unfold lookup
  cases Assoc.get router.external host <;> rfl

/-- `lookup` finds a longest prefix. -/
theorem Represents.lookup_some (h : Represents router m) (hl : router.lookup host path = some r) :
    RouteOf m host path r ∧
      ∀ r', RouteOf m host path r' → r'.pathPrefix.utf8ByteSize ≤ r.pathPrefix.utf8ByteSize := by
  rw [lookup_eq] at hl
  obtain ⟨hmem, hmax⟩ := maxByKey_spec hl
  exact ⟨h.routeOf_iff.mpr hmem, fun r' hr' => hmax r' (h.routeOf_iff.mp hr')⟩

/-- `lookup` finds something when there is something. -/
theorem Represents.lookup_none (h : Represents router m) :
    router.lookup host path = none ↔ ∀ r, ¬ RouteOf m host path r := by
  rw [lookup_eq, best, maxByKey_eq_none, List.eq_nil_iff_forall_not_mem]
  exact forall_congr' fun r => not_congr h.routeOf_iff.symm

theorem Represents.lookup_internal (h : Represents router m) (hl : router.lookup host path = some r) :
    r.internal = false := by
  have hmem := (h.mem_iff (some host, r)).mpr (h.lookup_some hl).1.1
  obtain ⟨rs, he, hr⟩ := mem_routes_external.mp hmem
  exact h.externalFlag _ he r hr

/-- Each ingress is in the tables at most once. -/
theorem Represents.nodup (h : Represents router m) :
    (router.routes.map fun x => x.2.ingressIri).Nodup := by
  -- an ingress has one route in the map, so it is in the list of one host only
  have hone : ∀ x ∈ router.routes, ∀ y ∈ router.routes, x.2.ingressIri = y.2.ingressIri → x = y := by
    intro x hx y hy heq
    have hxy := ((h.mem_iff x).mp hx).symm.trans (heq ▸ (h.mem_iff y).mp hy)
    exact Option.some.inj hxy
  have hinj : ∀ {host : RouteHost} {rs : List RouteEntry}, (rs.map RouteEntry.ingressIri).Nodup →
      (rs.map fun r => (host, r)).Nodup := by
    intro host rs hrs
    exact (List.Nodup.of_map _ hrs).map fun a b hab => (Prod.mk.inj hab).2
  refine List.Nodup.map_on (fun x hx y hy => hone x hx y hy) ?_
  rw [routes]
  refine List.nodup_append.mpr ⟨List.nodup_flatMap.mpr ⟨fun e he => hinj (h.externalNodup e he), ?_⟩,
    hinj h.internalNodup, ?_⟩
  · refine (List.pairwise_map.mp h.hosts).imp fun {e e'} hne => ?_
    intro x hx hx'
    obtain ⟨r, -, rfl⟩ := List.mem_map.mp hx
    obtain ⟨r', -, heq⟩ := List.mem_map.mp hx'
    exact hne (Option.some.inj (Prod.mk.inj heq).1).symm
  · rintro x hx y hy rfl
    obtain ⟨e, -, hx⟩ := List.mem_flatMap.mp hx
    obtain ⟨r, -, rfl⟩ := List.mem_map.mp hx
    obtain ⟨r', -, heq⟩ := List.mem_map.mp hy
    simp at heq

theorem routeCount_eq_length (router : IngressRouter) :
    router.routeCount = router.routes.length := by
  simp [routeCount, routes, List.length_flatMap]

/-- `route_count` is the size of the map. -/
theorem Represents.routeCount (h : Represents router m) :
    router.routeCount = {iri | (m iri).isSome}.ncard := by
  have hkeys : {iri | (m iri).isSome} =
      ↑(router.routes.map fun x => x.2.ingressIri).toFinset := by
    ext iri
    simp only [Set.mem_ofPred_eq, List.coe_toFinset, List.mem_map]
    constructor
    · intro hsome
      obtain ⟨x, hx⟩ := Option.isSome_iff_exists.mp hsome
      have hiri := h.keyed iri x hx
      exact ⟨x, (h.mem_iff x).mpr (hiri ▸ hx), hiri⟩
    · rintro ⟨x, hx, rfl⟩
      rw [(h.mem_iff x).mp hx]
      rfl
  rw [hkeys, Set.ncard_coe_finset, List.toFinset_card_of_nodup h.nodup, List.length_map,
    routeCount_eq_length]

/-! ## Runs -/

/-- The router answers as the map does. -/
structure IsMap (router : IngressRouter) (m : RouteMap) : Prop where
  routes_iff : ∀ x, x ∈ router.routes ↔ m x.2.ingressIri = some x
  nodup : (router.routes.map fun x => x.2.ingressIri).Nodup
  count : router.routeCount = {iri | (m iri).isSome}.ncard
  lookup_some : ∀ host path r, router.lookup host path = some r → RouteOf m host path r ∧
    ∀ r', RouteOf m host path r' → r'.pathPrefix.utf8ByteSize ≤ r.pathPrefix.utf8ByteSize
  lookup_none : ∀ host path, router.lookup host path = none ↔ ∀ r, ¬ RouteOf m host path r
  never_internal : ∀ host path r, router.lookup host path = some r → r.internal = false

/-- **The router is a map.** After any calls that leave every ingress under the host it has, the
tables hold the last route of each ingress, and lookups find the longest prefix. -/
theorem router_is_map {calls : List RouterCall}
    (hmeet : StepsMeet (fun router c => some (IngressRouter.call router c)) Stays new calls) :
    IsMap (calls.foldl IngressRouter.call new) (calls.foldl RouteMap.call fun _ => none) := by
  have hrep : ∀ (calls : List RouterCall) (router : IngressRouter) (m : RouteMap),
      Represents router m →
      StepsMeet (fun router c => some (IngressRouter.call router c)) Stays router calls →
      Represents (calls.foldl IngressRouter.call router) (calls.foldl RouteMap.call m) := by
    intro calls
    induction calls with
    | nil => exact fun _ _ h _ => h
    | cons c calls ih => exact fun router m h hmeet => ih _ _ (h.call hmeet.1) hmeet.2
  have h := hrep calls new _ represents_new hmeet
  exact ⟨h.mem_iff, h.nodup, h.routeCount, fun _ _ _ => h.lookup_some, fun _ _ => h.lookup_none,
    fun _ _ _ => h.lookup_internal⟩

/-- A route of the sample cluster. -/
def sampleRoute (addr : String) (internal : Bool) : RouteEntry where
  pathPrefix := "/api"
  upstreamAddr := addr
  upstreamPort := 8080
  product := "photo-app"
  internal := internal
  ingressIri := ⟨"https://picloud.local/products/photo-app/ingresses/web"⟩

/-- A route is updated, and its workload moves. -/
theorem router_is_map_update :
    IsMap
      ([.upsert "photos.picloud.local" (sampleRoute "10.0.0.1" false),
        .upsert "photos.picloud.local" (sampleRoute "10.0.0.2" false),
        .updateUpstream "10.0.0.2" "10.0.0.3"].foldl IngressRouter.call new)
      ([.upsert "photos.picloud.local" (sampleRoute "10.0.0.1" false),
        .upsert "photos.picloud.local" (sampleRoute "10.0.0.2" false),
        .updateUpstream "10.0.0.2" "10.0.0.3"].foldl RouteMap.call fun _ => none) :=
  router_is_map (by decide)

/-- An ingress that gets another host keeps its old route, and so does one that becomes internal. -/
theorem stale_routes :
    (¬ IsMap
      ([.upsert "old.picloud.local" (sampleRoute "10.0.0.1" false),
        .upsert "new.picloud.local" (sampleRoute "10.0.0.1" false)].foldl IngressRouter.call new)
      ([.upsert "old.picloud.local" (sampleRoute "10.0.0.1" false),
        .upsert "new.picloud.local" (sampleRoute "10.0.0.1" false)].foldl RouteMap.call
          fun _ => none)) ∧
    ¬ IsMap
      ([.upsert "photos.picloud.local" (sampleRoute "10.0.0.1" false),
        .upsert "photos.picloud.local" (sampleRoute "10.0.0.1" true)].foldl IngressRouter.call new)
      ([.upsert "photos.picloud.local" (sampleRoute "10.0.0.1" false),
        .upsert "photos.picloud.local" (sampleRoute "10.0.0.1" true)].foldl RouteMap.call
          fun _ => none) := by
  refine ⟨fun h => ?_, fun h => ?_⟩
  · exact absurd h.nodup (by decide)
  · exact absurd h.nodup (by decide)

end IngressRouter

end Picloud
