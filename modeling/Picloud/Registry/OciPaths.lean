import Picloud.Iam.Exchange
import Picloud.Lib.Components
import Picloud.Registry.BlobStore

/-!
# Requests to the registry

Reference: `handle_v2_dispatch`, `handle_v2_put`, `handle_v2_post`, `handle_v2_delete` and `split_oci_path` of
`picloud-http/src/implementation.rs`.

The path of a request is the name of a repository, which may have any number of components, and what is asked of
it. The handlers look for the first marker in the path, so a name with a marker inside is cut there. Each run
records the calls of the registry. What the token of a request allows is an input.
-/

namespace Picloud

open Lib

/-! ## Responses -/

/-- The content type of a manifest without one. -/
def RegistryBackend.defaultContentType : String := "application/vnd.oci.image.manifest.v1+json"

/-- The body of a response. -/
inductive OciBody where
  | empty
  | bytes (data : Bytes)
  | json (value : Json)
deriving DecidableEq

/-- A response with its headers. -/
structure OciResponse where
  status : ℕ
  headers : List (String × String)
  body : OciBody
deriving DecidableEq

/-- A status alone. -/
def OciResponse.ofStatus (status : ℕ) : OciResponse := ⟨status, [], .empty⟩

/-- The body of an error. -/
def ociErrors (code message : String) : Json :=
  .object [("errors", .array [.object [("code", .string code), ("message", .string message)]])]

/-- A response with an error. -/
def OciResponse.error (status : ℕ) (code message : String) : OciResponse :=
  ⟨status, [], .json (ociErrors code message)⟩

/-! ## The registry -/

/-- A call of the registry. -/
inductive RegistryCall where
  | getManifest (repository reference : String)
  | putManifest (repository reference contentType : String) (data : Bytes)
  | deleteManifest (repository reference : String)
  | getBlob (digest : String)
  | putBlob (digest : String) (data : Bytes)
  | listTags (repository : String)
  | startBlobUpload (repository : String)
deriving DecidableEq

/-- What the registry returns; an error is its text. -/
structure RegistryReplies where
  getManifest (repository reference : String) : Except String (String × Bytes)
  putManifest (repository reference contentType : String) (data : Bytes) : Except String String
  deleteManifest (repository reference : String) : Except String Unit
  getBlob (digest : String) : Except String Bytes
  putBlob (digest : String) (data : Bytes) : Except String Unit
  listTags (repository : String) : Except String (List String)
  startBlobUpload (repository : String) : Except String String

/-- What a request does. -/
structure OciRun where
  response : OciResponse
  calls : List RegistryCall

/-! ## Authorisation -/

/-- `require_oci_scope`. -/
def requireOciScope (identity : ValidatedIdentity) (required : String) : Except OciResponse Unit :=
  if identity.roles.contains "admin" then .ok ()
  else if identity.scopes.any fun s => s = required ∨ s = "*" then .ok ()
  else if identity.permissions.any fun p => p = required ∨ p = "*" then .ok ()
  else .error (.error 403 "DENIED" ("insufficient scope: " ++ required ++ " required"))

/-- What `validate_oci_token` returns for a request, and then `require_oci_scope`. -/
def authorize (token : Except OciResponse ValidatedIdentity) (required : String) : Except OciResponse Unit :=
  token.bind fun identity => requireOciScope identity required

/-! ## Paths -/

/-- `split_oci_path`. -/
def splitOciPath (path segment : String) : Option (String × String) :=
  (breakOn ('/' :: segment.toList ++ ['/']) path.toList).bind fun cut =>
    if cut.1 = [] ∨ cut.2 = [] then none else some (String.ofList cut.1, String.ofList cut.2)

/-- `path.trim_end_matches(pattern)`. -/
def trimEndMatches (path pattern : String) : String := String.ofList (trimEnd pattern.toList path.toList)

/-- `path.ends_with(pattern)`. -/
def endsWith (path pattern : String) : Bool := decide (pattern.toList <:+ path.toList)

/-! ## The handlers -/

section Handlers

variable (registry : Option RegistryReplies) (sha2Hex : Bytes → String)
  (token : Except OciResponse ValidatedIdentity)

/-- The body of a response to `GET`; `HEAD` has none. -/
def bodyFor (isHead : Bool) (data : Bytes) : OciBody := if isHead then .empty else .bytes data

/-- `handle_v2_dispatch`. -/
def handleV2Dispatch (isHead : Bool) (path : String) : OciRun :=
  match registry with
  | none => ⟨.ofStatus 404, []⟩
  | some registry =>
    match authorize token "pull" with
    | .error response => ⟨response, []⟩
    | .ok () =>
      match splitOciPath path "manifests" with
      | some (repo, rest) =>
        let response := match registry.getManifest repo rest with
          | .ok (contentType, data) => ⟨200, [("content-type", contentType),
              ("docker-content-digest", "sha256:" ++ sha2Hex data)], bodyFor isHead data⟩
          | .error _ => .error 404 "MANIFEST_UNKNOWN" "manifest unknown"
        ⟨response, [.getManifest repo rest]⟩
      | none =>
        match splitOciPath path "blobs" with
        | some (_, digest) =>
          let response := match registry.getBlob digest with
            | .ok data => ⟨200, [("content-type", "application/octet-stream"),
                ("content-length", toString data.length), ("docker-content-digest", digest)], bodyFor isHead data⟩
            | .error _ => .error 404 "BLOB_UNKNOWN" "blob unknown"
          ⟨response, [.getBlob digest]⟩
        | none =>
          if endsWith path "/tags/list" then
            let repo := trimEndMatches path "/tags/list"
            let response := match registry.listTags repo with
              | .ok tags => ⟨200, [], .json (.object [("name", .string repo),
                  ("tags", .array (tags.map Json.string))])⟩
              | .error _ => .error 404 "NAME_UNKNOWN" "repository unknown"
            ⟨response, [.listTags repo]⟩
          else ⟨.ofStatus 404, []⟩

/-- `handle_v2_put`; the body is what `to_bytes` returns. -/
def handleV2Put (contentType : Option String) (body : Except String Bytes) (path : String) : OciRun :=
  match registry with
  | none => ⟨.ofStatus 404, []⟩
  | some registry =>
    match authorize token "push" with
    | .error response => ⟨response, []⟩
    | .ok () =>
      match body with
      | .error e => ⟨.error 400 "SIZE_INVALID" e, []⟩
      | .ok data =>
        match splitOciPath path "manifests" with
        | some (repo, reference) =>
          let contentType := contentType.getD RegistryBackend.defaultContentType
          let response := match registry.putManifest repo reference contentType data with
            | .ok digest => ⟨201, [("location", "/v2/" ++ repo ++ "/manifests/" ++ digest),
                ("docker-content-digest", digest)], .empty⟩
            | .error e => .error 500 "MANIFEST_INVALID" e
          ⟨response, [.putManifest repo reference contentType data]⟩
        | none =>
          if "/blobs/uploads/".toList <:+: path.toList then
            let digest := "sha256:" ++ sha2Hex data
            let response := match registry.putBlob digest data with
              | .ok () => ⟨201, [("docker-content-digest", digest)], .empty⟩
              | .error e => .error 500 "BLOB_UPLOAD_INVALID" e
            ⟨response, [.putBlob digest data]⟩
          else ⟨.ofStatus 404, []⟩

/-- The repository of an upload. -/
def uploadRepository (path : String) : String :=
  trimEndMatches (trimEndMatches (trimEndMatches path "/") "/blobs/uploads") "/"

/-- `handle_v2_post`. -/
def handleV2Post (path : String) : OciRun :=
  match registry with
  | none => ⟨.ofStatus 404, []⟩
  | some registry =>
    match authorize token "push" with
    | .error response => ⟨response, []⟩
    | .ok () =>
      if endsWith path "/blobs/uploads/" ∨ endsWith path "/blobs/uploads" then
        let repo := uploadRepository path
        let response := match registry.startBlobUpload repo with
          | .ok uuid => ⟨202, [("location", "/v2/" ++ repo ++ "/blobs/uploads/" ++ uuid),
              ("docker-upload-uuid", uuid)], .empty⟩
          | .error e => .error 500 "BLOB_UPLOAD_UNKNOWN" e
        ⟨response, [.startBlobUpload repo]⟩
      else ⟨.ofStatus 404, []⟩

/-- `handle_v2_delete`. -/
def handleV2Delete (path : String) : OciRun :=
  match registry with
  | none => ⟨.ofStatus 404, []⟩
  | some registry =>
    match authorize token "delete" with
    | .error response => ⟨response, []⟩
    | .ok () =>
      match splitOciPath path "manifests" with
      | some (repo, reference) =>
        let response := match registry.deleteManifest repo reference with
          | .ok () => .ofStatus 202
          | .error e => .error 404 "MANIFEST_UNKNOWN" e
        ⟨response, [.deleteManifest repo reference]⟩
      | none => ⟨.ofStatus 404, []⟩

end Handlers

/-! ## Requests -/

/-- What is asked of a repository. -/
inductive OciRequest where
  | getManifest (isHead : Bool) (reference : String)
  | putManifest (contentType : Option String) (data : Bytes) (reference : String)
  | deleteManifest (reference : String)
  | getBlob (isHead : Bool) (digest : String)
  | listTags
  | startUpload

namespace OciRequest

/-- The components of the path after the name. -/
def rest : OciRequest → List String
  | .getManifest _ reference | .putManifest _ _ reference | .deleteManifest reference => ["manifests", reference]
  | .getBlob _ digest => ["blobs", digest]
  | .listTags => ["tags", "list"]
  | .startUpload => ["blobs", "uploads", ""]

/-- The scope that the request needs. -/
def scope : OciRequest → String
  | .getManifest .. | .getBlob .. | .listTags => "pull"
  | .putManifest .. | .startUpload => "push"
  | .deleteManifest _ => "delete"

/-- The call that is meant. -/
def call (repository : String) : OciRequest → RegistryCall
  | .getManifest _ reference => .getManifest repository reference
  | .putManifest contentType data reference =>
    .putManifest repository reference (contentType.getD RegistryBackend.defaultContentType) data
  | .deleteManifest reference => .deleteManifest repository reference
  | .getBlob _ digest => .getBlob digest
  | .listTags => .listTags repository
  | .startUpload => .startBlobUpload repository

/-- The run of a request. -/
def run (registry : RegistryReplies) (sha2Hex : Bytes → String) (token : Except OciResponse ValidatedIdentity)
    (path : String) : OciRequest → OciRun
  | .getManifest isHead _ | .getBlob isHead _ => handleV2Dispatch (some registry) sha2Hex token isHead path
  | .listTags => handleV2Dispatch (some registry) sha2Hex token false path
  | .putManifest contentType data _ => handleV2Put (some registry) sha2Hex token contentType (.ok data) path
  | .deleteManifest _ => handleV2Delete (some registry) token path
  | .startUpload => handleV2Post (some registry) token path

end OciRequest

/-- Components with slashes between them. -/
def slashed (components : List String) : String := String.ofList (joined '/' (components.map String.toList))

/-- A component of a path: not empty and without a slash. -/
def IsComponent (c : String) : Prop := c ≠ "" ∧ '/' ∉ c.toList

instance (c : String) : Decidable (IsComponent c) := inferInstanceAs (Decidable (_ ∧ _))

/-- Nothing in the name is taken for what follows it. -/
def OciRequest.Unmistakable (name : List String) : OciRequest → Prop
  | .getManifest .. | .putManifest .. | .deleteManifest _ => "manifests" ∉ name.tail
  | .getBlob .. => "manifests" ∉ name.tail ∧ "blobs" ∉ name.tail
  | .listTags => "manifests" ∉ name.tail ∧ "blobs" ∉ name.tail ∧ ¬ ["tags", "list"] <:+ name.tail
  | .startUpload => ¬ ["blobs", "uploads"] <:+ name.tail

/-- The reference of the request is a component. -/
def OciRequest.WellFormed : OciRequest → Prop
  | .getManifest _ reference | .putManifest _ _ reference | .deleteManifest reference => IsComponent reference
  | .getBlob _ digest => IsComponent digest
  | .listTags | .startUpload => True

/-! ## Cutting paths -/

section Paths

variable {name front back rest cs ds : List String} {seg reference : String}

theorem toList_injective : Function.Injective String.toList := fun _ _ => String.toList_injective

theorem slash_notMem_map (h : ∀ c ∈ cs, IsComponent c) : ∀ c ∈ cs.map String.toList, '/' ∉ c := by
  intro c hc
  obtain ⟨d, hd, rfl⟩ := List.mem_map.mp hc
  exact (h d hd).2

theorem toList_slashed : (slashed cs).toList = joined '/' (cs.map String.toList) := by
  rw [slashed, String.toList_ofList]

theorem slashed_singleton (c : String) : slashed [c] = c := by
  rw [slashed, List.map_singleton, joined, String.ofList_toList]

/-- The components of a path are found again. -/
theorem slashed_inj (hcs : cs ≠ []) (hds : ds ≠ []) (hc : ∀ c ∈ cs, IsComponent c) (hd : ∀ d ∈ ds, IsComponent d)
    (h : slashed cs = slashed ds) : cs = ds := by
  have hlists := congrArg String.toList h
  rw [toList_slashed, toList_slashed] at hlists
  exact List.map_injective_iff.mpr toList_injective (joined_injective (by simpa using hcs)
    (by simpa using hds) (slash_notMem_map hc) (slash_notMem_map hd) hlists)

theorem joined_ne_nil (hcs : cs ≠ []) (hc : ∀ c ∈ cs, IsComponent c) :
    joined '/' (cs.map String.toList) ≠ [] := by
  obtain ⟨c, cs, rfl⟩ := List.exists_cons_of_ne_nil hcs
  have hne : c.toList ≠ [] := by simpa using (hc c List.mem_cons_self).1
  cases cs with
  | nil => exact hne
  | cons d cs => exact List.append_ne_nil_of_left_ne_nil hne _

/-- The path is cut at the first inner component that is the marker. -/
theorem splitOciPath_slashed (hseg : IsComponent seg) (hfront : front ≠ []) (hrest : rest ≠ [])
    (hcomp : ∀ c ∈ front, IsComponent c) (hcomp' : ∀ c ∈ rest, IsComponent c) (h : seg ∉ front.tail) :
    splitOciPath (slashed (front ++ seg :: rest)) seg = some (slashed front, slashed rest) := by
  have hnot : seg.toList ∉ (front.map String.toList).tail := by
    rw [← List.map_tail, List.mem_map_of_injective toList_injective]
    exact h
  rw [splitOciPath, toList_slashed, List.map_append, List.map_cons,
    breakOn_joined hseg.2 (slash_notMem_map hcomp) (by simpa using hfront) (by simpa using hrest) hnot,
    Option.bind_some, if_neg (not_or.mpr ⟨joined_ne_nil hfront hcomp, joined_ne_nil hrest hcomp'⟩)]
  rfl

theorem splitOciPath_eq_none (hseg : IsComponent seg) (hcomp : ∀ c ∈ cs, IsComponent c)
    (h : seg ∉ cs.tail.dropLast) : splitOciPath (slashed cs) seg = none := by
  have hnot : seg.toList ∉ (cs.map String.toList).tail.dropLast := by
    rw [← List.map_tail, ← List.map_dropLast, List.mem_map_of_injective toList_injective]
    exact h
  rw [splitOciPath, toList_slashed, breakOn_joined_eq_none hseg.2 (slash_notMem_map hcomp) hnot, Option.bind_none]

/-- A name with the marker inside is cut there. -/
theorem splitOciPath_mistaken (hseg : IsComponent seg) (hrest : rest ≠ []) (hcomp : ∀ c ∈ name, IsComponent c)
    (hcomp' : ∀ c ∈ rest, IsComponent c) (h : seg ∈ name.tail) :
    ∃ front back, name = front ++ seg :: back ∧ front ≠ [] ∧
      splitOciPath (slashed (name ++ rest)) seg = some (slashed front, slashed (back ++ rest)) := by
  obtain ⟨c, tail, rfl⟩ : ∃ c tail, name = c :: tail := by
    cases name with
    | nil => exact absurd h List.not_mem_nil
    | cons c tail => exact ⟨c, tail, rfl⟩
  obtain ⟨before, back, rfl, hbefore⟩ := List.eq_append_cons_of_mem h
  refine ⟨c :: before, back, rfl, List.cons_ne_nil _ _, ?_⟩
  rw [List.cons_append, List.append_assoc, List.cons_append, ← List.cons_append]
  refine splitOciPath_slashed hseg (List.cons_ne_nil _ _) (by simp [hrest]) ?_ ?_ hbefore
  · exact fun d hd => hcomp d (List.mem_append_left (seg :: back) hd)
  · intro d hd
    rcases List.mem_append.mp hd with hd | hd
    · exact hcomp d (List.mem_append_right (c :: before) (List.mem_cons_of_mem seg hd))
    · exact hcomp' d hd

theorem slashed_front_ne (hfront : front ≠ []) (hcomp : ∀ c ∈ front ++ seg :: back, IsComponent c) :
    slashed front ≠ slashed (front ++ seg :: back) := by
  intro h
  have hlen := congrArg List.length (slashed_inj hfront (by simp) (fun c hc => hcomp c (List.mem_append_left _ hc))
    hcomp h)
  simp at hlen

/-- The name in front of the marker, and the reference after it. -/
theorem splitOciPath_name (hseg : IsComponent seg) (hname : name ≠ []) (hcomp : ∀ c ∈ name, IsComponent c)
    (href : IsComponent reference) :
    ∃ repo rest, splitOciPath (slashed (name ++ [seg, reference])) seg = some (repo, rest) ∧
      (seg ∉ name.tail → repo = slashed name ∧ rest = reference) ∧
      (seg ∈ name.tail → repo ≠ slashed name ∧ rest ≠ reference) := by
  have hcomp' : ∀ c ∈ [seg, reference], IsComponent c := by simp [hseg, href]
  by_cases hmem : seg ∈ name.tail
  · obtain ⟨front, back, rfl, hfront, hsplit⟩ := splitOciPath_mistaken hseg (List.cons_ne_nil _ _) hcomp hcomp' hmem
    refine ⟨_, _, hsplit, fun h => absurd hmem h, fun _ => ⟨slashed_front_ne hfront hcomp, fun h => ?_⟩⟩
    have hpath := h.trans (slashed_singleton reference).symm
    have hlen := congrArg List.length (slashed_inj (by simp) (by simp) (fun c hc => ?_) (by simp [href]) hpath)
    · simp at hlen
    · rcases List.mem_append.mp hc with hc | hc
      · exact hcomp c (List.mem_append_right _ (List.mem_cons_of_mem _ hc))
      · exact hcomp' c hc
  · refine ⟨_, _, splitOciPath_slashed hseg hname (List.cons_ne_nil _ _) hcomp (by simp [href]) hmem, fun _ => ?_,
      fun h => absurd h hmem⟩
    exact ⟨rfl, slashed_singleton reference⟩

/-! ## Taking suffixes off paths -/

theorem exists_front_iff (hcs : cs ≠ []) : (∃ front, front ≠ [] ∧ cs = front ++ ds) ↔ ds <:+ cs.tail := by
  obtain ⟨c, cs, rfl⟩ := List.exists_cons_of_ne_nil hcs
  constructor
  · rintro ⟨front, hfront, heq⟩
    obtain ⟨d, front, rfl⟩ := List.exists_cons_of_ne_nil hfront
    rw [List.cons_append, List.cons.injEq] at heq
    exact ⟨front, heq.2.symm⟩
  · rintro ⟨front, hfront⟩
    exact ⟨c :: front, List.cons_ne_nil _ _, by rw [List.cons_append, hfront, List.tail_cons]⟩

/-- A name ends in whole components. -/
theorem isSuffix_slashed_iff (hname : name ≠ []) (hds : ds ≠ []) (hcomp : ∀ c ∈ name, IsComponent c)
    (hcomp' : ∀ d ∈ ds, IsComponent d) :
    '/' :: joined '/' (ds.map String.toList) <:+ (slashed name).toList ↔ ds <:+ name.tail := by
  rw [toList_slashed, isSuffix_joined_iff (by simpa using hname) (by simpa using hds) (slash_notMem_map hcomp)
    (slash_notMem_map hcomp'), ← exists_front_iff hname]
  constructor
  · rintro ⟨front, hfront, heq⟩
    obtain ⟨front', back', rfl, rfl, hback⟩ := List.map_eq_append_iff.mp heq
    rw [List.map_injective_iff.mpr toList_injective hback]
    exact ⟨front', by simpa using hfront, rfl⟩
  · rintro ⟨front, hfront, rfl⟩
    exact ⟨front.map String.toList, by simpa using hfront, List.map_append⟩

theorem toList_slashed_append (hname : name ≠ []) (hds : ds ≠ []) : (slashed (name ++ ds)).toList =
    (slashed name).toList ++ '/' :: joined '/' (ds.map String.toList) := by
  rw [toList_slashed, toList_slashed, List.map_append, joined_append (by simpa using hname) (by simpa using hds)]

/-- A suffix is taken off the name as well, if the name ends so. -/
theorem trimEndMatches_slashed_iff (hname : name ≠ []) (hds : ds ≠ []) (hcomp : ∀ c ∈ name, IsComponent c)
    (hcomp' : ∀ d ∈ ds, IsComponent d) {pattern : String}
    (hpattern : pattern.toList = '/' :: joined '/' (ds.map String.toList)) :
    trimEndMatches (slashed (name ++ ds)) pattern = slashed name ↔ ¬ ds <:+ name.tail := by
  rw [← isSuffix_slashed_iff hname hds hcomp hcomp', trimEndMatches, hpattern, toList_slashed_append hname hds]
  have hne : '/' :: joined '/' (ds.map String.toList) ≠ [] := List.cons_ne_nil _ _
  constructor
  · intro h hsuffix
    have hlt := length_trimEnd_append_lt hne hsuffix
    have hlen := congrArg (fun s => s.toList.length) h
    rw [String.toList_ofList] at hlen
    omega
  · intro h
    rw [trimEnd_append hne h, String.ofList_toList]

/-- A name does not end in a slash. -/
theorem slash_not_isSuffix (hname : name ≠ []) (hcomp : ∀ c ∈ name, IsComponent c) :
    ¬ "/".toList <:+ (slashed name).toList := by
  rintro ⟨s, hs⟩
  obtain ⟨pieces, hpieces, hsep, rfl⟩ := exists_joined '/' s
  have hjoin : joined '/' (pieces ++ [[]]) = joined '/' (name.map String.toList) := by
    rw [joined_append hpieces (List.cons_ne_nil _ _), ← toList_slashed]
    exact hs
  have heq := joined_injective (by simp) (by simpa using hname) (by simpa [or_imp, forall_and] using hsep)
    (slash_notMem_map hcomp) hjoin
  have hmem : ([] : List Char) ∈ name.map String.toList := heq ▸ List.mem_append_right _ List.mem_cons_self
  obtain ⟨c, hc, hnil⟩ := List.mem_map.mp hmem
  exact (hcomp c hc).1 (by simpa using hnil)

end Paths

/-! ## Whole requests -/

section Requests

variable {registry : RegistryReplies} {sha2Hex : Bytes → String} {token : Except OciResponse ValidatedIdentity}
  {name : List String} {isHead : Bool} {path repo rest reference digest : String}

theorem calls_dispatch_manifests (hauth : authorize token "pull" = .ok ())
    (hsplit : splitOciPath path "manifests" = some (repo, rest)) :
    (handleV2Dispatch (some registry) sha2Hex token isHead path).calls = [.getManifest repo rest] := by
  simp only [handleV2Dispatch, hauth, hsplit]

theorem calls_dispatch_blobs (hauth : authorize token "pull" = .ok ())
    (hnone : splitOciPath path "manifests" = none) (hsplit : splitOciPath path "blobs" = some (repo, rest)) :
    (handleV2Dispatch (some registry) sha2Hex token isHead path).calls = [.getBlob rest] := by
  simp only [handleV2Dispatch, hauth, hnone, hsplit]

theorem calls_dispatch_tags (hauth : authorize token "pull" = .ok ())
    (hnone : splitOciPath path "manifests" = none) (hnone' : splitOciPath path "blobs" = none)
    (hends : endsWith path "/tags/list" = true) :
    (handleV2Dispatch (some registry) sha2Hex token isHead path).calls =
      [.listTags (trimEndMatches path "/tags/list")] := by
  simp only [handleV2Dispatch, hauth, hnone, hnone', if_pos hends]

theorem isComponent_markers : IsComponent "manifests" ∧ IsComponent "blobs" ∧ IsComponent "uploads" ∧
    IsComponent "tags" ∧ IsComponent "list" := by decide

/-- The inner components after the first one. -/
theorem tail_dropLast_append (hname : name ≠ []) (a b : String) :
    (name ++ [a, b]).tail.dropLast = name.tail ++ [a] := by
  rw [List.tail_append_of_ne_nil hname, List.dropLast_append_of_ne_nil (List.cons_ne_nil _ _)]
  rfl

theorem isComponent_append {a b : String} (hcomp : ∀ c ∈ name, IsComponent c) (ha : IsComponent a)
    (hb : IsComponent b) : ∀ c ∈ name ++ [a, b], IsComponent c := by
  intro c hc
  simp only [List.mem_append, List.mem_cons, List.not_mem_nil, or_false] at hc
  rcases hc with hc | rfl | rfl
  · exact hcomp c hc
  · exact ha
  · exact hb

theorem endsWith_slashed {ds : List String} (hname : name ≠ []) (hds : ds ≠ []) {pattern : String}
    (hpattern : pattern.toList = '/' :: joined '/' (ds.map String.toList)) :
    endsWith (slashed (name ++ ds)) pattern = true := by
  rw [endsWith, toList_slashed_append hname hds, hpattern]
  exact decide_eq_true (List.suffix_append _ _)

theorem blob_calls_iff (hauth : authorize token "pull" = .ok ()) (hname : name ≠ [])
    (hcomp : ∀ c ∈ name, IsComponent c) (hdigest : IsComponent digest) :
    (handleV2Dispatch (some registry) sha2Hex token isHead (slashed (name ++ ["blobs", digest]))).calls =
      [.getBlob digest] ↔ "manifests" ∉ name.tail ∧ "blobs" ∉ name.tail := by
  obtain ⟨hmanifests, hblobs, -⟩ := isComponent_markers
  have hall := isComponent_append hcomp hblobs hdigest
  by_cases hmem : "manifests" ∈ name.tail
  · obtain ⟨front, back, -, -, hsplit⟩ := splitOciPath_mistaken hmanifests (List.cons_ne_nil "blobs" [digest])
      hcomp (fun c hc => hall c (List.mem_append_right name hc)) hmem
    rw [calls_dispatch_manifests hauth hsplit]
    simp [hmem]
  · have hnone : splitOciPath (slashed (name ++ ["blobs", digest])) "manifests" = none := by
      refine splitOciPath_eq_none hmanifests hall ?_
      rw [tail_dropLast_append hname, List.mem_append, List.mem_singleton, not_or]
      exact ⟨hmem, by decide⟩
    obtain ⟨repo, rest, hsplit, hok, hbad⟩ := splitOciPath_name hblobs hname hcomp hdigest
    rw [calls_dispatch_blobs hauth hnone hsplit, List.cons.injEq, RegistryCall.getBlob.injEq, and_iff_left rfl]
    constructor
    · exact fun h => ⟨hmem, fun hin => (hbad hin).2 h⟩
    · exact fun h => (hok h.2).2

theorem tags_calls_iff (hauth : authorize token "pull" = .ok ()) (hname : name ≠ [])
    (hcomp : ∀ c ∈ name, IsComponent c) :
    (handleV2Dispatch (some registry) sha2Hex token isHead (slashed (name ++ ["tags", "list"]))).calls =
      [.listTags (slashed name)] ↔
      "manifests" ∉ name.tail ∧ "blobs" ∉ name.tail ∧ ¬ ["tags", "list"] <:+ name.tail := by
  obtain ⟨hmanifests, hblobs, -, htags, hlist⟩ := isComponent_markers
  have hall := isComponent_append hcomp htags hlist
  have hrest : ∀ c ∈ ["tags", "list"], IsComponent c := fun c hc => hall c (List.mem_append_right name hc)
  have hnone : ∀ {seg : String}, IsComponent seg → seg ≠ "tags" → seg ∉ name.tail →
      splitOciPath (slashed (name ++ ["tags", "list"])) seg = none := by
    intro seg hseg hne hmem
    refine splitOciPath_eq_none hseg hall ?_
    rw [tail_dropLast_append hname, List.mem_append, List.mem_singleton, not_or]
    exact ⟨hmem, hne⟩
  by_cases hmem : "manifests" ∈ name.tail
  · obtain ⟨front, back, -, -, hsplit⟩ :=
      splitOciPath_mistaken hmanifests (List.cons_ne_nil _ _) hcomp hrest hmem
    rw [calls_dispatch_manifests hauth hsplit]
    simp [hmem]
  · have hfirst := hnone hmanifests (by decide) hmem
    by_cases hmem' : "blobs" ∈ name.tail
    · obtain ⟨front, back, -, -, hsplit⟩ :=
        splitOciPath_mistaken hblobs (List.cons_ne_nil _ _) hcomp hrest hmem'
      rw [calls_dispatch_blobs hauth hfirst hsplit]
      simp [hmem']
    · have hpattern : "/tags/list".toList = '/' :: joined '/' (["tags", "list"].map String.toList) := by decide
      rw [calls_dispatch_tags hauth hfirst (hnone hblobs (by decide) hmem')
        (endsWith_slashed hname (List.cons_ne_nil _ _) hpattern), List.cons.injEq, RegistryCall.listTags.injEq,
        and_iff_left rfl, trimEndMatches_slashed_iff hname (List.cons_ne_nil _ _) hcomp hrest hpattern]
      simp [hmem, hmem']

/-- The repository of an upload is the name, unless the name ends like the path of an upload. -/
theorem uploadRepository_iff (hname : name ≠ []) (hcomp : ∀ c ∈ name, IsComponent c) :
    uploadRepository (slashed (name ++ ["blobs", "uploads", ""])) = slashed name ↔
      ¬ ["blobs", "uploads"] <:+ name.tail := by
  obtain ⟨-, hblobs, huploads, -⟩ := isComponent_markers
  have hall := isComponent_append hcomp hblobs huploads
  have hrest : ∀ c ∈ ["blobs", "uploads"], IsComponent c := fun c hc => hall c (List.mem_append_right name hc)
  have hpattern : "/blobs/uploads".toList = '/' :: joined '/' (["blobs", "uploads"].map String.toList) := by decide
  have htrim : ∀ {cs : List String}, cs ≠ [] → (∀ c ∈ cs, IsComponent c) →
      trimEndMatches (slashed cs) "/" = slashed cs := by
    intro cs hcs hc
    rw [trimEndMatches, trimEnd_of_not_isSuffix (slash_not_isSuffix hcs hc), String.ofList_toList]
  have hfirst : trimEndMatches (slashed (name ++ ["blobs", "uploads", ""])) "/" =
      slashed (name ++ ["blobs", "uploads"]) := by
    have hlist : (slashed (name ++ ["blobs", "uploads", ""])).toList =
        (slashed (name ++ ["blobs", "uploads"])).toList ++ "/".toList := by
      rw [toList_slashed_append hname (List.cons_ne_nil _ _), toList_slashed_append hname (List.cons_ne_nil _ _),
        List.append_assoc]
      rfl
    rw [trimEndMatches, hlist, trimEnd_append (by decide) (slash_not_isSuffix (by simp [hname]) hall),
      String.ofList_toList]
  have hiff := trimEndMatches_slashed_iff hname (List.cons_ne_nil _ _) hcomp hrest hpattern
  rw [uploadRepository, hfirst]
  constructor
  · intro h hsuffix
    have hsuffix' := (isSuffix_slashed_iff hname (List.cons_ne_nil _ _) hcomp hrest).mpr hsuffix
    have hpath := toList_slashed_append hname (List.cons_ne_nil "blobs" ["uploads"])
    rw [← hpattern] at hsuffix' hpath
    -- what is left is shorter than the name
    have hlt := length_trimEnd_append_lt (by decide) hsuffix'
    rw [← hpath] at hlt
    have hle := (trimEndFrom_isPrefix "/".toList
      (trimEnd "/blobs/uploads".toList (slashed (name ++ ["blobs", "uploads"])).toList).length
      (trimEnd "/blobs/uploads".toList (slashed (name ++ ["blobs", "uploads"])).toList)).length_le
    have hlen := congrArg (fun s => s.toList.length) h
    simp only [trimEndMatches, String.toList_ofList] at hlen
    rw [trimEnd] at hlen
    omega
  · intro h
    rw [hiff.mpr h, htrim hname hcomp]

/-- **A request reaches the repository that it names exactly when nothing in the name is taken for what follows.**
For every name of components and every reference, the registry is called with the name and the reference, if and
only if no component of the name after the first is a marker that the handler looks for, and the name does not end
like the path itself. -/
theorem calls_iff (registry : RegistryReplies) (sha2Hex : Bytes → String)
    (token : Except OciResponse ValidatedIdentity) (request : OciRequest)
    (hauth : authorize token request.scope = .ok ()) (hname : name ≠ []) (hcomp : ∀ c ∈ name, IsComponent c)
    (hrequest : request.WellFormed) :
    (request.run registry sha2Hex token (slashed (name ++ request.rest))).calls = [request.call (slashed name)] ↔
      request.Unmistakable name := by
  obtain ⟨hmanifests, -⟩ := isComponent_markers
  cases request with
  | getManifest isHead reference =>
    obtain ⟨repo, rest, hsplit, hok, hbad⟩ := splitOciPath_name hmanifests hname hcomp hrequest
    rw [OciRequest.run, OciRequest.rest, calls_dispatch_manifests hauth hsplit, OciRequest.call, List.cons.injEq,
      RegistryCall.getManifest.injEq, and_iff_left rfl]
    exact ⟨fun h hin => (hbad hin).1 h.1, hok⟩
  | putManifest contentType data reference =>
    obtain ⟨repo, rest, hsplit, hok, hbad⟩ := splitOciPath_name hmanifests hname hcomp hrequest
    have hcalls : (handleV2Put (some registry) sha2Hex token contentType (.ok data)
        (slashed (name ++ ["manifests", reference]))).calls =
          [.putManifest repo rest (contentType.getD RegistryBackend.defaultContentType) data] := by
      have hauth' : authorize token "push" = .ok () := hauth
      simp only [handleV2Put, hauth', hsplit]
    rw [OciRequest.run, OciRequest.rest, hcalls, OciRequest.call, List.cons.injEq, RegistryCall.putManifest.injEq,
      and_iff_left rfl]
    exact ⟨fun h hin => (hbad hin).1 h.1, fun h => ⟨(hok h).1, (hok h).2, rfl, rfl⟩⟩
  | deleteManifest reference =>
    obtain ⟨repo, rest, hsplit, hok, hbad⟩ := splitOciPath_name hmanifests hname hcomp hrequest
    have hcalls : (handleV2Delete (some registry) token (slashed (name ++ ["manifests", reference]))).calls =
        [.deleteManifest repo rest] := by
      have hauth' : authorize token "delete" = .ok () := hauth
      simp only [handleV2Delete, hauth', hsplit]
    rw [OciRequest.run, OciRequest.rest, hcalls, OciRequest.call, List.cons.injEq,
      RegistryCall.deleteManifest.injEq, and_iff_left rfl]
    exact ⟨fun h hin => (hbad hin).1 h.1, hok⟩
  | getBlob isHead digest => exact blob_calls_iff hauth hname hcomp hrequest
  | listTags => exact tags_calls_iff hauth hname hcomp
  | startUpload =>
    have hends : endsWith (slashed (name ++ ["blobs", "uploads", ""])) "/blobs/uploads/" = true :=
      endsWith_slashed hname (List.cons_ne_nil _ _) (by decide)
    have hcalls : (handleV2Post (some registry) token (slashed (name ++ ["blobs", "uploads", ""]))).calls =
        [.startBlobUpload (uploadRepository (slashed (name ++ ["blobs", "uploads", ""])))] := by
      have hauth' : authorize token "push" = .ok () := hauth
      simp only [handleV2Post, hauth', if_pos (Or.inl hends)]
    rw [OciRequest.run, OciRequest.rest, hcalls, OciRequest.call, List.cons.injEq,
      RegistryCall.startBlobUpload.injEq, and_iff_left rfl]
    exact uploadRepository_iff hname hcomp

end Requests

/-! ## A plain name, and one with a marker -/

/-- A registry that has nothing. -/
def emptyRegistry : RegistryReplies where
  getManifest _ _ := .error "manifest unknown"
  putManifest _ _ _ _ := .error "read-only"
  deleteManifest _ _ := .error "read-only"
  getBlob _ := .error "blob unknown"
  putBlob _ _ := .error "read-only"
  listTags _ := .ok []
  startBlobUpload _ := .ok "0"

/-- An administrator. -/
def registryAdmin : ValidatedIdentity := ⟨"https://picloud.local/identities/admin", none, ["admin"], none, [], []⟩

/-- The manifest of a repository with two components is read. -/
theorem calls_plain : (OciRequest.run emptyRegistry (fun _ => "") (.ok registryAdmin)
    (slashed (["photo-app", "api"] ++ (OciRequest.getManifest false "v1.0").rest))
      (.getManifest false "v1.0")).calls = [.getManifest (slashed ["photo-app", "api"]) "v1.0"] :=
  (calls_iff emptyRegistry (fun _ => "") (.ok registryAdmin) (.getManifest false "v1.0") (by decide)
    (List.cons_ne_nil _ _) (by decide) (by decide : IsComponent "v1.0")).mpr (by decide : "manifests" ∉ ["api"])

/-- In a repository with a component `manifests` another repository is read. -/
theorem calls_marked : (OciRequest.run emptyRegistry (fun _ => "") (.ok registryAdmin)
    (slashed (["app", "manifests", "api"] ++ (OciRequest.getManifest false "v1.0").rest))
      (.getManifest false "v1.0")).calls = [.getManifest "app" "api/manifests/v1.0"] ∧
    RegistryCall.getManifest "app" "api/manifests/v1.0" ≠
      (OciRequest.getManifest false "v1.0").call (slashed ["app", "manifests", "api"]) := by
  decide +kernel

end Picloud
