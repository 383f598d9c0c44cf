import Picloud.Domain.Specs

/-!
# Dependencies and the order of provisioning

Reference: `sort_for_provisioning`, `validate` and `to_spec` of `picloud-domain/src/parser.rs`.

The sort is by kind. A kind that is needed has to come before the kinds that need it: this is so for
products, volumes and data domains, and not for secrets, which come after the workloads whose environment
refers to them.
-/

namespace Picloud

open Lib

/-! ## Dependencies -/

namespace ResourceDeclaration

/-- The product of a workload. -/
def workloadProduct : ResourceDeclaration → Option String
  | .container c => some c.product
  | .binary b => some b.product
  | _ => none

/-- The mounts of a workload, as the runtime takes them. -/
def workloadMounts (formats : Formats) : ResourceDeclaration → List VolumeMount
  | .container c => (c.toSpec formats).mounts
  | .binary b => (b.toSpec formats).mounts
  | _ => []

/-- The environment of a workload, as the runtime takes it. -/
def workloadEnv (formats : Formats) : ResourceDeclaration → List (String × EnvValue)
  | .container c => (c.toSpec formats).env
  | .binary b => (b.toSpec formats).env
  | _ => []

/-- The environment of a workload refers to the secret. -/
inductive NeedsSecret (formats : Formats) : ResourceDeclaration → ResourceDeclaration → Prop
  | env {decl : ResourceDeclaration} {s : SecretDecl} {name : String}
    (hproduct : decl.workloadProduct = some s.product)
    (henv : (name, EnvValue.secret s.name) ∈ decl.workloadEnv formats) :
    NeedsSecret formats decl (.secret s)

/-- What a declaration needs: its product, the volumes that it mounts, the secrets that its environment
refers to, and the domain of a data product. -/
inductive Needs (formats : Formats) : ResourceDeclaration → ResourceDeclaration → Prop
  | product {decl : ResourceDeclaration} {p : ProductDecl}
    (hproduct : decl.productName = some p.name) : Needs formats decl (.product p)
  | volume {decl : ResourceDeclaration} {v : VolumeDecl} {m : VolumeMount}
    (hproduct : decl.workloadProduct = some v.product) (hm : m ∈ decl.workloadMounts formats)
    (hvolume : m.volume = v.name) : Needs formats decl (.volume v)
  | secret {decl dep : ResourceDeclaration} (hsecret : NeedsSecret formats decl dep) :
    Needs formats decl dep
  | domain {d : DataProductDecl} {domain : DataDomainDecl} (hdomain : d.domain = domain.name) :
    Needs formats (.dataProduct d) (.dataDomain domain)

/-- A secret comes after the workloads that need it. -/
theorem NeedsSecret.order_lt {formats : Formats} {decl dep : ResourceDeclaration}
    (h : NeedsSecret formats decl dep) : decl.provisioningOrder < dep.provisioningOrder := by
  cases h with
  | env hproduct henv =>
    cases decl with
    | container c => simp [provisioningOrder]
    | binary b => simp [provisioningOrder]
    | _ => cases hproduct

/-- Everything else comes before what needs it. -/
theorem Needs.order_lt {formats : Formats} {decl dep : ResourceDeclaration}
    (h : Needs formats decl dep) (hsecret : ¬ NeedsSecret formats decl dep) :
    dep.provisioningOrder < decl.provisioningOrder := by
  cases h with
  | product hproduct =>
    cases decl with
    | product p | group g | inferenceRule r | capability c | dataDomain d => cases hproduct
    | _ => simp [provisioningOrder]
  | volume hproduct hm hvolume =>
    cases decl with
    | container c => simp [provisioningOrder]
    | binary b => simp [provisioningOrder]
    | _ => cases hproduct
  | secret h => exact absurd h hsecret
  | domain hdomain => simp [provisioningOrder]

end ResourceDeclaration

/-! ## The sorted file -/

namespace ResourceFile

variable {file : ResourceFile}

theorem perm_sortForProvisioning : file.sortForProvisioning.Perm file.resources :=
  List.perm_insertionSort _ _

instance totalProvisioningOrder : Std.Total fun a b : ResourceDeclaration =>
    a.provisioningOrder ≤ b.provisioningOrder := ⟨fun _ _ => Nat.le_total _ _⟩

instance transProvisioningOrder : IsTrans ResourceDeclaration fun a b =>
    a.provisioningOrder ≤ b.provisioningOrder := ⟨fun _ _ _ => Nat.le_trans⟩

/-- The sorted declarations are in the order of their kinds. -/
theorem pairwise_sortForProvisioning : file.sortForProvisioning.Pairwise fun a b =>
    a.provisioningOrder ≤ b.provisioningOrder :=
  List.pairwise_insertionSort _ file.resources

/-- Declarations of kinds with the same key stay in the order of the file. -/
theorem filter_sortForProvisioning (k : ℕ) :
    file.sortForProvisioning.filter (·.provisioningOrder = k) =
      file.resources.filter (·.provisioningOrder = k) := by
  have hkey : ∀ decl ∈ file.resources.filter (·.provisioningOrder = k),
      decl.provisioningOrder = k := fun decl h => by simpa using (List.mem_filter.mp h).2
  have hsorted : (file.resources.filter (·.provisioningOrder = k)).Pairwise fun a b =>
      a.provisioningOrder ≤ b.provisioningOrder :=
    List.pairwise_of_forall_mem_list fun a ha b hb => (hkey a ha).le.trans (hkey b hb).ge
  have hsub := (List.sublist_insertionSort hsorted List.filter_sublist).filter
    (·.provisioningOrder = k)
  rw [List.filter_eq_self.mpr fun decl h => by simpa using hkey decl h] at hsub
  exact (hsub.eq_of_length (perm_sortForProvisioning.filter _).length_eq.symm).symm

/-- What is claimed: the result is a stable permutation, and nothing comes before what it needs. -/
structure InDependencyOrder (formats : Formats) (file : ResourceFile) : Prop where
  perm : file.sortForProvisioning.Perm file.resources
  stable : ∀ k, file.sortForProvisioning.filter (·.provisioningOrder = k) =
    file.resources.filter (·.provisioningOrder = k)
  afterNeeds : file.sortForProvisioning.Pairwise fun a b => ¬ a.Needs formats b

/-- No workload of the file refers to a secret that the file declares for its product. -/
def NoSecretNeeded (formats : Formats) (file : ResourceFile) : Prop :=
  ∀ a ∈ file.resources, ∀ b ∈ file.resources, ¬ a.NeedsSecret formats b

/-- **The order of provisioning respects the dependencies** exactly when no workload needs a secret of
the same file. -/
theorem in_dependency_order_iff (formats : Formats) (file : ResourceFile) :
    file.InDependencyOrder formats ↔ file.NoSecretNeeded formats := by
  constructor
  · intro h a ha b hb hneeds
    obtain ⟨i, hi, rfl⟩ := List.getElem_of_mem (perm_sortForProvisioning.mem_iff.mpr ha)
    obtain ⟨j, hj, rfl⟩ := List.getElem_of_mem (perm_sortForProvisioning.mem_iff.mpr hb)
    have hlt := hneeds.order_lt
    have hij : i < j := by
      by_contra hnot
      rcases Nat.lt_or_eq_of_le (Nat.le_of_not_lt hnot) with hji | rfl
      · have hle := List.pairwise_iff_getElem.mp pairwise_sortForProvisioning j i hj hi hji
        omega
      · omega
    exact List.pairwise_iff_getElem.mp h.afterNeeds i j hi hj hij (.secret hneeds)
  · intro hsecrets
    refine ⟨perm_sortForProvisioning, filter_sortForProvisioning, ?_⟩
    refine pairwise_sortForProvisioning.imp_of_mem fun ha hb hle hneeds => ?_
    have hnone := hsecrets _ (perm_sortForProvisioning.mem_iff.mp ha) _
      (perm_sortForProvisioning.mem_iff.mp hb)
    have hlt := hneeds.order_lt hnone
    omega

/-- A product, and a container whose environment refers to a secret of the product. -/
def secretFile : ResourceFile where
  resources :=
    [.product ⟨"app", "1.0.0", none, [], []⟩, .secret ⟨"db", "app", "pw", []⟩,
      .container ⟨"api", "app", "img:1", "default", none, none, [],
        [("DB_URL", .object [("secret", .string "db")])], [], []⟩]

/-- The file is valid, and its container is provisioned before the secret. -/
theorem not_inDependencyOrder_secret : ¬ ∀ (formats : Formats) (file : ResourceFile),
    file.validate = .ok () → file.InDependencyOrder formats := by
  intro h
  have hafter := (h ⟨fun _ => "", fun _ => none⟩ secretFile rfl).afterNeeds
  have hlength : secretFile.sortForProvisioning.length = 3 := rfl
  refine List.pairwise_iff_getElem.mp hafter 1 2 (by omega) (by omega) (by omega) ?_
  exact .secret (.env rfl (List.mem_singleton.mpr rfl))

end ResourceFile

end Picloud
