import Picloud.Lib.JsonLines
import Picloud.Lib.Steps

/-!
# The secret store

Reference: `picloud-iam/src/secrets.rs`. The values are sealed with AES-GCM, which is the environment's and
is assumed to open what it has sealed.

`SecretMap` is what the store is for: a map from pairs of a product and a name. The store joins a pair to
one text, so two pairs with the same text share an entry (`not_secrets_shared`). As long as no call is
made for a pair whose text is that of another stored pair, the store replies as the map does
(`secret_replies_eq`); when no product has a slash in its name, that is always so.
-/

namespace Picloud

open Lib

/-! ## The store -/

/-- AES-256-GCM under the key of the store, with a nonce. -/
structure SecretCipher where
  sealText : Bytes → Bytes → Option Bytes
  openText : Bytes → Bytes → Option Bytes

/-- What has been sealed is opened. -/
def SecretCipher.RoundTrips (cipher : SecretCipher) : Prop :=
  ∀ nonce text sealed, cipher.sealText nonce text = some sealed → cipher.openText nonce sealed = some text

/-- `EncryptedSecret`. -/
structure EncryptedSecret where
  ciphertext : Bytes
  nonce : Bytes

/-- `InMemorySecretStore`: the entries by their keys. -/
abbrev SecretStore := String → Option EncryptedSecret

/-- The errors of the store. -/
inductive SecretError where
  | secretNotFound (product name : String)
  | internal (reason : String)
deriving DecidableEq

/-- `storage_key`. -/
def storageKey (product name : String) : String := product ++ "/" ++ name

namespace SecretStore

variable (cipher : SecretCipher) (secrets : SecretStore)

/-- `store_secret`, where the nonce has been drawn. -/
def storeSecret (nonce : Bytes) (product name value : String) : SecretStore × Except SecretError Unit :=
  match cipher.sealText nonce (utf8 value) with
  | none => (secrets, .error (.internal "AES-256-GCM encryption failed"))
  | some ciphertext =>
    (Function.update secrets (storageKey product name) (some ⟨ciphertext, nonce⟩), .ok ())

/-- `get_secret`. -/
def getSecret (product name : String) : Except SecretError String :=
  match secrets (storageKey product name) with
  | none => .error (.secretNotFound product name)
  | some entry =>
    match cipher.openText entry.nonce entry.ciphertext with
    | none => .error (.internal "AES-256-GCM decryption failed")
    | some text =>
      match ofUtf8 text with
      | none => .error (.internal "Decrypted secret is not valid UTF-8")
      | some value => .ok value

/-- `delete_secret`. -/
def deleteSecret (product name : String) : SecretStore :=
  Function.update secrets (storageKey product name) none

end SecretStore

/-! ## Calls -/

/-- A call, with the nonce that a store draws. -/
inductive SecretCall where
  | store (nonce : Bytes) (product name value : String)
  | get (product name : String)
  | delete (product name : String)

/-- What a call returns. -/
inductive SecretReply where
  | done (result : Except SecretError Unit)
  | value (result : Except SecretError String)
deriving DecidableEq

/-- The pair that a call is about. -/
def SecretCall.pair : SecretCall → String × String
  | .store _ product name _ | .get product name | .delete product name => (product, name)

/-- The store answers a call. -/
def SecretStore.answer (cipher : SecretCipher) (secrets : SecretStore) :
    SecretCall → SecretStore × SecretReply
  | .store nonce product name value =>
    let (secrets, result) := secrets.storeSecret cipher nonce product name value
    (secrets, .done result)
  | .get product name => (secrets, .value (secrets.getSecret cipher product name))
  | .delete product name => (secrets.deleteSecret product name, .done (.ok ()))

/-- The values of the pairs. -/
abbrev SecretMap := String × String → Option String

/-- What a map of pairs answers; a value that cannot be sealed is not stored. -/
def SecretMap.answer (cipher : SecretCipher) (map : SecretMap) : SecretCall → SecretMap × SecretReply
  | .store nonce product name value =>
    if (cipher.sealText nonce (utf8 value)).isSome then
      (Function.update map (product, name) (some value), .done (.ok ()))
    else (map, .done (.error (.internal "AES-256-GCM encryption failed")))
  | .get product name =>
    (map, .value (match map (product, name) with
      | some value => .ok value
      | none => .error (.secretNotFound product name)))
  | .delete product name => (Function.update map (product, name) none, .done (.ok ()))

/-- The key of a pair. -/
abbrev pairKey (pair : String × String) : String := storageKey pair.1 pair.2

/-- No other pair that is stored has the key of the call. -/
def Unambiguous (map : SecretMap) (call : SecretCall) : Prop :=
  ∀ pair, map pair ≠ none → pairKey pair = pairKey call.pair → pair = call.pair

/-! ## The map in the store -/

/-- The entries of the store are those of the map, each under a key of its own. -/
structure HoldsSecrets (cipher : SecretCipher) (map : SecretMap) (secrets : SecretStore) : Prop where
  entry : ∀ pair value, map pair = some value → ∃ entry, secrets (pairKey pair) = some entry ∧
    cipher.openText entry.nonce entry.ciphertext = some (utf8 value)
  known : ∀ key entry, secrets key = some entry → ∃ pair, map pair ≠ none ∧ pairKey pair = key
  apart : ∀ pair pair', map pair ≠ none → map pair' ≠ none → pairKey pair = pairKey pair' → pair = pair'

section Simulation

variable {cipher : SecretCipher} {map : SecretMap} {secrets : SecretStore} {product name : String}

theorem holdsSecrets_empty (cipher : SecretCipher) : HoldsSecrets cipher (fun _ => none) (fun _ => none) where
  entry _ _ h := by cases h
  known _ _ h := by cases h
  apart _ _ h := absurd rfl h

/-- Without a value for the pair there is no entry at its key. -/
theorem HoldsSecrets.secrets_eq_none (h : HoldsSecrets cipher map secrets) {pair : String × String}
    (hpair : map pair = none) (hfree : ∀ pair', map pair' ≠ none → pairKey pair' = pairKey pair → pair' = pair) :
    secrets (pairKey pair) = none := by
  cases hentry : secrets (pairKey pair) with
  | none => rfl
  | some entry =>
    obtain ⟨pair', hstored, hkey⟩ := h.known _ _ hentry
    rw [hfree pair' hstored hkey] at hstored
    exact absurd hpair hstored

theorem HoldsSecrets.update (h : HoldsSecrets cipher map secrets) {pair : String × String}
    {value : Option String} {entry : Option EncryptedSecret}
    (hfree : ∀ pair', map pair' ≠ none → pairKey pair' = pairKey pair → pair' = pair)
    (hvalue : ∀ v, value = some v →
      ∃ e, entry = some e ∧ cipher.openText e.nonce e.ciphertext = some (utf8 v))
    (hentry : ∀ e, entry = some e → value ≠ none) :
    HoldsSecrets cipher (Function.update map pair value)
      (Function.update secrets (pairKey pair) entry) where
  entry pair' v hv := by
    by_cases hsame : pair' = pair
    · rw [hsame, Function.update_self] at hv
      rw [hsame, Function.update_self]
      exact hvalue v hv
    · rw [Function.update_of_ne hsame] at hv
      have hkey : pairKey pair' ≠ pairKey pair := fun hkey => hsame (hfree pair' (by rw [hv]; nofun) hkey)
      rw [Function.update_of_ne hkey]
      exact h.entry pair' v hv
  known key e he := by
    by_cases hkey : key = pairKey pair
    · rw [hkey, Function.update_self] at he
      exact ⟨pair, by rw [Function.update_self]; exact hentry e he, hkey.symm⟩
    · rw [Function.update_of_ne hkey] at he
      obtain ⟨pair', hstored, rfl⟩ := h.known key e he
      have hne : pair' ≠ pair := fun hne => hkey (congrArg pairKey hne)
      exact ⟨pair', by rwa [Function.update_of_ne hne], rfl⟩
  apart pair₁ pair₂ h₁ h₂ hkey := by
    by_cases hfirst : pair₁ = pair
    · by_cases hsecond : pair₂ = pair
      · rw [hfirst, hsecond]
      · rw [Function.update_of_ne hsecond] at h₂
        exact hfirst.trans (hfree pair₂ h₂ (hkey.symm.trans (congrArg pairKey hfirst))).symm
    · rw [Function.update_of_ne hfirst] at h₁
      by_cases hsecond : pair₂ = pair
      · exact (hfree pair₁ h₁ (hkey.trans (congrArg pairKey hsecond))).trans hsecond.symm
      · rw [Function.update_of_ne hsecond] at h₂
        exact h.apart pair₁ pair₂ h₁ h₂ hkey

theorem HoldsSecrets.getSecret (h : HoldsSecrets cipher map secrets)
    (hfree : Unambiguous map (.get product name)) : secrets.getSecret cipher product name =
      match map (product, name) with
      | some value => .ok value
      | none => .error (.secretNotFound product name) := by
  rw [SecretStore.getSecret]
  cases hvalue : map (product, name) with
  | none =>
    have hnone : secrets (storageKey product name) = none := h.secrets_eq_none hvalue hfree
    rw [hnone]
  | some value =>
    obtain ⟨entry, hentry, hopen⟩ := h.entry _ _ hvalue
    have hkey : secrets (storageKey product name) = some entry := hentry
    rw [hkey]
    dsimp only
    rw [hopen]
    dsimp only
    rw [ofUtf8_utf8]

/-- A call for a pair that shares its key with no other one. -/
theorem holdsSecrets_answer (hround : cipher.RoundTrips) (h : HoldsSecrets cipher map secrets)
    {call : SecretCall} (hfree : Unambiguous map call) :
    HoldsSecrets cipher (map.answer cipher call).1 (secrets.answer cipher call).1 ∧
      (secrets.answer cipher call).2 = (map.answer cipher call).2 := by
  cases call with
  | store nonce product name value =>
    rw [SecretStore.answer, SecretStore.storeSecret, SecretMap.answer]
    cases hseal : cipher.sealText nonce (utf8 value) with
    | none => exact ⟨h, rfl⟩
    | some ciphertext =>
      refine ⟨h.update hfree (fun v hv => ?_) (fun _ _ => nofun), rfl⟩
      cases hv
      exact ⟨_, rfl, hround nonce _ _ hseal⟩
  | get product name =>
    refine ⟨h, ?_⟩
    rw [SecretStore.answer, SecretMap.answer, h.getSecret hfree]
  | delete product name => exact ⟨h.update hfree (fun _ hv => by cases hv) (fun _ he => by cases he), rfl⟩

end Simulation

/-- **The store replies as the map of pairs does**, in every run in which no call is made for a pair that
shares its key with another stored pair. -/
theorem secret_replies_eq (cipher : SecretCipher) (hround : cipher.RoundTrips) (calls : List SecretCall)
    (hmeet : StepsMeet (fun map call => some (SecretMap.answer cipher map call).1) Unambiguous
      (fun _ => none) calls) :
    replies (SecretStore.answer cipher) (fun _ => none) calls =
      replies (SecretMap.answer cipher) (fun _ => none) calls := by
  refine replies_eq_of_simulation (R := HoldsSecrets cipher) (C := Unambiguous) ?_
    (holdsSecrets_empty cipher) hmeet
  intro map secrets call h hfree
  exact holdsSecrets_answer hround h hfree

/-! ## Names without slashes -/

/-- Products without a slash in their names do not share keys. -/
theorem storageKey_inj {product product' name name' : String} (hproduct : '/' ∉ product.toList)
    (hproduct' : '/' ∉ product'.toList) (h : storageKey product name = storageKey product' name') :
    product = product' ∧ name = name' := by
  have hfirst : ∀ {p : List Char}, '/' ∉ p → ∀ n : List Char, (p ++ '/' :: n).takeWhile (· ≠ '/') = p := by
    intro p hp n
    rw [List.takeWhile_append_of_pos fun c hc => by simpa using fun heq : c = '/' => hp (heq ▸ hc)]
    simp
  have hlist : product.toList ++ '/' :: name.toList = product'.toList ++ '/' :: name'.toList := by
    simpa [storageKey] using congrArg String.toList h
  have hsame : product.toList = product'.toList := by
    rw [← hfirst hproduct name.toList, hlist, hfirst hproduct']
  rw [hsame] at hlist
  exact ⟨String.toList_inj.mp hsame,
    String.toList_inj.mp (List.cons.inj (List.append_cancel_left hlist)).2⟩

/-- As long as no product has a slash in its name, no two pairs share a key. -/
theorem unambiguous_of_products (cipher : SecretCipher) {calls : List SecretCall}
    (hproducts : ∀ call ∈ calls, '/' ∉ call.pair.1.toList) :
    StepsMeet (fun map call => some (SecretMap.answer cipher map call).1) Unambiguous
      (fun _ => none) calls := by
  have hall : StepsMeet (fun map call => some (SecretMap.answer cipher map call).1)
      (fun _ call => '/' ∉ call.pair.1.toList) (fun _ => none) calls :=
    stepsMeet_of_forall _ (fun call hcall _ => hproducts call hcall) _
  refine hall.of_invariant _ (I := fun map => ∀ pair, map pair ≠ none → '/' ∉ pair.1.toList) ?_ ?_
    fun _ h => absurd rfl h
  · rintro map call map' hmap hcall hstep pair hpair
    cases hstep
    by_cases hsame : pair = call.pair
    · rwa [hsame]
    · refine hmap pair fun hnone => hpair ?_
      cases call with
      | store nonce product name value =>
        rw [SecretMap.answer]
        split_ifs
        · exact (Function.update_of_ne hsame _ _).trans hnone
        · exact hnone
      | get product name => exact hnone
      | delete product name => exact (Function.update_of_ne hsame _ _).trans hnone
  · intro map call hmap hcall pair hpair hkey
    obtain ⟨hproduct, hname⟩ := storageKey_inj (hmap pair hpair) hcall hkey
    exact Prod.ext hproduct hname

/-- A cipher that writes a tag behind the text. -/
def sampleCipher : SecretCipher where
  sealText nonce text := some (text ++ nonce)
  openText nonce sealed := if nonce <:+ sealed then some (sealed.take (sealed.length - nonce.length)) else none

theorem sampleCipher_roundTrips : sampleCipher.RoundTrips := by
  intro nonce text sealed h
  cases h
  rw [sampleCipher]
  simp

/-- Two products keep a secret of the same name. -/
def twoProducts : List SecretCall :=
  [.store [1] "app-a" "shared-name" "value-a", .store [2] "app-b" "shared-name" "value-b",
    .get "app-a" "shared-name", .delete "app-b" "shared-name", .get "app-b" "shared-name"]

theorem secret_replies_twoProducts : sampleCipher.RoundTrips ∧
    replies (SecretStore.answer sampleCipher) (fun _ => none) twoProducts =
      replies (SecretMap.answer sampleCipher) (fun _ => none) twoProducts := by
  refine ⟨sampleCipher_roundTrips, secret_replies_eq sampleCipher sampleCipher_roundTrips twoProducts
    (unambiguous_of_products sampleCipher ?_)⟩
  decide

/-- The product `a/b` overwrites and reads the secret `b/c` of the product `a`. -/
theorem not_secrets_shared : sampleCipher.RoundTrips ∧
    replies (SecretStore.answer sampleCipher) (fun _ => none)
      [.store [1] "a" "b/c" "mine", .get "a/b" "c"] = [.done (.ok ()), .value (.ok "mine")] ∧
    replies (SecretMap.answer sampleCipher) (fun _ => none)
      [.store [1] "a" "b/c" "mine", .get "a/b" "c"] =
        [.done (.ok ()), .value (.error (.secretNotFound "a/b" "c"))] :=
  ⟨sampleCipher_roundTrips, by decide +kernel, by decide +kernel⟩

end Picloud
