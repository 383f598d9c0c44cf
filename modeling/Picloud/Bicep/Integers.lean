import Picloud.Bicep.Returns

/-!
# Integers in Bicep texts

A number is read as a floating point number and converted, a quoted one is parsed as an integer with a
default; the port of an ingress is then cut down to 16 bits. `integersKept_iff` says for every file that is
read which integers arrive as they are written.
-/

namespace Picloud.Bicep

open Lib

/-! ## Literals and fields -/

/-- The integer literal that a value is, quoted or not. -/
def BicepText.integer : BicepText → Option (Bool × ℕ)
  | .quoted text | .bare text => Binary64.integer text
  | _ => none

/-- If the value is an integer literal, it stands for this number. -/
def Means (v : BicepText) (field : ℕ) : Prop :=
  ∀ literal, v.integer = some literal → (field : ℤ) = Binary64.signed literal

/-- The value at a key, if there is one, means this number. -/
def MeansAt (pairs : TextPairs) (key : String) (field : ℕ) : Prop :=
  ∀ v, Assoc.get pairs key = some v → Means v field

/-- The integers of a declaration are those of its text. -/
def IntegersKept (text : TextDecl) (decl : ResourceDeclaration) : Prop :=
  ∀ pairs, parseBicepKv text.body = .ok pairs →
    match decl with
    | .ingress i => MeansAt pairs "port" i.port.toNat
    | .container c => ∀ items, Assoc.get pairs "ports" = some (.array items) →
        List.Forall₂ (fun v port => Means v port.toNat) items c.ports
    | .volume v => MeansAt pairs "size_gb" v.sizeGb.toNat
    | _ => True

/-- The number is a port. -/
def IsPort (literal : Bool × ℕ) : Prop :=
  0 ≤ Binary64.signed literal ∧ Binary64.signed literal < 2 ^ 16

/-- The number comes through a floating point number: it has few enough bits, or is the greatest one. -/
def IsKeptSize (literal : Bool × ℕ) : Prop :=
  0 ≤ Binary64.signed literal ∧
    (literal.2 < 2 ^ 64 ∧ Binary64.Exact literal.2 ∨ literal.2 = 2 ^ 64 - 1)

/-- The size of a volume is written so that it is kept. -/
def SizeFits : BicepText → Prop
  | .quoted text => ∀ literal, Binary64.integer text = some literal → literal.1 = false ∧ literal.2 < 2 ^ 64
  | .bare token => ∀ literal, Binary64.integer token = some literal → IsKeptSize literal
  | _ => True

/-- The element of the ports is quoted, or in the range of ports. -/
def PortFits : BicepText → Prop
  | .bare token => ∀ literal, Binary64.integer token = some literal → IsPort literal
  | _ => True

/-- The integers of a declaration are in range. -/
def InRange (text : TextDecl) : Prop :=
  ∀ pairs, parseBicepKv text.body = .ok pairs →
    (text.resourceType = "ingress" → ∀ v literal, Assoc.get pairs "port" = some v →
      v.integer = some literal → IsPort literal) ∧
    (text.resourceType = "container" → ∀ items, Assoc.get pairs "ports" = some (.array items) →
      ∀ v ∈ items, PortFits v) ∧
    (text.resourceType = "volume" → ∀ v, Assoc.get pairs "size_gb" = some v → SizeFits v)

/-- From some fuel on the parser of a file returns these declarations. -/
def Yields (env : BicepEnv) (input : String) (decls : List ResourceDeclaration) : Prop :=
  ∃ fuel, ∀ more, parseFile env (fuel + more) input = .ok decls

/-! ## Values -/

theorem get_pairValues (pairs : TextPairs) (key : String) :
    Assoc.get (pairValues pairs) key = (Assoc.get pairs key).map BicepText.value := by
  induction pairs with
  | nil => rfl
  | cons pair pairs ih =>
    obtain ⟨k, v⟩ := pair
    rw [pairValues, Assoc.get, Assoc.get, List.find?_cons, List.find?_cons]
    by_cases hk : k = key
    · simp only [hk, decide_true]
      rfl
    · simp only [hk, decide_false]
      exact ih

theorem itemValues_eq_map (items : List BicepText) : itemValues items = items.map BicepText.value := by
  induction items with
  | nil => rfl
  | cons v items ih => rw [itemValues, ih, List.map_cons]

/-- A token that is an integer literal is a number. -/
theorem tokenValue_of_integer {token : String} {negative : Bool} {n : ℕ}
    (h : Binary64.integer token = some (negative, n)) :
    tokenValue token = .num (Binary64.ofRatio negative n 1) := by
  have hne : ∀ name, Binary64.integer name = none → token ≠ name := by
    rintro name hnone rfl
    rw [hnone] at h
    cases h
  rw [tokenValue, if_neg (hne "true" (by decide)), if_neg (hne "false" (by decide)),
    Binary64.parse_of_integer h]

/-- An integer literal is parsed as an unsigned number unless it has a minus sign. -/
theorem parseNat_of_integer {text : String} {negative : Bool} {n : ℕ}
    (h : Binary64.integer text = some (negative, n)) :
    parseNat text = if negative then none else some n := by
  rw [Binary64.integer] at h
  rw [parseNat]
  generalize text.toList = cs at h ⊢
  have hminus : ∀ cs, Binary64.splitSign ('-' :: cs) = (true, cs) := fun _ => rfl
  have hplus : ∀ cs, Binary64.splitSign ('+' :: cs) = (false, cs) := fun _ => rfl
  cases cs with
  | nil => cases h
  | cons c cs =>
    by_cases hc : c = '-'
    · rw [hc, hminus] at h
      dsimp only at h
      split_ifs at h
      cases h
      rw [hc]
      rfl
    by_cases hc' : c = '+'
    · rw [hc', hplus] at h
      dsimp only at h
      split_ifs at h with hdigits
      cases h
      rw [hc']
      exact if_pos hdigits
    · have hsplit : Binary64.splitSign (c :: cs) = (false, c :: cs) := by
        unfold Binary64.splitSign
        split <;> simp_all
      rw [hsplit] at h
      dsimp only at h
      split_ifs at h with hdigits
      cases h
      simpa [hc'] using hdigits.2

/-! ## Extractors -/

section Fields

variable {pairs : TextPairs} {key text : String} {negative : Bool} {n : ℕ}

theorem getU64OrDefault_quoted (default : ℕ) (hv : Assoc.get pairs key = some (.quoted text))
    (h : Binary64.integer text = some (negative, n)) : getU64OrDefault (pairValues pairs) key default =
      if negative = false ∧ n < 2 ^ 64 then n else default := by
  rw [getU64OrDefault, get_pairValues, hv]
  simp only [Option.map_some, BicepText.value, parseU64, parseNat_of_integer h]
  cases negative with
  | true => rfl
  | false =>
    by_cases hn : n < 2 ^ 64
    · rw [if_neg (by decide), if_pos ⟨rfl, hn⟩, Option.filter_some_pos (by simpa using hn)]
      rfl
    · rw [if_neg (by decide), if_neg fun hboth => hn hboth.2, Option.filter_some_neg (by simpa using hn)]
      rfl

theorem getU64OrDefault_bare (default : ℕ) (hv : Assoc.get pairs key = some (.bare text))
    (h : Binary64.integer text = some (negative, n)) : getU64OrDefault (pairValues pairs) key default =
      (Binary64.ofRatio negative n 1).saturate (2 ^ 64 - 1) := by
  rw [getU64OrDefault, get_pairValues, hv]
  simp only [Option.map_some, BicepText.value, tokenValue_of_integer h]

/-- A port is read as it is written. -/
theorem saturate_of_isPort {top : ℕ} (htop : 2 ^ 16 - 1 ≤ top) (htop' : top ≤ 2 ^ 64)
    (hport : IsPort (negative, n)) :
    ((Binary64.ofRatio negative n 1).saturate top : ℤ) = Binary64.signed (negative, n) := by
  obtain ⟨hnonneg, hlt⟩ := hport
  cases negative with
  | true =>
    simp only [Binary64.signed, if_true] at hnonneg ⊢
    rw [Binary64.saturate_negative]
    omega
  | false =>
    simp only [Binary64.signed, Bool.false_eq_true, if_false] at hlt ⊢
    rw [Binary64.saturate_ofRatio n htop', Binary64.roundNat_of_lt (by omega)]
    omega

/-- The port of an ingress is the one that is written exactly when that is one. -/
theorem meansAt_port_iff :
    MeansAt pairs "port" (UInt16.ofNat (getU64OrDefault (pairValues pairs) "port" 0)).toNat ↔
      ∀ v literal, Assoc.get pairs "port" = some v → v.integer = some literal → IsPort literal := by
  constructor
  · intro h v literal hv hliteral
    have hfield := h v hv literal hliteral
    have hlt := (UInt16.ofNat (getU64OrDefault (pairValues pairs) "port" 0)).toNat_lt
    exact ⟨by omega, by omega⟩
  · rintro h v hv ⟨negative, n⟩ hliteral
    have hport := h v _ hv hliteral
    have hvalue : (getU64OrDefault (pairValues pairs) "port" 0 : ℤ) = Binary64.signed (negative, n) := by
      cases v with
      | quoted text =>
        rw [getU64OrDefault_quoted 0 hv hliteral]
        obtain ⟨hnonneg, hlt⟩ := hport
        cases negative with
        | true =>
          simp only [Binary64.signed, if_true] at hnonneg ⊢
          rw [if_neg (by simp)]
          omega
        | false =>
          simp only [Binary64.signed, Bool.false_eq_true, if_false] at hlt ⊢
          rw [if_pos ⟨trivial, by omega⟩]
      | bare token =>
        rw [getU64OrDefault_bare 0 hv hliteral]
        exact saturate_of_isPort (by omega) (by omega) hport
      | array items => cases hliteral
      | object pairs => cases hliteral
    rw [UInt16.toNat_ofNat']
    have hlt := hport.2
    rw [← hvalue] at hlt ⊢
    omega

/-- The size of a volume is the one that is written exactly when it fits. -/
theorem meansAt_size_iff :
    MeansAt pairs "size_gb" (UInt64.ofNat (getU64OrDefault (pairValues pairs) "size_gb" 10)).toNat ↔
      ∀ v, Assoc.get pairs "size_gb" = some v → SizeFits v := by
  have hiff : ∀ v, Assoc.get pairs "size_gb" = some v →
      (Means v (UInt64.ofNat (getU64OrDefault (pairValues pairs) "size_gb" 10)).toNat ↔ SizeFits v) := by
    intro v hv
    cases v with
    | quoted text =>
      refine forall_congr' fun literal => ?_
      obtain ⟨negative, n⟩ := literal
      refine imp_congr_right fun hliteral => ?_
      rw [getU64OrDefault_quoted 10 hv hliteral, UInt64.toNat_ofNat']
      cases negative with
      | true =>
        simp only [Binary64.signed, if_true, Bool.true_eq_false, false_and, if_false, iff_false]
        omega
      | false =>
        simp only [Binary64.signed, Bool.false_eq_true, if_false, true_and]
        split_ifs <;> omega
    | bare token =>
      refine forall_congr' fun literal => ?_
      obtain ⟨negative, n⟩ := literal
      refine imp_congr_right fun hliteral => ?_
      rw [getU64OrDefault_bare 10 hv hliteral, UInt64.toNat_ofNat', IsKeptSize]
      cases negative with
      | true =>
        simp only [Binary64.signed, if_true]
        rw [Binary64.saturate_negative]
        constructor
        · intro hfield
          obtain rfl : n = 0 := by omega
          exact ⟨by omega, .inl ⟨by omega, 0, 0, by omega, rfl⟩⟩
        · rintro ⟨hnonneg, -⟩
          omega
      | false =>
        simp only [Binary64.signed, Bool.false_eq_true, if_false]
        rw [← Binary64.saturate_eq_iff, Binary64.saturate_ofRatio n (by omega)]
        have hlt : min (2 ^ 64 - 1) (Binary64.roundNat n) < 2 ^ 64 := by omega
        rw [Nat.mod_eq_of_lt hlt, Nat.cast_inj]
        exact ⟨fun hvalue => ⟨Int.natCast_nonneg n, hvalue⟩, And.right⟩
    | array items => exact ⟨fun _ => trivial, fun _ _ hliteral => by cases hliteral⟩
    | object pairs => exact ⟨fun _ => trivial, fun _ _ hliteral => by cases hliteral⟩
  exact forall_congr' fun v => forall_congr' fun hv => hiff v hv

/-- An element of the ports is the number that is written exactly when it fits. -/
theorem means_port_iff {v : BicepText} {port : UInt16} (h : u16Item key v.value = .ok port) :
    Means v port.toNat ↔ PortFits v := by
  cases v with
  | quoted text =>
    refine ⟨fun _ => trivial, ?_⟩
    rintro - ⟨negative, n⟩ hliteral
    simp only [BicepText.value, u16Item, parseU16, parseNat_of_integer hliteral] at h
    cases negative with
    | true => cases h
    | false =>
      simp only [Bool.false_eq_true, if_false] at h
      by_cases hn : n < 2 ^ 16
      · rw [Option.filter_some_pos (by simpa using hn)] at h
        cases h
        simp only [Binary64.signed, Bool.false_eq_true, if_false]
        rw [UInt16.toNat_ofNat']
        omega
      · rw [Option.filter_some_neg (by simpa using hn)] at h
        cases h
  | bare token =>
    refine forall_congr' fun literal => ?_
    obtain ⟨negative, n⟩ := literal
    refine imp_congr_right fun hliteral => ?_
    rw [BicepText.value, tokenValue_of_integer hliteral] at h
    cases h
    constructor
    · intro hfield
      have hlt := (UInt16.ofNat ((Binary64.ofRatio negative n 1).saturate (2 ^ 16 - 1))).toNat_lt
      exact ⟨by omega, by omega⟩
    · intro hport
      have hvalue : ((Binary64.ofRatio negative n 1).saturate (2 ^ 16 - 1) : ℤ) = _ :=
        saturate_of_isPort le_rfl (by omega) hport
      have hlt := hport.2
      rw [UInt16.toNat_ofNat']
      rw [← hvalue] at hlt ⊢
      omega
  | array items => exact ⟨fun _ => trivial, fun _ _ hliteral => by cases hliteral⟩
  | object pairs => exact ⟨fun _ => trivial, fun _ _ hliteral => by cases hliteral⟩

end Fields

/-! ## Declarations -/

/-- What holds of the value of a computation, if it has one. -/
def AllOk {ε α : Type} (P : α → Prop) (r : Except ε α) : Prop := ∀ a, r = .ok a → P a

theorem allOk_ok {ε α : Type} {P : α → Prop} {a : α} (h : P a) : AllOk P (.ok a : Except ε α) := by
  rintro b hb
  cases hb
  exact h

theorem AllOk.bind {ε α β : Type} {P : β → Prop} {r : Except ε α} {f : α → Except ε β}
    (h : ∀ a, r = .ok a → AllOk P (f a)) : AllOk P (r >>= f) := by
  intro b hb
  cases r with
  | error e => cases hb
  | ok a => exact h a rfl b hb

theorem allOk_ite {ε α : Type} {P : α → Prop} {c : Prop} [Decidable c] {r r' : Except ε α}
    (h : c → AllOk P r) (h' : ¬ c → AllOk P r') : AllOk P (if c then r else r') := by
  split_ifs with hc
  · exact h hc
  · exact h' hc

section Declaration

variable {display : Binary64 → String} {name : String} {kv : Pairs}

theorem ingressDecl_ok : AllOk (fun decl => ∃ i, decl = .ingress i ∧
    i.port = UInt16.ofNat (getU64OrDefault kv "port" 0)) (ingressDecl display name kv) :=
  .bind fun _ _ => .bind fun _ _ => .bind fun _ _ => allOk_ok ⟨_, rfl, rfl⟩

theorem volumeDecl_ok : AllOk (fun decl => ∃ v, decl = .volume v ∧
    v.sizeGb = UInt64.ofNat (getU64OrDefault kv "size_gb" 10)) (volumeDecl display name kv) :=
  .bind fun _ _ => allOk_ok ⟨_, rfl, rfl⟩

theorem containerDecl_ok : AllOk (fun decl => ∃ c, decl = .container c ∧
    getU16Array kv "ports" = .ok c.ports) (containerDecl display name kv) :=
  .bind fun _ _ => .bind fun _ _ => .bind fun _ hports => .bind fun _ _ => .bind fun _ _ =>
    allOk_ok ⟨_, rfl, hports⟩

/-- A declaration is of the type that is written. -/
theorem resourceType_of_declarationOf (resourceType : String) :
    AllOk (fun decl => decl.resourceType = resourceType) (declarationOf display name kv resourceType) := by
  rw [declarationOf]
  refine allOk_ite (fun h => ?_) fun _ => ?_
  · subst h
    exact .bind fun _ _ => .bind fun _ _ => .bind fun _ _ => allOk_ok rfl
  refine allOk_ite (fun h => ?_) fun _ => ?_
  · subst h
    exact .bind fun _ _ => allOk_ok rfl
  refine allOk_ite (fun h => ?_) fun _ => ?_
  · subst h
    exact .bind fun _ _ => .bind fun _ _ => .bind fun _ _ => .bind fun _ _ => .bind fun _ _ => allOk_ok rfl
  refine allOk_ite (fun h => ?_) fun _ => ?_
  · subst h
    exact .bind fun _ _ => .bind fun _ _ => .bind fun _ _ => .bind fun _ _ => .bind fun _ _ => allOk_ok rfl
  refine allOk_ite (fun h => ?_) fun _ => ?_
  · subst h
    exact .bind fun _ _ => .bind fun _ _ => .bind fun _ _ => .bind fun _ _ => allOk_ok rfl
  refine allOk_ite (fun h => ?_) fun _ => ?_
  · subst h
    exact .bind fun _ _ => .bind fun _ _ => .bind fun _ _ => allOk_ok rfl
  refine allOk_ite (fun h => ?_) fun _ => ?_
  · subst h
    exact .bind fun _ _ => .bind fun _ _ => allOk_ok rfl
  refine allOk_ite (fun h => ?_) fun _ => ?_
  · subst h
    exact .bind fun _ _ => allOk_ok rfl
  refine allOk_ite (fun h => ?_) fun _ => ?_
  · subst h
    exact .bind fun _ _ => .bind fun _ _ => allOk_ok rfl
  refine allOk_ite (fun h => ?_) fun _ => ?_
  · subst h
    exact .bind fun _ _ => .bind fun _ _ => allOk_ok rfl
  refine allOk_ite (fun h => ?_) fun _ => ?_
  · subst h
    exact .bind fun _ _ => allOk_ok rfl
  refine allOk_ite (fun h => ?_) fun _ => ?_
  · subst h
    exact .bind fun _ _ => allOk_ok rfl
  refine allOk_ite (fun h => ?_) fun _ => ?_
  · subst h
    exact .bind fun _ _ => .bind fun _ _ => allOk_ok rfl
  refine allOk_ite (fun h => ?_) fun _ => ?_
  · subst h
    exact .bind fun _ _ => .bind fun _ _ => .bind fun _ _ => allOk_ok rfl
  refine allOk_ite (fun h => ?_) fun _ => ?_
  · subst h
    exact .bind fun _ _ => .bind fun _ _ => .bind fun _ _ => allOk_ok rfl
  refine allOk_ite (fun h => ?_) fun _ => ?_
  · subst h
    exact .bind fun _ _ => allOk_ok rfl
  refine allOk_ite (fun h => ?_) fun _ => ?_
  · subst h
    exact .bind fun _ _ => .bind fun _ _ => .bind fun _ _ => .bind fun _ _ => .bind fun _ _ =>
      .bind fun _ _ => .bind fun _ _ => allOk_ok rfl
  · rintro decl hdecl
    cases hdecl

end Declaration

theorem forall₂_of_mapM {ε α β : Type} {f : α → Except ε β} {items : List α} {out : List β}
    (h : items.mapM f = .ok out) : List.Forall₂ (fun a b => f a = .ok b) items out := by
  induction items generalizing out with
  | nil =>
    cases h
    exact .nil
  | cons a items ih =>
    rw [List.mapM_cons] at h
    cases hfirst : f a with
    | error e =>
      rw [hfirst] at h
      cases h
    | ok b =>
      rw [hfirst] at h
      cases hrest : items.mapM f with
      | error e =>
        rw [hrest] at h
        cases h
      | ok bs =>
        rw [hrest] at h
        cases h
        exact .cons hfirst (ih hrest)

theorem forall₂_iff_of_forall₂ {α β : Type} {R S : α → β → Prop} {P : α → Prop} {as : List α} {bs : List β}
    (h : List.Forall₂ R as bs) (hiff : ∀ a b, R a b → (S a b ↔ P a)) :
    List.Forall₂ S as bs ↔ ∀ a ∈ as, P a := by
  induction h with
  | nil => simp
  | cons hab _ ih => rw [List.forall₂_cons, List.forall_mem_cons, hiff _ _ hab, ih]

/-- The ports of a container are those that are written exactly when they fit. -/
theorem means_ports_iff {pairs : TextPairs} {items : List BicepText} {ports : List UInt16}
    (hitems : Assoc.get pairs "ports" = some (.array items))
    (h : getU16Array (pairValues pairs) "ports" = .ok ports) :
    List.Forall₂ (fun v port => Means v port.toNat) items ports ↔ ∀ v ∈ items, PortFits v := by
  rw [getU16Array, getArray, get_pairValues, hitems] at h
  simp only [Option.map_some, BicepText.value, itemValues_eq_map] at h
  have hall := forall₂_of_mapM h
  rw [List.forall₂_map_left_iff] at hall
  exact forall₂_iff_of_forall₂ hall fun v port hport => means_port_iff hport

/-- **A declaration keeps its integers exactly when they are in range.** -/
theorem integersKept_iff_inRange {env : BicepEnv} {text : TextDecl} {decl : ResourceDeclaration}
    (h : readDecl env text = .ok decl) : IntegersKept text decl ↔ InRange text := by
  rw [readDecl] at h
  cases hpairs : parseBicepKv text.body with
  | error e =>
    rw [hpairs] at h
    cases h
  | ok pairs =>
    rw [hpairs] at h
    change (declarationOf env.display text.name (pairValues pairs) text.resourceType).mapError _ = _ at h
    have hdecl : declarationOf env.display text.name (pairValues pairs) text.resourceType = .ok decl := by
      generalize declarationOf env.display text.name (pairValues pairs) text.resourceType = result at h ⊢
      cases result with
      | error e => cases h
      | ok _ =>
        cases h
        rfl
    have htype := resourceType_of_declarationOf _ decl hdecl
    have honly : ∀ {P : TextPairs → Prop}, (∀ pairs', parseBicepKv text.body = .ok pairs' → P pairs') ↔
        P pairs := by
      intro P
      rw [hpairs]
      exact ⟨fun hall => hall pairs rfl, fun hP pairs' heq => by cases heq; exact hP⟩
    rw [IntegersKept, InRange, honly, honly]
    by_cases hingress : text.resourceType = "ingress"
    · rw [hingress] at hdecl ⊢
      obtain ⟨i, rfl, hport⟩ := ingressDecl_ok decl hdecl
      simp only [hport, meansAt_port_iff]
      simp
    by_cases hcontainer : text.resourceType = "container"
    · rw [hcontainer] at hdecl ⊢
      obtain ⟨c, rfl, hports⟩ := containerDecl_ok decl hdecl
      have hitems : (∀ items, Assoc.get pairs "ports" = some (.array items) →
          List.Forall₂ (fun v (port : UInt16) => Means v port.toNat) items c.ports) ↔
          ∀ items, Assoc.get pairs "ports" = some (.array items) → ∀ v ∈ items, PortFits v :=
        forall_congr' fun items => forall_congr' fun hitems => means_ports_iff hitems hports
      simp only [hitems]
      simp
    by_cases hvolume : text.resourceType = "volume"
    · rw [hvolume] at hdecl ⊢
      obtain ⟨v, rfl, hsize⟩ := volumeDecl_ok decl hdecl
      simp only [hsize, meansAt_size_iff]
      simp
    · have hother : ∀ {kind : String} {P : Prop}, text.resourceType ≠ kind →
          (text.resourceType = kind → P) := fun hne heq => absurd heq hne
      cases decl with
      | ingress i => exact absurd htype.symm hingress
      | container c => exact absurd htype.symm hcontainer
      | volume v => exact absurd htype.symm hvolume
      | _ => exact ⟨fun _ => ⟨hother hingress, hother hcontainer, hother hvolume⟩, fun _ => trivial⟩

/-! ## Files -/

/-- **Which integers of a file arrive as they are written.** In every Bicep file that is read, each port
of an ingress, each element of the ports of a container and each size of a volume that is an integer
literal is the field of its declaration exactly when all of them are in range. -/
theorem integersKept_iff (env : BicepEnv) {input : String} {decls : List ResourceDeclaration}
    (hbicep : ¬ IsJson input) (h : Yields env input decls) :
    ∃ texts, splitBicepDeclarations (trimChars input.toList) = .ok texts ∧
      (List.Forall₂ IntegersKept texts decls ↔ ∀ text ∈ texts, InRange text) := by
  obtain ⟨fuel, hall⟩ := h
  have hrun := hall (byteCount (trimChars input.toList) + 1)
  rw [parseFile_of_not_isJson _ hbicep, parseBicep_eq (by omega), readBicep] at hrun
  cases hsplit : splitBicepDeclarations (trimChars input.toList) with
  | error e =>
    rw [hsplit] at hrun
    cases hrun
  | ok texts =>
    refine ⟨texts, rfl, ?_⟩
    rw [hsplit] at hrun
    change (texts.mapM (readDecl env)).mapError Trouble.failure = .ok decls at hrun
    have hdecls : texts.mapM (readDecl env) = .ok decls := by
      generalize texts.mapM (readDecl env) = result at hrun ⊢
      cases result with
      | error e => cases hrun
      | ok _ =>
        cases hrun
        rfl
    exact forall₂_iff_of_forall₂ (forall₂_of_mapM hdecls) fun text decl => integersKept_iff_inRange

theorem yields_of_readBicep {env : BicepEnv} {input : String} {decls : List ResourceDeclaration}
    (htrim : trimChars input.toList = input.toList) (hbicep : input.toList.head? ≠ some '\x7b')
    (h : readBicep env input.toList = .ok decls) : ¬ IsJson input ∧ Yields env input decls := by
  have hjson : ¬ IsJson input := by rwa [IsJson, htrim]
  refine ⟨hjson, byteCount input.toList + 1, fun more => ?_⟩
  rw [parseFile_of_not_isJson _ hjson, htrim, parseBicep_eq (by omega), h]
  rfl

/-- An ingress with a port. -/
def sampleIngress (port : String) : String :=
  "ingress 'i' \x7b product: 'p', target: 't', path: '/', port: " ++ port ++ " \x7d"

/-- The ingress that is read, with its port. -/
def sampleIngressDecl (port : UInt16) : List ResourceDeclaration :=
  [.ingress ⟨"i", "p", "t", port, "/", true, none, false, []⟩]

/-- The text of its declaration. -/
def sampleIngressText (port : String) : TextDecl :=
  ⟨"ingress", "i", (" product: 'p', target: 't', path: '/', port: " ++ port ++ " ").toList⟩

theorem integersKept_port8080 : ¬ IsJson (sampleIngress "8080") ∧
    Yields sampleBicep (sampleIngress "8080") (sampleIngressDecl 8080) ∧
    splitBicepDeclarations (trimChars (sampleIngress "8080").toList) = .ok [sampleIngressText "8080"] ∧
    List.Forall₂ IntegersKept [sampleIngressText "8080"] (sampleIngressDecl 8080) := by
  have hread : readBicep sampleBicep (sampleIngress "8080").toList = .ok (sampleIngressDecl 8080) := by
    decide +kernel
  obtain ⟨hbicep, hyields⟩ := yields_of_readBicep (by decide +kernel) (by decide +kernel) hread
  have hsplit : splitBicepDeclarations (trimChars (sampleIngress "8080").toList) =
    .ok [sampleIngressText "8080"] := by decide +kernel
  obtain ⟨texts, htexts, hkept⟩ := integersKept_iff sampleBicep hbicep hyields
  cases hsplit.symm.trans htexts
  refine ⟨hbicep, hyields, hsplit, hkept.mpr fun text htext pairs hpairs => ?_⟩
  cases List.mem_singleton.mp htext
  have hport : (parseBicepKv (sampleIngressText "8080").body).map
      (fun pairs => (Assoc.get pairs "port").bind BicepText.integer) = .ok (some (false, 8080)) := by
    decide +kernel
  rw [hpairs] at hport
  refine ⟨fun _ v literal hv hliteral => ?_, fun h => absurd h (by decide), fun h => absurd h (by decide)⟩
  have heq : v.integer = some (false, 8080) := by simpa [Except.map, hv] using hport
  cases hliteral.symm.trans heq
  exact ⟨by decide, by decide⟩

/-- The port is cut down to 16 bits. -/
theorem not_integersKept_port70000 :
    Yields sampleBicep (sampleIngress "70000") (sampleIngressDecl 4464) ∧
      splitBicepDeclarations (trimChars (sampleIngress "70000").toList) =
        .ok [sampleIngressText "70000"] ∧
      ¬ List.Forall₂ IntegersKept [sampleIngressText "70000"] (sampleIngressDecl 4464) := by
  have hread : readBicep sampleBicep (sampleIngress "70000").toList = .ok (sampleIngressDecl 4464) := by
    decide +kernel
  obtain ⟨-, hyields⟩ := yields_of_readBicep (by decide +kernel) (by decide +kernel) hread
  refine ⟨hyields, by decide +kernel, fun hall => ?_⟩
  obtain ⟨hkept, -⟩ := List.forall₂_cons.mp hall
  have hport : (parseBicepKv (sampleIngressText "70000").body).map
      (fun pairs => (Assoc.get pairs "port").bind BicepText.integer) = .ok (some (false, 70000)) := by
    decide +kernel
  cases hpairs : parseBicepKv (sampleIngressText "70000").body with
  | error e =>
    rw [hpairs] at hport
    cases hport
  | ok pairs =>
    rw [hpairs] at hport
    obtain ⟨v, hv, hliteral⟩ := Option.bind_eq_some_iff.mp (Except.ok.inj hport)
    have hfield := hkept pairs hpairs v hv _ hliteral
    revert hfield
    decide

end Picloud.Bicep
