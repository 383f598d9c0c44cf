import Mathlib.Tactic.Common
import Mathlib.Data.Nat.Notation

/-!
# Parsers with a state and errors

A parser is a state transformer that may fail. `Ensures` says what its results are, `Consumes` by how
much it makes a measure of the state smaller, and `AgreeBelow` that two parsers do the same in all states
below a size. Each has a rule for sequencing; with them a recursive parser that is given fuel does not
depend on the fuel, as long as there is more of it than input. `Simulates` compares two parsers that read
the same and return different things: where the first one succeeds, so does the second one, with a related
result and in the same state. `ImplementsBelow` compares a parser over concrete states with one over
abstract states: they return the same, or fail alike, in all related states below a size.
-/

namespace Lib

variable {σ ε α β : Type}

/-- A parser with states `σ` and errors `ε`. -/
abbrev ParserOf (σ ε : Type) := StateT σ (Except ε)

namespace ParserOf

variable {p q : ParserOf σ ε α} {f g : α → ParserOf σ ε β}

theorem bind_apply (s : σ) : (p >>= f) s = (p s).bind fun r => f r.1 r.2 := rfl

/-- A sequence that starts with a step that succeeds. -/
theorem bind_of_ok {s s' : σ} {a : α} (h : p s = .ok (a, s')) : (p >>= f) s = f a s' := by
  rw [bind_apply, h]
  rfl

theorem exists_of_bind_ok {s s' : σ} {b : β} (h : (p >>= f) s = .ok (b, s')) :
    ∃ a s₁, p s = .ok (a, s₁) ∧ f a s₁ = .ok (b, s') := by
  rw [bind_apply] at h
  cases hp : p s with
  | error e =>
    rw [hp] at h
    cases h
  | ok r =>
    rw [hp] at h
    exact ⟨r.1, r.2, rfl, h⟩

/-! ## Results -/

/-- All results of the parser have the property. -/
def Ensures (P : α → Prop) (p : ParserOf σ ε α) : Prop := ∀ s a s', p s = .ok (a, s') → P a

theorem ensures_pure {P : α → Prop} {a : α} (h : P a) : Ensures P (pure a : ParserOf σ ε α) := by
  rintro s b s' hb
  cases hb
  exact h

theorem ensures_throw (P : α → Prop) (e : ε) : Ensures P (throw e : ParserOf σ ε α) := by
  rintro s a s' ha
  cases ha

theorem Ensures.bind {P : α → Prop} {Q : β → Prop} (hp : Ensures P p)
    (hf : ∀ a, P a → Ensures Q (f a)) : Ensures Q (p >>= f) := by
  intro s b s' h
  obtain ⟨a, s₁, ha, hb⟩ := exists_of_bind_ok h
  exact hf a (hp s a s₁ ha) s₁ b s' hb

/-- A sequence whose first result does not matter. -/
theorem Ensures.after {Q : β → Prop} (hf : ∀ a, Ensures Q (f a)) : Ensures Q (p >>= f) :=
  Ensures.bind (P := fun _ => True) (fun _ _ _ _ => trivial) fun a _ => hf a

/-! ## Progress -/

/-- The parser makes the state smaller by the given amount at least. -/
def Consumes (size : σ → ℕ) (k : ℕ) (p : ParserOf σ ε α) : Prop :=
  ∀ s a s', p s = .ok (a, s') → size s' + k ≤ size s

variable {size : σ → ℕ} {k l n : ℕ}

theorem Consumes.mono (h : Consumes size k p) (hl : l ≤ k) : Consumes size l p := by
  intro s a s' ha
  have := h s a s' ha
  omega

theorem consumes_pure (a : α) : Consumes size 0 (pure a : ParserOf σ ε α) := by
  rintro s b s' hb
  cases hb
  exact Nat.le_refl _

theorem consumes_throw (e : ε) : Consumes size k (throw e : ParserOf σ ε α) := by
  rintro s a s' ha
  cases ha

theorem Consumes.bind (hp : Consumes size k p) (hf : ∀ a, Consumes size l (f a)) :
    Consumes size (k + l) (p >>= f) := by
  intro s b s' h
  obtain ⟨a, s₁, ha, hb⟩ := exists_of_bind_ok h
  have hfirst := hp s a s₁ ha
  have hsecond := hf a s₁ b s' hb
  omega

/-- A sequence of parsers none of which makes the state larger. -/
theorem Consumes.seq (hp : Consumes size 0 p) (hf : ∀ a, Consumes size 0 (f a)) :
    Consumes size 0 (p >>= f) := hp.bind hf

/-! ## Agreement -/

/-- The parsers do the same in all states below the size. -/
def AgreeBelow (size : σ → ℕ) (n : ℕ) (p q : ParserOf σ ε α) : Prop := ∀ s, size s < n → p s = q s

theorem agreeBelow_refl (p : ParserOf σ ε α) : AgreeBelow size n p p := fun _ _ => rfl

/-- What comes behind a parser that consumes something has to agree on smaller states only. -/
theorem AgreeBelow.bind (hpq : AgreeBelow size n p q) (hp : Consumes size k p)
    (hfg : ∀ a, AgreeBelow size (n - k) (f a) (g a)) : AgreeBelow size n (p >>= f) (q >>= g) := by
  intro s hs
  rw [bind_apply, bind_apply, ← hpq s hs]
  cases hrun : p s with
  | error e => rfl
  | ok r =>
    have hsize := hp s r.1 r.2 hrun
    exact hfg r.1 r.2 (by omega)

/-- The same first parser before two that agree. -/
theorem AgreeBelow.after (hp : Consumes size 0 p) (hfg : ∀ a, AgreeBelow size n (f a) (g a)) :
    AgreeBelow size n (p >>= f) (p >>= g) := (agreeBelow_refl p).bind hp hfg

/-! ## Simulation -/

section Simulation

variable {γ δ : Type} {I : σ → Prop} {R : α → γ → Prop} {S : β → δ → Prop} {r : ParserOf σ ε γ}
  {g : γ → ParserOf σ ε δ}

/-- In the states of the invariant, where the first parser succeeds the second one ends in the same state,
which keeps the invariant, with a related result. -/
def Simulates (I : σ → Prop) (R : α → γ → Prop) (p : ParserOf σ ε α) (r : ParserOf σ ε γ) : Prop :=
  ∀ s a s', I s → p s = .ok (a, s') → I s' ∧ ∃ c, r s = .ok (c, s') ∧ R a c

theorem simulates_pure {a : α} {c : γ} (h : R a c) :
    Simulates I R (pure a : ParserOf σ ε α) (pure c : ParserOf σ ε γ) := by
  rintro s b s' hs hb
  cases hb
  exact ⟨hs, c, rfl, h⟩

theorem simulates_throw (e : ε) (r : ParserOf σ ε γ) :
    Simulates I R (throw e : ParserOf σ ε α) r := by
  rintro s a s' hs ha
  cases ha

theorem Simulates.bind (hp : Simulates I R p r) (hf : ∀ a c, R a c → Simulates I S (f a) (g c)) :
    Simulates I S (p >>= f) (r >>= g) := by
  intro s b s' hs h
  obtain ⟨a, s₁, ha, hb⟩ := exists_of_bind_ok h
  obtain ⟨hs₁, c, hc, hrel⟩ := hp s a s₁ hs ha
  obtain ⟨hs', d, hd, hrel'⟩ := hf a c hrel s₁ b s' hs₁ hb
  exact ⟨hs', d, by rw [bind_of_ok hc, hd], hrel'⟩

/-- The second parser goes on with its result. -/
theorem Simulates.then_pure {h : γ → δ} {S : α → δ → Prop} (hp : Simulates I R p r)
    (hrel : ∀ a c, R a c → S a (h c)) : Simulates I S p (r >>= fun c => pure (h c)) := by
  intro s a s' hs ha
  obtain ⟨hs', c, hc, hac⟩ := hp s a s' hs ha
  exact ⟨hs', h c, by rw [bind_of_ok hc]; rfl, hrel a c hac⟩

/-- The parser keeps the invariant. -/
abbrev Keeps (I : σ → Prop) (p : ParserOf σ ε α) : Prop := Simulates I Eq p p

theorem keeps_of_forall (h : ∀ s a s', I s → p s = .ok (a, s') → I s') : Keeps I p :=
  fun s a s' hs ha => ⟨h s a s' hs ha, a, ha, rfl⟩

theorem Keeps.seq (hp : Keeps I p) (hf : ∀ a, Keeps I (f a)) : Keeps I (p >>= f) :=
  Simulates.bind hp fun a _ hac => hac ▸ hf a

end Simulation

/-! ## Implementation -/

section Implementation

variable {τ ε' : Type} {J : τ → σ → Prop} {wrap : ε → ε'} {p : ParserOf τ ε' α} {q : ParserOf σ ε α}
  {f : α → ParserOf τ ε' β} {g : α → ParserOf σ ε β} {t : τ} {s : σ}

/-- The two runs return the same in related states, or fail alike. -/
inductive Agrees (J : τ → σ → Prop) (wrap : ε → ε') :
    Except ε' (α × τ) → Except ε (α × σ) → Prop
  | ok {a : α} {t : τ} {s : σ} (h : J t s) : Agrees J wrap (.ok (a, t)) (.ok (a, s))
  | error (e : ε) : Agrees J wrap (.error (wrap e)) (.error e)

theorem Agrees.bind (h : Agrees J wrap (p t) (q s))
    (hf : ∀ a t' s', q s = .ok (a, s') → J t' s' → Agrees J wrap (f a t') (g a s')) :
    Agrees J wrap ((p >>= f) t) ((q >>= g) s) := by
  rw [bind_apply, bind_apply]
  generalize hp : p t = r at h
  generalize hq : q s = r' at h hf
  cases h with
  | ok hJ => exact hf _ _ _ rfl hJ
  | error e => exact .error e

/-- In related states below the size the first parser does what the second one does. -/
def ImplementsBelow (J : τ → σ → Prop) (wrap : ε → ε') (size : σ → ℕ) (n : ℕ) (p : ParserOf τ ε' α)
    (q : ParserOf σ ε α) : Prop :=
  ∀ t s, J t s → size s < n → Agrees J wrap (p t) (q s)

theorem implements_pure (a : α) : ImplementsBelow J wrap size n (pure a : ParserOf τ ε' α)
    (pure a : ParserOf σ ε α) := fun _ _ h _ => .ok h

theorem implements_throw (e : ε) : ImplementsBelow J wrap size n (throw (wrap e) : ParserOf τ ε' α)
    (throw e : ParserOf σ ε α) := fun _ _ _ _ => .error e

theorem ImplementsBelow.mono {m : ℕ} (h : ImplementsBelow J wrap size n p q) (hm : m ≤ n) :
    ImplementsBelow J wrap size m p q := fun t s hJ hs => h t s hJ (Nat.lt_of_lt_of_le hs hm)

/-- What comes behind a parser that consumes something has to be right on smaller states only. -/
theorem ImplementsBelow.bind (hp : ImplementsBelow J wrap size n p q) (hq : Consumes size k q)
    (hf : ∀ a, ImplementsBelow J wrap size (n - k) (f a) (g a)) :
    ImplementsBelow J wrap size n (p >>= f) (q >>= g) := by
  intro t s hJ hs
  refine (hp t s hJ hs).bind fun a t' s' ha hJ' => hf a t' s' hJ' ?_
  have hsize := hq s a s' ha
  omega

/-- What comes behind a parser that returns the image of what the second one returns. -/
theorem Agrees.bindMap {γ : Type} {h : γ → α} {r : ParserOf σ ε γ} {g : γ → ParserOf σ ε β}
    (hp : Agrees J wrap (p t) ((do return h (← r) : ParserOf σ ε α) s))
    (hf : ∀ c t' s', r s = .ok (c, s') → J t' s' → Agrees J wrap (f (h c) t') (g c s')) :
    Agrees J wrap ((p >>= f) t) ((r >>= g) s) := by
  rw [bind_apply] at hp ⊢
  cases hrun : r s with
  | error e =>
    rw [hrun] at hp
    rw [bind_apply, hrun]
    generalize p t = run at hp ⊢
    cases hp
    exact .error e
  | ok result =>
    obtain ⟨c, s'⟩ := result
    rw [bind_apply, hrun]
    rw [hrun] at hp
    change Agrees J wrap (p t) (.ok (h c, s')) at hp
    generalize p t = run at hp ⊢
    cases hp with
    | ok hJ' => exact hf c _ s' hrun hJ'

/-- A sequence that starts with a parser that consumes nothing. -/
theorem ImplementsBelow.seq (hp : ImplementsBelow J wrap size n p q) (hq : Consumes size 0 q)
    (hf : ∀ a, ImplementsBelow J wrap size n (f a) (g a)) :
    ImplementsBelow J wrap size n (p >>= f) (q >>= g) := hp.bind hq hf

end Implementation

end ParserOf

end Lib
