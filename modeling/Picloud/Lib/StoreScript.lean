import Picloud.Lib.Quads

/-!
# Scripts of store updates

A program that updates a quad store is a list of steps. Most steps are operations fixed in advance:
checks of the texts that become terms, insertions, and removals by a pattern. The first check that
fails ends the program, and what was done before it stays. A step may also compute its operations
from the store, or transform the store as a whole.

Operations fixed in advance act on each quad alone: they keep it, remove it or insert it, whatever
the store. Such updates (`Overwrites`) compose, and repeating one changes nothing.
-/

namespace Lib

/-! ## Updates that act on each element alone -/

section Overwrites

variable {α : Type*}

/-- The update keeps the elements of one set and adds those of another, in every list. -/
def Overwrites (f : List α → List α) : Prop :=
  ∃ keep add : Set α, ∀ s a, a ∈ f s ↔ (a ∈ s ∧ a ∈ keep) ∨ a ∈ add

theorem Overwrites.id : Overwrites (id : List α → List α) :=
  ⟨Set.univ, ∅, fun s a => by simp⟩

theorem Overwrites.comp {f g : List α → List α} (hg : Overwrites g) (hf : Overwrites f) :
    Overwrites (g ∘ f) := by
  obtain ⟨keep, add, hf⟩ := hf
  obtain ⟨keep', add', hg⟩ := hg
  refine ⟨keep ∩ keep', (add ∩ keep') ∪ add', fun s a => ?_⟩
  rw [Function.comp_apply, hg, hf]
  simp only [Set.mem_inter_iff, Set.mem_union]
  tauto

/-- Repeating an overwriting update changes nothing. -/
theorem Overwrites.idempotent {f : List α → List α} (hf : Overwrites f) (s : List α) (a : α) :
    a ∈ f (f s) ↔ a ∈ f s := by
  obtain ⟨keep, add, hf⟩ := hf
  rw [hf (f s), hf s]
  tauto

theorem Overwrites.foldl {β : Type*} {f : List α → β → List α} {bs : List β}
    (h : ∀ b ∈ bs, Overwrites fun s => f s b) : Overwrites fun s => bs.foldl f s := by
  induction bs with
  | nil => exact Overwrites.id
  | cons b bs ih =>
    exact (ih fun c hc => h c (List.mem_cons_of_mem b hc)).comp (h b List.mem_cons_self)

/-- Updates that keep and add, where no later update drops what an earlier one adds: in the end
there is what they all keep, and what they add. -/
theorem mem_foldl_of_pairwise {β : Type*} {f : List α → β → List α} (keep add : β → Set α)
    {bs : List β} (hf : ∀ b ∈ bs, ∀ s a, a ∈ f s b ↔ a ∈ s ∧ a ∈ keep b ∨ a ∈ add b)
    (hbs : bs.Pairwise fun b c => add b ⊆ keep c) (s : List α) (a : α) :
    a ∈ bs.foldl f s ↔ (a ∈ s ∧ ∀ b ∈ bs, a ∈ keep b) ∨ ∃ b ∈ bs, a ∈ add b := by
  induction bs generalizing s with
  | nil => simp
  | cons b bs ih =>
    obtain ⟨hb, hbs⟩ := List.pairwise_cons.mp hbs
    rw [List.foldl_cons, ih (fun c hc => hf c (List.mem_cons_of_mem b hc)) hbs,
      hf b List.mem_cons_self]
    simp only [List.forall_mem_cons, List.exists_mem_cons_iff]
    have hkeep : a ∈ add b → ∀ c ∈ bs, a ∈ keep c := fun ha c hc => hb c hc ha
    tauto

end Overwrites

/-! ## Operations -/

/-- What the library behind the store accepts as terms: `none` accepts a text, `some e` rejects it
with the error text `e`. -/
structure TermChecks where
  iri : String → Option String
  blank : String → Option String

/-- One operation. The context of a check is the text in front of the library's error. -/
inductive Op where
  /-- The text has to be an IRI. -/
  | named (context iri : String)
  /-- The text has to be a blank node identifier. -/
  | blank (context id : String)
  /-- An error of its own. -/
  | fail (message : String)
  | put (q : Quad)
  | del (p : Pattern)
deriving DecidableEq

variable (C : TermChecks)

/-- Execute one operation. -/
def Op.exec (s : Store) : Op → Except String Store
  | .named context iri =>
    match C.iri iri with
    | none => .ok s
    | some e => .error (context ++ e)
  | .blank context id =>
    match C.blank id with
    | none => .ok s
    | some e => .error (context ++ e)
  | .fail message => .error message
  | .put q => .ok (s.insert q)
  | .del p => .ok (s.removeIf p.matches)

/-- Execute operations up to the first that fails. -/
def runOps : Store → List Op → Except String Unit × Store
  | s, [] => (.ok (), s)
  | s, op :: ops =>
    match op.exec C s with
    | .ok s' => runOps s' ops
    | .error e => (.error e, s)

/-! ### A property of all operations of a list -/

/-- All operations of the list have the property. -/
def AllOps (P : Op → Prop) (ops : List Op) : Prop := ∀ op ∈ ops, P op

section AllOps

variable {P : Op → Prop}

@[simp] theorem allOps_nil : AllOps P [] := by simp [AllOps]

variable {ops : List Op}

@[simp] theorem allOps_cons {op : Op} :
    AllOps P (op :: ops) ↔ P op ∧ AllOps P ops := by
  simp [AllOps]

@[simp] theorem allOps_append {ops' : List Op} :
    AllOps P (ops ++ ops') ↔ AllOps P ops ∧ AllOps P ops' := by
  simp [AllOps, or_imp, forall_and]

@[simp] theorem allOps_flatMap {α : Type} {l : List α} {f : α → List Op} :
    AllOps P (l.flatMap f) ↔ ∀ a ∈ l, AllOps P (f a) := by
  simp only [AllOps, List.mem_flatMap]
  exact ⟨fun h a ha op hop => h op ⟨a, ha, hop⟩, fun h op ⟨a, ha, hop⟩ => h a ha op hop⟩

@[simp] theorem allOps_ite {c : Prop} [Decidable c] {ops' : List Op} :
    AllOps P (if c then ops else ops') ↔ (c → AllOps P ops) ∧ (¬ c → AllOps P ops') := by
  by_cases h : c <;> simp [h]

end AllOps

/-! ### What a list of operations does, apart from the store -/

/-- The error of a check, if it fails. -/
def Op.error : Op → Option String
  | .named context iri => (C.iri iri).map (context ++ ·)
  | .blank context id => (C.blank id).map (context ++ ·)
  | .fail message => some message
  | .put _ => none
  | .del _ => none

/-- The update of an operation that does not fail. -/
def Op.effect (s : Store) : Op → Store
  | .put q => s.insert q
  | .del p => s.removeIf p.matches
  | _ => s

/-- The operations before the first that fails. -/
def accepted : List Op → List Op
  | [] => []
  | op :: ops =>
    match op.error C with
    | none => op :: accepted ops
    | some _ => []

/-- The error of the first operation that fails. -/
def firstError : List Op → Option String
  | [] => none
  | op :: ops =>
    match op.error C with
    | none => firstError ops
    | some e => some e

theorem Op.exec_eq (s : Store) (op : Op) :
    op.exec C s = match op.error C with
      | none => .ok (op.effect s)
      | some e => .error e := by
  cases op with
  | named context iri =>
    rw [Op.exec, Op.error]
    cases C.iri iri <;> rfl
  | blank context id =>
    rw [Op.exec, Op.error]
    cases C.blank id <;> rfl
  | fail message => rfl
  | put q => rfl
  | del p => rfl

/-- Whether and where a list of operations fails does not depend on the store. -/
theorem runOps_eq (s : Store) (ops : List Op) :
    runOps C s ops = (match firstError C ops with
      | none => .ok ()
      | some e => .error e, (accepted C ops).foldl Op.effect s) := by
  induction ops generalizing s with
  | nil => rfl
  | cons op ops ih =>
    rw [runOps, Op.exec_eq, accepted, firstError]
    cases op.error C with
    | none => exact ih (op.effect s)
    | some e => rfl

theorem runOps_named_ok {iri : String} (h : C.iri iri = none) (s : Store) (context : String)
    (ops : List Op) : runOps C s (.named context iri :: ops) = runOps C s ops := by
  rw [runOps, Op.exec, h]

theorem runOps_named_error {iri e : String} (h : C.iri iri = some e) (s : Store) (context : String)
    (ops : List Op) : runOps C s (.named context iri :: ops) = (.error (context ++ e), s) := by
  rw [runOps, Op.exec, h]

theorem runOps_put (s : Store) (q : Quad) (ops : List Op) :
    runOps C s (.put q :: ops) = runOps C (s.insert q) ops := rfl

variable {ops : List Op} {s : Store} {script : Script} {q : Quad} {I : Store → Prop}

theorem runOps_ok_of_error {C : TermChecks} (h : ∀ op ∈ ops, op.error C = none) (s : Store) :
    (runOps C s ops).1 = .ok () := by
  induction ops generalizing s with
  | nil => rfl
  | cons op ops ih =>
    rw [runOps, Op.exec_eq, h op List.mem_cons_self]
    exact ih (fun o ho => h o (List.mem_cons_of_mem op ho)) _

theorem runOps_append (s : Store) (ops ops' : List Op) :
    runOps C s (ops ++ ops') = match runOps C s ops with
      | (.ok (), s') => runOps C s' ops'
      | (.error e, s') => (.error e, s') := by
  induction ops generalizing s with
  | nil => rfl
  | cons op ops ih =>
    rw [List.cons_append, runOps, runOps]
    cases op.exec C s with
    | ok s' => exact ih s'
    | error e => rfl

theorem Op.overwrites_effect (op : Op) : Overwrites fun s => op.effect s := by
  cases op with
  | put q =>
    refine ⟨Set.univ, {q}, fun s r => ?_⟩
    simp [Op.effect]
  | del p =>
    refine ⟨{q | p.matches q = false}, ∅, fun s r => ?_⟩
    simp [Op.effect]
  | named context iri => exact Overwrites.id
  | blank context id => exact Overwrites.id
  | fail message => exact Overwrites.id

/-- A fixed list of operations overwrites. -/
theorem overwrites_runOps (ops : List Op) : Overwrites fun s => (runOps C s ops).2 := by
  simp only [runOps_eq]
  exact Overwrites.foldl fun op _ => op.overwrites_effect

/-! ## Scripts -/

/-- One step of a program. -/
inductive Step where
  /-- Operations fixed in advance. -/
  | ops (l : List Op)
  /-- Operations computed from the store. -/
  | read (f : Store → List Op)
  /-- A transformation of the store. -/
  | update (f : Store → Store)

/-- A program: its steps, in order. -/
abbrev Script := List Step

/-- Execute one step. -/
def Step.run (s : Store) : Step → Except String Unit × Store
  | .ops l => runOps C s l
  | .read f => runOps C s (f s)
  | .update f => (.ok (), f s)

/-- Execute a script up to the first operation that fails. -/
def runScript : Store → Script → Except String Unit × Store
  | s, [] => (.ok (), s)
  | s, step :: steps =>
    match step.run C s with
    | (.ok (), s') => runScript s' steps
    | (.error e, s') => (.error e, s')

/-- The step does not look at the store. -/
def Step.isBlind : Step → Bool
  | .ops _ => true
  | _ => false

/-- No step of the script looks at the store. -/
def Blind (script : Script) : Prop := ∀ step ∈ script, step.isBlind = true

theorem blind_nil : Blind [] := by simp [Blind]

theorem blind_ops (l : List Op) : Blind [.ops l] := by simp [Blind, Step.isBlind]

/-- The step may insert the quad by one of its operations. -/
def Step.Inserts (q : Quad) : Step → Prop
  | .ops l => Op.put q ∈ l
  | .read f => ∃ s, Op.put q ∈ f s
  | .update _ => False

variable {C}

/-- What a step that looks at nothing does to the store, and whether it fails. -/
theorem Step.isBlind.cases {step : Step} (h : step.isBlind = true) :
    ∃ l, step = .ops l := by
  cases step with
  | ops l => exact ⟨l, rfl⟩
  | read f => simp [Step.isBlind] at h
  | update f => simp [Step.isBlind] at h

theorem runScript_singleton (s : Store) (step : Step) : runScript C s [step] = step.run C s := by
  rw [runScript]
  cases step.run C s with
  | mk r s' => cases r <;> rfl

/-- A script without failures, taken apart. -/
theorem runScript_cons_of_ok {step : Step} {steps : Script}
    (hok : (runScript C s (step :: steps)).1 = .ok ()) : (step.run C s).1 = .ok () ∧
      runScript C s (step :: steps) = runScript C (step.run C s).2 steps := by
  rw [runScript] at hok ⊢
  rcases hrun : step.run C s with ⟨_ | ⟨⟨⟩⟩, t⟩
  · rw [hrun] at hok
    cases hok
  · exact ⟨rfl, rfl⟩

theorem runScript_append (s : Store) (a b : Script) :
    runScript C s (a ++ b) = match runScript C s a with
      | (.ok (), s') => runScript C s' b
      | (.error e, s') => (.error e, s') := by
  induction a generalizing s with
  | nil => rfl
  | cons step steps ih =>
    rw [List.cons_append, runScript, runScript]
    cases step.run C s with
    | mk r s' =>
      cases r with
      | ok u => exact ih s'
      | error e => rfl

/-- A script of fixed operations overwrites: where it fails does not depend on the store. -/
theorem overwrites_runScript (h : Blind script) :
    Overwrites fun s => (runScript C s script).2 := by
  induction script with
  | nil => exact Overwrites.id
  | cons step steps ih =>
    obtain ⟨l, rfl⟩ := Step.isBlind.cases (h step List.mem_cons_self)
    have hrest := ih fun st hst => h st (List.mem_cons_of_mem _ hst)
    have hl : Overwrites fun s => (runOps C s l).2 := overwrites_runOps C l
    cases he : firstError C l with
    | none =>
      have heq : (fun s => (runScript C s (.ops l :: steps)).2) =
          (fun s => (runScript C s steps).2) ∘ fun s => (runOps C s l).2 := by
        funext s
        simp only [runScript, Step.run, Function.comp_apply, runOps_eq, he]
      rw [heq]
      exact hrest.comp hl
    | some e =>
      have heq : (fun s => (runScript C s (.ops l :: steps)).2) = fun s => (runOps C s l).2 := by
        funext s
        simp only [runScript, Step.run, runOps_eq, he]
      rw [heq]
      exact hl

/-! ## Removals -/

theorem runOps_ok_of_dels (h : ∀ op ∈ ops, ∃ p, op = .del p) (s : Store) :
    (runOps C s ops).1 = .ok () := by
  refine runOps_ok_of_error (fun op hop => ?_) s
  obtain ⟨p, rfl⟩ := h op hop
  rfl

/-- Removals alone: what is left is what no removal selects. -/
theorem mem_runOps_of_dels (h : ∀ op ∈ ops, ∃ p, op = .del p) : q ∈ (runOps C s ops).2 ↔
      q ∈ s ∧ ∀ p, Op.del p ∈ ops → p.matches q = false := by
  induction ops generalizing s with
  | nil => simp [runOps]
  | cons op ops ih =>
    obtain ⟨p, rfl⟩ := h op List.mem_cons_self
    rw [runOps, Op.exec]
    simp only [ih fun o ho => h o (List.mem_cons_of_mem _ ho), Store.mem_removeIf, List.mem_cons,
      Op.del.injEq]
    constructor
    · rintro ⟨⟨hs, hp⟩, hrest⟩
      exact ⟨hs, fun p' hp' => hp'.elim (fun heq => heq ▸ hp) (hrest p')⟩
    · rintro ⟨hs, hall⟩
      exact ⟨⟨hs, hall p (Or.inl rfl)⟩, fun p' hp' => hall p' (Or.inr hp')⟩

/-! ## Lists without failures -/

theorem firstError_eq_none :
    firstError C ops = none ↔ ∀ op ∈ ops, op.error C = none := by
  induction ops with
  | nil => simp [firstError]
  | cons op ops ih =>
    rw [firstError, List.forall_mem_cons]
    cases op.error C with
    | none => simpa using ih
    | some e => simp

theorem runOps_ok_iff :
    (runOps C s ops).1 = .ok () ↔ ∀ op ∈ ops, op.error C = none := by
  rw [runOps_eq, ← firstError_eq_none]
  cases firstError C ops <;> simp

/-- A list without failures does what its operations do. -/
theorem runOps_eq_foldl (hok : (runOps C s ops).1 = .ok ()) :
    (runOps C s ops).2 = ops.foldl Op.effect s := by
  rw [runOps_ok_iff] at hok
  induction ops generalizing s with
  | nil => rfl
  | cons op ops ih =>
    rw [runOps, Op.exec_eq, hok op List.mem_cons_self]
    exact ih fun o ho => hok o (List.mem_cons_of_mem op ho)

/-- Insertions alone. -/
theorem mem_runOps_of_puts (hok : (runOps C s ops).1 = .ok ()) (hputs : ∀ p, Op.del p ∉ ops) :
    q ∈ (runOps C s ops).2 ↔ q ∈ s ∨ Op.put q ∈ ops := by
  rw [runOps_ok_iff] at hok
  induction ops generalizing s with
  | nil => simp [runOps]
  | cons op ops ih =>
    rw [runOps, Op.exec_eq, hok op List.mem_cons_self]
    simp only
    rw [ih (fun o ho => hok o (List.mem_cons_of_mem op ho))
      fun p hp => hputs p (List.mem_cons_of_mem op hp)]
    cases op with
    | put r => simp [Op.effect, or_assoc]
    | del p => exact absurd List.mem_cons_self (hputs p)
    | named context iri => simp [Op.effect]
    | blank context id => simp [Op.effect]
    | fail message => simp [Op.effect]

/-- Removals and checks. -/
theorem mem_runOps_of_no_puts (hok : (runOps C s ops).1 = .ok ()) (hdels : ∀ q, Op.put q ∉ ops) :
    q ∈ (runOps C s ops).2 ↔ q ∈ s ∧ ∀ p, Op.del p ∈ ops → p.matches q = false := by
  rw [runOps_ok_iff] at hok
  induction ops generalizing s with
  | nil => simp [runOps]
  | cons op ops ih =>
    rw [runOps, Op.exec_eq, hok op List.mem_cons_self]
    simp only
    rw [ih (fun o ho => hok o (List.mem_cons_of_mem op ho))
      fun r hr => hdels r (List.mem_cons_of_mem op hr)]
    cases op with
    | put r => exact absurd List.mem_cons_self (hdels r)
    | del p => simp [Op.effect, and_assoc]
    | named context iri => simp [Op.effect]
    | blank context id => simp [Op.effect]
    | fail message => simp [Op.effect]

/-- Removals, and then insertions. -/
theorem mem_runOps_append {C : TermChecks} {dels puts : List Op}
    (hok : (runOps C s (dels ++ puts)).1 = .ok ()) (hdels : ∀ q, Op.put q ∉ dels)
    (hputs : ∀ p, Op.del p ∉ puts) : q ∈ (runOps C s (dels ++ puts)).2 ↔
      (q ∈ s ∧ ∀ p, Op.del p ∈ dels → p.matches q = false) ∨ Op.put q ∈ puts := by
  have herror := runOps_ok_iff.mp hok
  have hfirst : (runOps C s dels).1 = .ok () :=
    runOps_ok_of_error (fun op hop => herror op (List.mem_append_left _ hop)) s
  rw [runOps_append]
  rcases hrun : runOps C s dels with ⟨_ | ⟨⟨⟩⟩, t⟩
  · rw [hrun] at hfirst
    cases hfirst
  · rw [← mem_runOps_of_no_puts hfirst hdels, hrun]
    exact mem_runOps_of_puts
      (runOps_ok_of_error (fun op hop => herror op (List.mem_append_right _ hop)) t) hputs

/-! ## Invariants -/

/-- An invariant kept by every operation of a list is kept by the list. -/
theorem runOps_invariant (h : ∀ op ∈ ops, ∀ s, I s → I (op.effect s)) (hs : I s) :
    I (runOps C s ops).2 := by
  induction ops generalizing s with
  | nil => exact hs
  | cons op ops ih =>
    rw [runOps, Op.exec_eq]
    cases op.error C with
    | none =>
      exact ih (fun o ho => h o (List.mem_cons_of_mem op ho)) (h op List.mem_cons_self s hs)
    | some e => exact hs

/-- What no removal of a list selects stays. -/
theorem mem_runOps_of_mem (hdel : ∀ p, Op.del p ∈ ops → p.matches q = false) (hq : q ∈ s) :
    q ∈ (runOps C s ops).2 := by
  refine runOps_invariant (I := fun s => q ∈ s) (fun op hop s hs => ?_) hq
  cases op with
  | put r => exact Store.mem_insert.mpr (Or.inl hs)
  | del p => exact Store.mem_removeIf.mpr ⟨hs, hdel p hop⟩
  | named context iri => exact hs
  | blank context id => exact hs
  | fail message => exact hs

/-- What a list without failures inserts, and no removal of it selects, is there at its end. -/
theorem mem_runOps_of_put (hok : ∀ op ∈ ops, op.error C = none)
    (hdel : ∀ p, Op.del p ∈ ops → p.matches q = false) (hput : Op.put q ∈ ops) (s : Store) :
    q ∈ (runOps C s ops).2 := by
  induction ops generalizing s with
  | nil => simp at hput
  | cons op ops ih =>
    rw [runOps, Op.exec_eq, hok op List.mem_cons_self]
    have hdel' : ∀ p, Op.del p ∈ ops → p.matches q = false :=
      fun p hp => hdel p (List.mem_cons_of_mem op hp)
    rcases List.mem_cons.mp hput with rfl | htail
    · exact mem_runOps_of_mem hdel' (Store.mem_insert.mpr (Or.inr rfl))
    · exact ih (fun o ho => hok o (List.mem_cons_of_mem op ho)) hdel' htail _

/-- An invariant kept by every step of a script is kept by the script. -/
theorem runScript_invariant (h : ∀ step ∈ script, ∀ s, I s → I (step.run C s).2) (hs : I s) :
    I (runScript C s script).2 := by
  induction script generalizing s with
  | nil => exact hs
  | cons step steps ih =>
    have hstep := h step List.mem_cons_self s hs
    rw [runScript]
    cases hr : step.run C s with
    | mk r s' =>
      rw [hr] at hstep
      cases r with
      | ok u => exact ih (fun st hst => h st (List.mem_cons_of_mem step hst)) hstep
      | error e => exact hstep

/-- All operations of the step have the property, and it transforms nothing as a whole. -/
def Step.All (P : Op → Prop) : Step → Prop
  | .ops l => AllOps P l
  | .read f => ∀ s, AllOps P (f s)
  | .update _ => False

/-- The operations of a step, at a store. -/
def Step.operations (s : Store) : Step → List Op
  | .ops l => l
  | .read f => f s
  | .update _ => []

variable (C) in
/-- The operations that a script executes at a store: those before the first that fails. -/
def executed : Store → Script → List Op
  | _, [] => []
  | s, step :: steps => accepted C (step.operations s) ++
    match step.run C s with
    | (.ok (), s') => executed s' steps
    | (.error _, _) => []

theorem mem_of_mem_accepted {op : Op} (h : op ∈ accepted C ops) : op ∈ ops := by
  induction ops with
  | nil => exact h
  | cons o ops ih =>
    rw [accepted] at h
    cases herror : o.error C with
    | none =>
      rw [herror] at h
      exact (List.mem_cons.mp h).elim (fun heq => heq ▸ List.mem_cons_self)
        fun hrest => List.mem_cons_of_mem o (ih hrest)
    | some e =>
      rw [herror] at h
      cases h

/-- What is executed is an operation of a step. -/
theorem mem_executed {op : Op} (h : op ∈ executed C s script) :
    ∃ step ∈ script, ∃ t, op ∈ step.operations t := by
  induction script generalizing s with
  | nil => cases h
  | cons step steps ih =>
    rcases List.mem_append.mp h with hfirst | hrest
    · exact ⟨step, List.mem_cons_self, s, mem_of_mem_accepted hfirst⟩
    · split at hrest
      · obtain ⟨step', hstep', hop⟩ := ih hrest
        exact ⟨step', List.mem_cons_of_mem step hstep', hop⟩
      · cases hrest

/-- An invariant kept by every operation that is executed is kept by a script that transforms nothing as
a whole. -/
theorem runScript_invariant_of_executed (hall : ∀ step ∈ script, step.All fun _ => True)
    (h : ∀ op ∈ executed C s script, ∀ t, I t → I (op.effect t)) (hs : I s) :
    I (runScript C s script).2 := by
  induction script generalizing s with
  | nil => exact hs
  | cons step steps ih =>
    have hrun : (step.run C s).2 = (accepted C (step.operations s)).foldl Op.effect s := by
      cases step with
      | ops l => rw [Step.run, runOps_eq, Step.operations]
      | read f => rw [Step.run, runOps_eq, Step.operations]
      | update f => exact (hall _ List.mem_cons_self).elim
    have hfirst : I (step.run C s).2 := by
      rw [hrun]
      exact List.foldlRecOn _ _ hs fun t ht op hop => h op (List.mem_append_left _ hop) t ht
    rw [executed] at h
    rw [runScript]
    rcases hstep : step.run C s with ⟨_ | ⟨⟨⟩⟩, t⟩
    · rw [hstep] at hfirst
      exact hfirst
    · rw [hstep] at hfirst h
      exact ih (fun st hst => hall st (List.mem_cons_of_mem step hst))
        (fun op hop => h op (List.mem_append_right _ hop)) hfirst

/-- An invariant kept by every operation with the property is kept by a script of such operations. -/
theorem runScript_invariant_of_all {P : Op → Prop} (hall : ∀ step ∈ script, step.All P)
    (h : ∀ op, P op → ∀ s, I s → I (op.effect s)) (hs : I s) :
    I (runScript C s script).2 := by
  refine runScript_invariant (fun step hstep s hs => ?_) hs
  have hk := hall step hstep
  cases step with
  | ops l => exact runOps_invariant (fun op hop => h op (hk op hop)) hs
  | read f => exact runOps_invariant (fun op hop => h op (hk s op hop)) hs
  | update f => exact hk.elim

/-- The step inserts only quads with the property, as long as the store holds no others. -/
def Step.Keeps (P : Quad → Prop) : Step → Prop
  | .ops l => ∀ q, Op.put q ∈ l → P q
  | .read f => ∀ s : Store, (∀ q ∈ s, P q) → ∀ q, Op.put q ∈ f s → P q
  | .update f => ∀ s : Store, (∀ q ∈ s, P q) → ∀ q ∈ f s, P q

/-- A property of single quads that every insertion has holds in the whole store. -/
theorem forall_mem_runOps {P : Quad → Prop} (h : ∀ q, Op.put q ∈ ops → P q) (hs : ∀ q ∈ s, P q) :
    ∀ q ∈ (runOps C s ops).2, P q := by
  refine runOps_invariant (I := fun s => ∀ q ∈ s, P q) (fun op hop s hs q hq => ?_) hs
  cases op with
  | put r =>
    rcases Store.mem_insert.mp hq with hq | rfl
    · exact hs q hq
    · exact h q hop
  | del p => exact hs q (Store.mem_removeIf.mp hq).1
  | named context iri => exact hs q hq
  | blank context id => exact hs q hq
  | fail message => exact hs q hq

theorem forall_mem_runScript {P : Quad → Prop} (h : ∀ step ∈ script, step.Keeps P)
    (hs : ∀ q ∈ s, P q) :
    ∀ q ∈ (runScript C s script).2, P q := by
  refine runScript_invariant (I := fun s => ∀ q ∈ s, P q) (fun step hstep s hs => ?_) hs
  have hk := h step hstep
  cases step with
  | ops l => exact forall_mem_runOps hk hs
  | read f => exact forall_mem_runOps (hk s hs) hs
  | update f => exact hk s hs

end Lib
