import Picloud.Compiler.Entries

/-!
# What the parser drops

Each assignment and each block of a text is to appear in the syntax tree: a key shows its values, and the
values are those of its entries, in order. An assignment to a key that has a value is passed over, and
so is lost, unless its value is a block and the key has two blocks already. A text without such an
assignment is represented entirely (`nothing_dropped_iff`).
-/

namespace Picloud

open Lib ParserOf

variable {F : Type}

/-! ## What is claimed, and the condition -/

/-- The values that a value stands for: repeated blocks are several. -/
def PropertyValue.each : PropertyValue F → List (PropertyValue F)
  | .blocks all => all.map .block
  | v => [v]

/-- The values that the properties show for a key. -/
def shown (props : Properties F) (key : String) : List (PropertyValue F) :=
  ((props.find? (·.key = key)).map fun p => p.value.each).getD []

/-- The values of one key, in order. -/
def valuesFor (items : List (String × PropertyValue F)) (key : String) : List (PropertyValue F) :=
  (items.filter (·.1 = key)).map Prod.snd

/-- Each key shows its values. -/
def Displays (items : List (String × PropertyValue F)) (props : Properties F) : Prop :=
  ∀ key, shown props key = valuesFor items key

mutual

/-- The value shows the entry, with all that is in it. -/
def SurfaceEntry.Shown : SurfaceEntry F → PropertyValue F → Prop
  | .scalar _ _ value, w => w = value.1
  | .assigned _ _ entries, w | .block _ _ entries, w =>
    ∃ props ws, w = .block props ∧ AllShown entries ws ∧
      Displays ((entries.map SurfaceEntry.key).zip ws) props

/-- The values show the entries, one after the other. -/
def AllShown : List (SurfaceEntry F) → List (PropertyValue F) → Prop
  | [], ws => ws = []
  | entry :: entries, ws => ∃ w ws', ws = w :: ws' ∧ entry.Shown w ∧ AllShown entries ws'

end

/-- The properties show the entries at this nesting level, with all that is in them. -/
def EntriesShown (entries : List (SurfaceEntry F)) (props : Properties F) : Prop :=
  ∃ ws, AllShown entries ws ∧ Displays ((entries.map SurfaceEntry.key).zip ws) props

/-- What is claimed of a file: it has the resources of the text, and shows their entries. -/
def NothingDropped (env : SurfaceEnv F) (source : String) (file : ParsedFile F) : Prop :=
  ∃ entries, entriesOf env source = .ok entries ∧ List.Forall₂
    (fun entry resource => resource.resourceType = entry.resourceType ∧ resource.name = entry.name ∧
      EntriesShown entry.entries resource.properties) entries file.resources

/-- How many entries have the key. -/
def countKey (entries : List (SurfaceEntry F)) (key : String) : ℕ := entries.countP (·.key = key)

/-- An assignment is the first entry with its key, or of a block when there are two entries with the
key. -/
def SurfaceEntry.Fits (before : List (SurfaceEntry F)) : SurfaceEntry F → Prop
  | .scalar key _ _ => countKey before key = 0
  | .assigned key _ _ => countKey before key = 0 ∨ 2 ≤ countKey before key
  | .block .. => True

/-- Each entry fits those before it. -/
def FitFrom : List (SurfaceEntry F) → List (SurfaceEntry F) → Prop
  | _, [] => True
  | before, entry :: entries => entry.Fits before ∧ FitFrom (before ++ [entry]) entries

mutual

/-- The entries in the block fit, at each nesting level. -/
def SurfaceEntry.InnerFit : SurfaceEntry F → Prop
  | .scalar .. => True
  | .assigned _ _ entries | .block _ _ entries => FitFrom [] entries ∧ AllInnerFit entries

def AllInnerFit : List (SurfaceEntry F) → Prop
  | [] => True
  | entry :: entries => entry.InnerFit ∧ AllInnerFit entries

end

instance (before : List (SurfaceEntry F)) (entry : SurfaceEntry F) : Decidable (entry.Fits before) :=
  match entry with
  | .scalar key _ _ => inferInstanceAs (Decidable (countKey before key = 0))
  | .assigned key _ _ => inferInstanceAs (Decidable (countKey before key = 0 ∨ 2 ≤ countKey before key))
  | .block .. => isTrue trivial

instance decidableFitFrom : (before entries : List (SurfaceEntry F)) → Decidable (FitFrom before entries)
  | _, [] => isTrue trivial
  | before, entry :: entries =>
    have := decidableFitFrom (before ++ [entry]) entries
    inferInstanceAs (Decidable (entry.Fits before ∧ FitFrom (before ++ [entry]) entries))

mutual

instance decidableInnerFit : (entry : SurfaceEntry F) → Decidable entry.InnerFit
  | .scalar .. => decidable_of_iff True (by rw [SurfaceEntry.InnerFit])
  | .assigned _ _ entries =>
    have := decidableAllInnerFit entries
    decidable_of_iff (FitFrom [] entries ∧ AllInnerFit entries) (by rw [SurfaceEntry.InnerFit])
  | .block _ _ entries =>
    have := decidableAllInnerFit entries
    decidable_of_iff (FitFrom [] entries ∧ AllInnerFit entries) (by rw [SurfaceEntry.InnerFit])

instance decidableAllInnerFit : (entries : List (SurfaceEntry F)) → Decidable (AllInnerFit entries)
  | [] => decidable_of_iff True (by rw [AllInnerFit])
  | entry :: entries =>
    have := decidableInnerFit entry
    have := decidableAllInnerFit entries
    decidable_of_iff (entry.InnerFit ∧ AllInnerFit entries) (by rw [AllInnerFit])

end

/-- The condition: each assignment of the text fits what stands before it in its block. -/
def AssignmentsFit (env : SurfaceEnv F) (source : String) : Prop :=
  ∃ entries, entriesOf env source = .ok entries ∧
    ∀ resource ∈ entries, FitFrom [] resource.entries ∧ AllInnerFit resource.entries

instance (env : SurfaceEnv F) (source : String) : Decidable (AssignmentsFit env source) :=
  match h : entriesOf env source with
  | .error _ => isFalse (by rintro ⟨_, hentries, -⟩; rw [h] at hentries; cases hentries)
  | .ok entries => decidable_of_iff
      (∀ resource ∈ entries, FitFrom [] resource.entries ∧ AllInnerFit resource.entries)
      (by rw [AssignmentsFit, h]; simp)

/-! ## Taking up one entry -/

section Shown

variable {props props' : Properties F} {key k : String} {value : PropertyValue F} {line : ℕ}

theorem shown_of_find? {p : Property (PropertyValue F)} (h : props.find? (·.key = key) = some p) :
    shown props key = p.value.each := by
  rw [shown, h]
  rfl

theorem shown_of_find?_none (h : props.find? (·.key = key) = none) : shown props key = [] := by
  rw [shown, h]
  rfl

theorem find?_setFirst : (setFirst key value props).find? (·.key = k) =
    (props.find? (·.key = k)).map fun p => if k = key then { p with value := value } else p := by
  induction props with
  | nil => rfl
  | cons p ps ih =>
    rw [setFirst]
    by_cases hp : p.key = key
    · rw [if_pos hp]
      by_cases hk : p.key = k
      · simp [hk, ← hp]
      · have hne : k ≠ key := fun heq => hk (heq ▸ hp)
        simp [hk, hne]
    · rw [if_neg hp]
      by_cases hk : p.key = k
      · have hne : k ≠ key := fun heq => hp (heq ▸ hk)
        simp [hk, hne]
      · simp [hk, ih]

/-- A new property shows its value. -/
theorem shown_concat (hnew : props.find? (·.key = key) = none) :
    shown (props ++ [⟨key, value, line⟩]) k = shown props k ++ if k = key then value.each else [] := by
  by_cases hk : k = key
  · subst hk
    simp [shown, List.find?_append, hnew]
  · have hne : ¬ key = k := fun h => hk h.symm
    simp [shown, List.find?_append, hk, hne]

/-- A new value for a key that has one. -/
theorem shown_setFirst {p : Property (PropertyValue F)} (h : props.find? (·.key = key) = some p) :
    shown (setFirst key value props) k = if k = key then value.each else shown props k := by
  rw [shown, find?_setFirst]
  by_cases hk : k = key
  · subst hk
    simp [h]
  · simp [hk, shown]

/-- Repeated blocks are two at least. -/
def BlocksLong (props : Properties F) : Prop :=
  ∀ key p blocks, props.find? (·.key = key) = some p → p.value = .blocks blocks → 2 ≤ blocks.length

theorem BlocksLong.concat (h : BlocksLong props) (hvalue : ∀ blocks, value ≠ .blocks blocks) :
    BlocksLong (props ++ [⟨key, value, line⟩]) := by
  intro k p blocks hfind hp
  rw [List.find?_append] at hfind
  cases hk : props.find? (·.key = k) with
  | some q =>
    rw [hk] at hfind
    cases hfind
    exact h k p blocks hk hp
  | none =>
    rw [hk] at hfind
    by_cases hkey : key = k
    · simp only [hkey, Option.none_or, List.find?_cons, decide_true, Option.some.injEq] at hfind
      subst hfind
      exact absurd hp (hvalue blocks)
    · simp [hkey] at hfind

theorem BlocksLong.setFirst (h : BlocksLong props) {blocks : List (Properties F)}
    (hlong : 2 ≤ blocks.length) : BlocksLong (setFirst key (.blocks blocks) props) := by
  intro k p blocks' hfind hp
  rw [find?_setFirst, Option.map_eq_some_iff] at hfind
  obtain ⟨q, hq, hqp⟩ := hfind
  split_ifs at hqp
  · subst hqp
    cases hp
    exact hlong
  · subst hqp
    exact h k q blocks' hq hp

/-- An assignment shows its value beside the others of the key, or is passed over. -/
theorem shown_assign (key : String) (line : ℕ) (hlong : BlocksLong props) (hvalue : ∀ blocks, value ≠ .blocks blocks) :
    BlocksLong (assign props key value line) ∧
    ((shown props key = [] ∨ 2 ≤ (shown props key).length ∧ ∃ block, value = .block block) →
      ∀ k, shown (assign props key value line) k =
        shown props k ++ if k = key then [value] else []) ∧
    (¬ (shown props key = [] ∨ 2 ≤ (shown props key).length ∧ ∃ block, value = .block block) →
      assign props key value line = props) := by
  have heach : value.each = [value] := by
    cases value with
    | blocks blocks => exact absurd rfl (hvalue blocks)
    | _ => rfl
  rw [assign]
  cases hfind : props.find? (·.key = key) with
  | none =>
    refine ⟨hlong.concat hvalue, fun _ k => ?_, fun hnot => ?_⟩
    · rw [shown_concat hfind, heach]
    · exact absurd (Or.inl (shown_of_find?_none hfind)) hnot
  | some p =>
    have hshown := shown_of_find? hfind
    obtain ⟨pkey, pvalue, pline⟩ := p
    cases pvalue with
    | blocks blocks =>
      have hlen := hlong key _ blocks hfind rfl
      have hne : shown props key ≠ [] := by
        rw [hshown]
        exact List.ne_nil_of_length_pos (by rw [PropertyValue.each, List.length_map]; omega)
      cases value with
      | block block =>
        refine ⟨hlong.setFirst (by rw [List.length_append]; omega), fun _ k => ?_, fun hnot => ?_⟩
        · rw [shown_setFirst hfind]
          by_cases hk : k = key
          · rw [if_pos hk, if_pos hk, hk, hshown, PropertyValue.each, List.map_append]
            rfl
          · rw [if_neg hk, if_neg hk, List.append_nil]
        · refine absurd (Or.inr ⟨?_, block, rfl⟩) hnot
          rw [hshown, PropertyValue.each, List.length_map]
          exact hlen
      | _ =>
        refine ⟨hlong, fun haccepted => ?_, fun _ => rfl⟩
        rcases haccepted with hnil | ⟨-, block, heq⟩
        · exact absurd hnil hne
        · cases heq
    | _ =>
      refine ⟨by cases value <;> exact hlong, fun haccepted => ?_, fun _ => by cases value <;> rfl⟩
      rw [hshown] at haccepted
      rcases haccepted with hnil | ⟨hlen, -⟩
      · cases hnil
      · exact absurd hlen (by simp [PropertyValue.each])

/-- A block is shown beside the others of its key. -/
theorem shown_addBlock {block : Properties F} (hlong : BlocksLong props)
    (h : addBlock props key block line = .ok props') :
    BlocksLong props' ∧ ∀ k, shown props' k =
      shown props k ++ if k = key then [.block block] else [] := by
  rw [addBlock] at h
  cases hfind : props.find? (·.key = key) with
  | none =>
    rw [hfind] at h
    cases h
    exact ⟨hlong.concat (by simp), fun k => shown_concat hfind⟩
  | some p =>
    rw [hfind] at h
    have hshown := shown_of_find? hfind
    obtain ⟨pkey, pvalue, pline⟩ := p
    cases pvalue with
    | blocks blocks =>
      cases h
      have hlen := hlong key _ blocks hfind rfl
      refine ⟨hlong.setFirst (by rw [List.length_append]; omega), fun k => ?_⟩
      rw [shown_setFirst hfind]
      by_cases hk : k = key
      · rw [if_pos hk, if_pos hk, hk, hshown, PropertyValue.each, List.map_append]
        rfl
      · rw [if_neg hk, if_neg hk, List.append_nil]
    | block first =>
      cases h
      refine ⟨hlong.setFirst le_rfl, fun k => ?_⟩
      rw [shown_setFirst hfind]
      by_cases hk : k = key
      · rw [if_pos hk, if_pos hk, hk, hshown]
        rfl
      · rw [if_neg hk, if_neg hk, List.append_nil]
    | _ => cases h

end Shown

/-! ## Taking up the entries of a block -/

section Level

variable {lineOf : List Char → ℕ} {props props' : Properties F} {entry : SurfaceEntry F}
  {entries done : List (SurfaceEntry F)}

/-- The value of an entry, if there is no conflict in it. -/
def SurfaceEntry.valueIn (lineOf : List Char → ℕ) : SurfaceEntry F → Option (PropertyValue F)
  | .scalar _ _ value => some value.1
  | .assigned _ _ entries | .block _ _ entries =>
    match mergeEntries lineOf entries [] with
    | .ok props => some (.block props)
    | .error _ => none

/-- The entry is not passed over. -/
def SurfaceEntry.Accepted (props : Properties F) : SurfaceEntry F → Prop
  | .scalar key _ _ => shown props key = []
  | .assigned key _ _ => shown props key = [] ∨ 2 ≤ (shown props key).length
  | .block .. => True

/-- An entry that is accepted shows its value, and one that is not changes nothing. -/
theorem shown_mergeInto (hlong : BlocksLong props) (h : entry.mergeInto lineOf props = .ok props') :
    ∃ v, entry.valueIn lineOf = some v ∧ BlocksLong props' ∧
      (entry.Accepted props → ∀ k, shown props' k =
        shown props k ++ if k = entry.key then [v] else []) ∧
      (¬ entry.Accepted props → props' = props) := by
  cases entry with
  | scalar key start value =>
    cases h
    have hvalue : ∀ blocks, value.1 ≠ .blocks blocks := by
      intro blocks heq
      have := value.2
      rw [heq] at this
      cases this
    obtain ⟨hlong', hshown, hsame⟩ := shown_assign key (lineOf start) hlong hvalue
    refine ⟨value.1, rfl, hlong', fun haccepted => hshown (Or.inl haccepted), fun hnot => hsame ?_⟩
    rintro (hnil | ⟨-, block, heq⟩)
    · exact hnot hnil
    · have := value.2
      rw [heq] at this
      cases this
  | assigned key start entries =>
    rw [SurfaceEntry.mergeInto] at h
    cases hblock : mergeEntries lineOf entries [] with
    | error e =>
      rw [hblock] at h
      cases h
    | ok block =>
      rw [hblock] at h
      cases h
      have hvalue : ∀ blocks, PropertyValue.block block ≠ .blocks blocks := by simp
      obtain ⟨hlong', hshown, hsame⟩ := shown_assign key (lineOf start) hlong hvalue
      refine ⟨.block block, by rw [SurfaceEntry.valueIn, hblock], hlong', fun haccepted => hshown ?_,
        fun hnot => hsame fun haccepted => hnot ?_⟩
      · exact haccepted.imp_right fun hlen => ⟨hlen, block, rfl⟩
      · exact haccepted.imp_right And.left
  | block key start entries =>
    rw [SurfaceEntry.mergeInto] at h
    cases hblock : mergeEntries lineOf entries [] with
    | error e =>
      rw [hblock] at h
      cases h
    | ok block =>
      rw [hblock] at h
      obtain ⟨hlong', hshown⟩ := shown_addBlock hlong h
      exact ⟨.block block, by rw [SurfaceEntry.valueIn, hblock], hlong', fun _ => hshown,
        fun hnot => absurd trivial hnot⟩

theorem exists_of_mergeEntries_cons (h : mergeEntries lineOf (entry :: entries) props = .ok props') :
    ∃ props₁, entry.mergeInto lineOf props = .ok props₁ ∧
      mergeEntries lineOf entries props₁ = .ok props' := by
  rw [mergeEntries] at h
  cases hentry : entry.mergeInto lineOf props with
  | error e =>
    rw [hentry] at h
    cases h
  | ok props₁ =>
    rw [hentry] at h
    exact ⟨props₁, rfl, h⟩

theorem countKey_cons (entry : SurfaceEntry F) (entries : List (SurfaceEntry F)) (k : String) :
    countKey (entry :: entries) k = countKey entries k + if k = entry.key then 1 else 0 := by
  rw [countKey, List.countP_cons]
  by_cases hk : k = entry.key
  · simp [hk, countKey]
  · have hne : ¬ entry.key = k := fun h => hk h.symm
    simp [hk, hne, countKey]

theorem countKey_concat (done : List (SurfaceEntry F)) (entry : SurfaceEntry F) (k : String) :
    countKey (done ++ [entry]) k = countKey done k + if k = entry.key then 1 else 0 := by
  rw [countKey, List.countP_append, ← countKey, ← countKey, countKey_cons]
  simp [countKey]

/-- A key shows no more values than it has entries. -/
theorem length_shown_le (hlong : BlocksLong props)
    (h : mergeEntries lineOf entries props = .ok props') (k : String) :
    (shown props' k).length ≤ (shown props k).length + countKey entries k := by
  induction entries generalizing props with
  | nil =>
    cases h
    exact Nat.le_add_right _ _
  | cons entry entries ih =>
    obtain ⟨props₁, hentry, hrest⟩ := exists_of_mergeEntries_cons h
    obtain ⟨v, -, hlong₁, hshown, hsame⟩ := shown_mergeInto hlong hentry
    have hle := ih hlong₁ hrest
    rw [countKey_cons]
    by_cases haccepted : entry.Accepted props
    · rw [hshown haccepted k, List.length_append] at hle
      split_ifs at hle ⊢ <;> simp only [List.length_singleton, List.length_nil] at hle <;> omega
    · rw [hsame haccepted] at hle
      omega

variable {items : List (String × PropertyValue F)}

theorem length_valuesFor (hkeys : items.map Prod.fst = entries.map SurfaceEntry.key) (k : String) :
    (valuesFor items k).length = countKey entries k := by
  have hitems : (valuesFor items k).length = (items.map Prod.fst).countP (· = k) := by
    rw [valuesFor, List.length_map, ← List.countP_eq_length_filter, List.countP_map]
    rfl
  rw [hitems, hkeys, List.countP_map, countKey]
  rfl

/-- When every key shows its entries, an entry is accepted exactly when it fits. -/
theorem accepted_iff (hlength : ∀ k, (shown props k).length = countKey done k) :
    entry.Accepted props ↔ entry.Fits done := by
  cases entry with
  | scalar key start value =>
    rw [SurfaceEntry.Accepted, SurfaceEntry.Fits, ← hlength, List.length_eq_zero_iff]
  | assigned key start entries =>
    rw [SurfaceEntry.Accepted, SurfaceEntry.Fits, ← hlength, List.length_eq_zero_iff]
  | block key start entries => exact Iff.rfl

theorem valuesFor_append (items items' : List (String × PropertyValue F)) (k : String) :
    valuesFor (items ++ items') k = valuesFor items k ++ valuesFor items' k := by
  rw [valuesFor, List.filter_append, List.map_append, valuesFor, valuesFor]

theorem valuesFor_cons (key : String) (v : PropertyValue F)
    (items : List (String × PropertyValue F)) (k : String) :
    valuesFor ((key, v) :: items) k = (if k = key then [v] else []) ++ valuesFor items k := by
  by_cases hk : k = key
  · simp [valuesFor, hk]
  · have hne : ¬ key = k := fun h => hk h.symm
    simp [valuesFor, hk, hne]

/-- Behind entries that are shown, all entries are shown when they fit, and they fit when no key shows too
few of them. -/
theorem displays_of_fit {vs : List (PropertyValue F)} (hlong : BlocksLong props)
    (hkeys : items.map Prod.fst = done.map SurfaceEntry.key) (hdone : Displays items props)
    (hvs : List.Forall₂ (fun e v => e.valueIn lineOf = some v) entries vs)
    (h : mergeEntries lineOf entries props = .ok props') :
    (FitFrom done entries → Displays (items ++ (entries.map SurfaceEntry.key).zip vs) props') ∧
    ((∀ k, countKey done k + countKey entries k ≤ (shown props' k).length) →
      FitFrom done entries) := by
  induction hvs generalizing done props items with
  | nil =>
    cases h
    refine ⟨fun _ => ?_, fun _ => trivial⟩
    rwa [List.map_nil, List.zip_nil_left, List.append_nil]
  | @cons entry v entries vs hv _ ih =>
    obtain ⟨props₁, hentry, hrest⟩ := exists_of_mergeEntries_cons h
    obtain ⟨v', hv', hlong₁, hshown, hsame⟩ := shown_mergeInto hlong hentry
    obtain rfl : v = v' := Option.some.inj (hv.symm.trans hv')
    have hlength : ∀ k, (shown props k).length = countKey done k := fun k => by
      rw [hdone k, length_valuesFor hkeys]
    by_cases haccepted : entry.Accepted props
    · have hdone₁ : Displays (items ++ [(entry.key, v)]) props₁ := by
        intro k
        rw [hshown haccepted k, hdone k, valuesFor_append, valuesFor_cons]
        simp [valuesFor]
      have hkeys₁ : (items ++ [(entry.key, v)]).map Prod.fst =
          (done ++ [entry]).map SurfaceEntry.key := by simp [hkeys]
      obtain ⟨hfit, hback⟩ := ih hlong₁ hkeys₁ hdone₁ hrest
      constructor
      · intro hall
        have := hfit hall.2
        rwa [List.append_assoc] at this
      · intro hcounts
        refine ⟨(accepted_iff hlength).mp haccepted, hback fun k => ?_⟩
        have hcount := hcounts k
        rw [countKey_cons] at hcount
        rw [countKey_concat]
        omega
    · constructor
      · exact fun hall => absurd ((accepted_iff hlength).mpr hall.1) haccepted
      · -- the value of the entry is missing to the end
        intro hcounts
        have hle := length_shown_le hlong₁ hrest entry.key
        rw [hsame haccepted, hlength] at hle
        have hcount := hcounts entry.key
        rw [countKey_cons, if_pos rfl] at hcount
        omega

theorem exists_values (hlong : BlocksLong props)
    (h : mergeEntries lineOf entries props = .ok props') :
    ∃ vs, List.Forall₂ (fun e v => e.valueIn lineOf = some v) entries vs := by
  induction entries generalizing props with
  | nil => exact ⟨[], .nil⟩
  | cons entry entries ih =>
    obtain ⟨props₁, hentry, hrest⟩ := exists_of_mergeEntries_cons h
    obtain ⟨v, hv, hlong₁, -⟩ := shown_mergeInto hlong hentry
    obtain ⟨vs, hvs⟩ := ih hlong₁ hrest
    exact ⟨v :: vs, .cons hv hvs⟩

/-! ## Whole trees -/

/-- Keys and the values of each key determine a list. -/
theorem eq_of_valuesFor {items' : List (String × PropertyValue F)}
    (hkeys : items.map Prod.fst = items'.map Prod.fst)
    (h : ∀ k, valuesFor items k = valuesFor items' k) : items = items' := by
  induction items generalizing items' with
  | nil =>
    rw [List.map_nil, eq_comm, List.map_eq_nil_iff] at hkeys
    exact hkeys.symm
  | cons item items ih =>
    cases items' with
    | nil => cases hkeys
    | cons item' items' =>
      obtain ⟨key, v⟩ := item
      obtain ⟨key', v'⟩ := item'
      rw [List.map_cons, List.map_cons] at hkeys
      obtain ⟨hkey, htail⟩ := List.cons.inj hkeys
      obtain rfl : key = key' := hkey
      have hhead := h key
      rw [valuesFor_cons, valuesFor_cons, if_pos rfl, if_pos rfl] at hhead
      obtain ⟨rfl, -⟩ := List.cons.inj hhead
      have hrest : ∀ k, valuesFor items k = valuesFor items' k := by
        intro k
        have hk := h k
        rw [valuesFor_cons, valuesFor_cons] at hk
        exact List.append_cancel_left hk
      rw [ih htail hrest]

theorem length_of_allShown {ws : List (PropertyValue F)} (h : AllShown entries ws) :
    ws.length = entries.length := by
  induction entries generalizing ws with
  | nil =>
    rw [AllShown] at h
    rw [h]
    rfl
  | cons entry entries ih =>
    rw [AllShown] at h
    obtain ⟨w, ws', rfl, -, hrest⟩ := h
    rw [List.length_cons, List.length_cons, ih hrest]

theorem blocksLong_nil : BlocksLong ([] : Properties F) := by
  intro key p blocks hfind
  cases hfind

/-- A block shows its entries exactly when they fit and what is in them does, given that this is so for
what is in them. -/
theorem entriesShown_iff_of
    (hinner : ∀ vs, List.Forall₂ (fun e v => e.valueIn lineOf = some v) entries vs →
      (AllShown entries vs ↔ AllInnerFit entries))
    (h : mergeEntries lineOf entries [] = .ok props) :
    EntriesShown entries props ↔ FitFrom [] entries ∧ AllInnerFit entries := by
  obtain ⟨vs, hvs⟩ := exists_values blocksLong_nil h
  have hnil : Displays [] ([] : Properties F) := fun k => rfl
  have hkeys : ([] : List (String × PropertyValue F)).map Prod.fst =
      ([] : List (SurfaceEntry F)).map SurfaceEntry.key := rfl
  obtain ⟨hfit, hback⟩ := displays_of_fit blocksLong_nil hkeys hnil hvs h
  rw [List.nil_append] at hfit
  have hfst : ∀ ws : List (PropertyValue F), ws.length = entries.length →
      ((entries.map SurfaceEntry.key).zip ws).map Prod.fst = entries.map SurfaceEntry.key :=
    fun ws hws => List.map_fst_zip (by rw [List.length_map, hws])
  constructor
  · rintro ⟨ws, hws, hdisplays⟩
    have hlength := length_of_allShown hws
    have hfits : FitFrom [] entries := hback fun k => by
      rw [hdisplays k, length_valuesFor (hfst ws hlength)]
      simp [countKey]
    have hzip := eq_of_valuesFor ((hfst ws hlength).trans (hfst vs hvs.length_eq.symm).symm)
      fun k => (hdisplays k).symm.trans (hfit hfits k)
    have hsame : ws = vs := by
      have hsnd := congrArg (List.map Prod.snd) hzip
      rwa [List.map_snd_zip (by rw [List.length_map, hlength]),
        List.map_snd_zip (by rw [List.length_map, hvs.length_eq])] at hsnd
    exact ⟨hfits, (hinner vs hvs).mp (hsame ▸ hws)⟩
  · rintro ⟨hfits, hall⟩
    exact ⟨vs, (hinner vs hvs).mpr hall, hfit hfits⟩

theorem shown_block_iff (h : mergeEntries lineOf entries [] = .ok props)
    (hinner : ∀ vs, List.Forall₂ (fun e v => e.valueIn lineOf = some v) entries vs →
      (AllShown entries vs ↔ AllInnerFit entries)) :
    (∃ props' ws, PropertyValue.block props = .block props' ∧ AllShown entries ws ∧
      Displays ((entries.map SurfaceEntry.key).zip ws) props') ↔
    FitFrom [] entries ∧ AllInnerFit entries := by
  rw [← entriesShown_iff_of hinner h]
  constructor
  · rintro ⟨props', ws, heq, hws, hdisplays⟩
    cases heq
    exact ⟨ws, hws, hdisplays⟩
  · rintro ⟨ws, hws, hdisplays⟩
    exact ⟨props, ws, rfl, hws, hdisplays⟩

end Level

section Trees

variable {lineOf : List Char → ℕ}

/-- The value of a block comes from its entries. -/
theorem exists_of_valueIn {entries : List (SurfaceEntry F)} {v : PropertyValue F}
    (h : (match mergeEntries lineOf entries [] with
      | .ok props => some (.block props)
      | .error _ => none) = some v) :
    ∃ props, mergeEntries lineOf entries [] = .ok props ∧ v = .block props := by
  cases hmerge : mergeEntries lineOf entries [] with
  | error e =>
    rw [hmerge] at h
    cases h
  | ok props =>
    rw [hmerge] at h
    cases h
    exact ⟨props, rfl, rfl⟩

mutual

/-- A value shows its entry exactly when the entries in it fit. -/
theorem shown_iff (entry : SurfaceEntry F) {v : PropertyValue F}
    (hv : entry.valueIn lineOf = some v) : entry.Shown v ↔ entry.InnerFit := by
  match entry with
  | .scalar key start value =>
    rw [SurfaceEntry.Shown, SurfaceEntry.InnerFit, iff_true]
    exact (Option.some.inj hv).symm
  | .assigned key start entries =>
    obtain ⟨props, hmerge, rfl⟩ := exists_of_valueIn hv
    rw [SurfaceEntry.Shown, SurfaceEntry.InnerFit]
    exact shown_block_iff hmerge fun vs hvs => allShown_iff entries hvs
  | .block key start entries =>
    obtain ⟨props, hmerge, rfl⟩ := exists_of_valueIn hv
    rw [SurfaceEntry.Shown, SurfaceEntry.InnerFit]
    exact shown_block_iff hmerge fun vs hvs => allShown_iff entries hvs

theorem allShown_iff (entries : List (SurfaceEntry F)) {vs : List (PropertyValue F)}
    (hvs : List.Forall₂ (fun e v => e.valueIn lineOf = some v) entries vs) :
    AllShown entries vs ↔ AllInnerFit entries := by
  match entries, hvs with
  | [], .nil => rw [AllShown, AllInnerFit, iff_true]
  | entry :: entries, .cons hv hvs =>
    rw [AllShown, AllInnerFit, ← shown_iff entry hv, ← allShown_iff entries hvs]
    constructor
    · rintro ⟨w, ws, heq, hw, hws⟩
      obtain ⟨rfl, rfl⟩ := List.cons.inj heq
      exact ⟨hw, hws⟩
    · rintro ⟨hw, hws⟩
      exact ⟨_, _, rfl, hw, hws⟩

end

/-- The properties show the entries exactly when these fit, at each nesting level. -/
theorem entriesShown_iff {entries : List (SurfaceEntry F)} {props : Properties F}
    (h : mergeEntries lineOf entries [] = .ok props) :
    EntriesShown entries props ↔ FitFrom [] entries ∧ AllInnerFit entries :=
  entriesShown_iff_of (fun _ hvs => allShown_iff entries hvs) h

end Trees

/-! ## Files -/

/-- The resources show their entries exactly when these fit. -/
theorem resourcesShown_iff {lineOf : List Char → ℕ} {entries : List (ResourceEntry F)}
    {resources : List (ResourceDecl F)}
    (hmerged : List.Forall₂ (MergedFrom lineOf) entries resources) :
    List.Forall₂ (fun entry resource => resource.resourceType = entry.resourceType ∧
      resource.name = entry.name ∧ EntriesShown entry.entries resource.properties)
      entries resources ↔
    ∀ resource ∈ entries, FitFrom [] resource.entries ∧ AllInnerFit resource.entries := by
  induction hmerged with
  | nil => simp
  | cons hfirst _ ih =>
    rw [List.forall₂_cons, List.forall_mem_cons, ih, entriesShown_iff hfirst.properties]
    simp [hfirst.resourceType, hfirst.name]

section Files

variable {env : SurfaceEnv F} {source path : String} {file : ParsedFile F}

theorem assignmentsFit_of_nothingDropped (h : parse env source path = .ok file)
    (hshown : NothingDropped env source file) : AssignmentsFit env source := by
  obtain ⟨entries, hentries, hmerged⟩ := merge_of_parse h
  obtain ⟨entries', hentries', hshown⟩ := hshown
  obtain rfl : entries' = entries := Except.ok.inj (hentries'.symm.trans hentries)
  exact ⟨entries', hentries', (resourcesShown_iff hmerged).mp hshown⟩

theorem nothingDropped_of_assignmentsFit (h : parse env source path = .ok file)
    (hfit : AssignmentsFit env source) : NothingDropped env source file := by
  obtain ⟨entries, hentries, hmerged⟩ := merge_of_parse h
  obtain ⟨entries', hentries', hfit⟩ := hfit
  obtain rfl : entries' = entries := Except.ok.inj (hentries'.symm.trans hentries)
  exact ⟨entries', hentries', (resourcesShown_iff hmerged).mpr hfit⟩

/-- **The parser drops nothing** of a text that it accepts exactly when no assignment of the text repeats
a key, except with a block for a key that has two blocks. -/
theorem nothing_dropped_iff (h : parse env source path = .ok file) :
    NothingDropped env source file ↔ AssignmentsFit env source :=
  ⟨assignmentsFit_of_nothingDropped h, nothingDropped_of_assignmentsFit h⟩

end Files

/-! ## Samples -/

/-- Each key once, and two blocks with one key. -/
def mountedVolume : String :=
  "volume \"v\" \x7b pool = \"ssd\"; mount \x7b at = \"/a\" \x7d mount \x7b at = \"/b\" \x7d \x7d"

/-- A key with two values. -/
def twicePooled : String := "volume \"v\" \x7b pool = \"ssd\"; pool = \"hdd\" \x7d"

theorem exists_of_isSome {source : String}
    (h : ((parse sampleSurface source "v.picloud").toOption.map (·.resources.length)).isSome) :
    ∃ file, parse sampleSurface source "v.picloud" = .ok file := by
  cases hparse : parse sampleSurface source "v.picloud" with
  | error e =>
    rw [hparse] at h
    cases h
  | ok file => exact ⟨file, rfl⟩

/-- All of the first one is kept. -/
theorem nothing_dropped_mountedVolume :
    ∃ file, parse sampleSurface mountedVolume "v.picloud" = .ok file ∧
      NothingDropped sampleSurface mountedVolume file := by
  have hsome : ((parse sampleSurface mountedVolume "v.picloud").toOption.map
      (·.resources.length)).isSome := by decide +kernel
  obtain ⟨file, hfile⟩ := exists_of_isSome hsome
  exact ⟨file, hfile, (nothing_dropped_iff hfile).mpr (by decide +kernel)⟩

/-- **The second value is dropped**, and the parser reports nothing. -/
theorem not_nothingDropped_twicePooled :
    ∃ file, parse sampleSurface twicePooled "v.picloud" = .ok file ∧
      ¬ NothingDropped sampleSurface twicePooled file := by
  have hsome : ((parse sampleSurface twicePooled "v.picloud").toOption.map
      (·.resources.length)).isSome := by decide +kernel
  obtain ⟨file, hfile⟩ := exists_of_isSome hsome
  have hfits : ¬ AssignmentsFit sampleSurface twicePooled := by decide +kernel
  exact ⟨file, hfile, fun hshown => hfits (assignmentsFit_of_nothingDropped hfile hshown)⟩

end Picloud
