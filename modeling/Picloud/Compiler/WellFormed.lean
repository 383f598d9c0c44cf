import Picloud.Compiler.Parser

/-!
# What the parser accepts

The keys of a parsed file are identifiers, none of them stands twice in a resource or a block, and its
strings and the names of its secrets contain no quote (`wellFormed_of_parse`).
-/

namespace Picloud

open Lib ParserOf

variable {F : Type} {env : SurfaceEnv F}

/-- A letter, and letters, digits, `-` and `_` behind it. -/
def IsIdent (key : String) : Prop :=
  (key.toList.head?.map Char.isAlpha).getD false = true ∧ ∀ c ∈ key.toList, isIdentChar c = true

/-- The text stands between quotes. -/
def Unquoted (text : String) : Prop := '"' ∉ text.toList

/-- The keys are identifiers and occur once. -/
structure KeysWellFormed (props : Properties F) : Prop where
  ident : ∀ p ∈ props, IsIdent p.key
  nodup : (props.map Property.key).Nodup

/-- A value that the parser can return. -/
inductive PropertyValue.WellFormed : PropertyValue F → Prop
  | string {text : String} (h : Unquoted text) : WellFormed (.string text)
  | number (n : F) : WellFormed (.number n)
  | bool (b : Bool) : WellFormed (.bool b)
  | secret {name : String} (h : Unquoted name) : WellFormed (.secret name)
  | block {props : Properties F} (hkeys : KeysWellFormed props)
      (h : ∀ p ∈ props, WellFormed p.value) : WellFormed (.block props)
  | blocks {blocks : List (Properties F)} (hkeys : ∀ props ∈ blocks, KeysWellFormed props)
      (h : ∀ props ∈ blocks, ∀ p ∈ props, WellFormed p.value) : WellFormed (.blocks blocks)

/-- Properties that the parser can return. -/
structure Properties.WellFormed (props : Properties F) : Prop where
  keys : KeysWellFormed props
  values : ∀ p ∈ props, p.value.WellFormed

/-- A file that the parser can return. -/
def ParsedFile.WellFormed (file : ParsedFile F) : Prop :=
  ∀ resource ∈ file.resources, Properties.WellFormed resource.properties

/-! ## Taking up a property -/

section Props

variable {props : Properties F} {key : String} {value : PropertyValue F}

theorem map_key_setFirst (key : String) (value : PropertyValue F) (props : Properties F) :
    (setFirst key value props).map Property.key = props.map Property.key := by
  induction props with
  | nil => rfl
  | cons p ps ih =>
    rw [setFirst]
    split_ifs
    · rfl
    · rw [List.map_cons, List.map_cons, ih]

theorem mem_setFirst {p : Property (PropertyValue F)} (h : p ∈ setFirst key value props) :
    p ∈ props ∨ p.value = value := by
  induction props with
  | nil => exact Or.inl h
  | cons q ps ih =>
    rw [setFirst] at h
    split_ifs at h
    · rcases List.mem_cons.mp h with rfl | h
      · exact Or.inr rfl
      · exact Or.inl (List.mem_cons_of_mem q h)
    · rcases List.mem_cons.mp h with rfl | h
      · exact Or.inl List.mem_cons_self
      · exact (ih h).imp_left (List.mem_cons_of_mem q)

theorem keysWellFormed_iff :
    KeysWellFormed props ↔ (∀ k ∈ props.map Property.key, IsIdent k) ∧ (props.map Property.key).Nodup :=
  ⟨fun h => ⟨fun _ hk => by obtain ⟨p, hp, rfl⟩ := List.mem_map.mp hk; exact h.ident p hp, h.nodup⟩,
    fun h => ⟨fun _ hp => h.1 _ (List.mem_map_of_mem hp), h.2⟩⟩

theorem Properties.WellFormed.tail {p : Property (PropertyValue F)}
    (h : Properties.WellFormed (p :: props)) : Properties.WellFormed props :=
  ⟨⟨fun q hq => h.keys.ident q (List.mem_cons_of_mem p hq), (List.nodup_cons.mp h.keys.nodup).2⟩,
    fun q hq => h.values q (List.mem_cons_of_mem p hq)⟩

/-- A new value for a key. -/
theorem Properties.WellFormed.setFirst (h : Properties.WellFormed props) (hvalue : value.WellFormed) :
    Properties.WellFormed (setFirst key value props) := by
  refine ⟨?_, fun p hp => ?_⟩
  · rw [keysWellFormed_iff, map_key_setFirst]
    exact keysWellFormed_iff.mp h.keys
  · rcases mem_setFirst hp with hp | rfl
    · exact h.values p hp
    · exact hvalue

/-- A property with a key that there is not. -/
theorem Properties.WellFormed.concat (h : Properties.WellFormed props) (hkey : IsIdent key)
    (hnew : props.find? (·.key = key) = none) (hvalue : value.WellFormed) (line : ℕ) :
    Properties.WellFormed (props ++ [⟨key, value, line⟩]) := by
  have hnotMem : key ∉ props.map Property.key := by
    rintro hmem
    obtain ⟨p, hp, rfl⟩ := List.mem_map.mp hmem
    simpa using List.find?_eq_none.mp hnew p hp
  refine ⟨keysWellFormed_iff.mpr ⟨?_, ?_⟩, ?_⟩
  · rw [List.map_append, List.forall_mem_append]
    exact ⟨(keysWellFormed_iff.mp h.keys).1, List.forall_mem_singleton.mpr hkey⟩
  · rw [List.map_append]
    exact List.nodup_append'.mpr ⟨h.keys.nodup, List.nodup_singleton key,
      List.disjoint_singleton.mpr hnotMem⟩
  · rw [List.forall_mem_append]
    exact ⟨h.values, List.forall_mem_singleton.mpr hvalue⟩

/-- The blocks of a key and one more. -/
theorem wellFormed_blocks_concat {blocks : List (Properties F)} {new : Properties F}
    (h : (PropertyValue.blocks blocks).WellFormed) (hnew : Properties.WellFormed new) :
    (PropertyValue.blocks (blocks ++ [new])).WellFormed := by
  cases h with
  | blocks hkeys hvalues =>
    refine .blocks ?_ ?_
    · exact List.forall_mem_append.mpr ⟨hkeys, List.forall_mem_singleton.mpr hnew.keys⟩
    · exact List.forall_mem_append.mpr ⟨hvalues, List.forall_mem_singleton.mpr hnew.values⟩

theorem wellFormed_of_block (h : (PropertyValue.block props).WellFormed) :
    Properties.WellFormed props := by
  cases h with
  | block hkeys hvalues => exact ⟨hkeys, hvalues⟩

theorem wellFormed_assign (h : Properties.WellFormed props) (hkey : IsIdent key)
    (hvalue : value.WellFormed) (line : ℕ) : Properties.WellFormed (assign props key value line) := by
  rw [assign]
  split
  · next existing hfind =>
    have hexisting := h.values existing (List.mem_of_find?_eq_some hfind)
    split
    · next blocks new heq =>
      rw [heq] at hexisting
      exact h.setFirst (wellFormed_blocks_concat hexisting (wellFormed_of_block hvalue))
    · exact h
  · next hnew => exact h.concat hkey hnew hvalue line

theorem wellFormed_addBlock {block props' : Properties F} {line : ℕ} (h : Properties.WellFormed props)
    (hkey : IsIdent key) (hblock : Properties.WellFormed block)
    (hadd : addBlock props key block line = .ok props') : Properties.WellFormed props' := by
  rw [addBlock] at hadd
  split at hadd
  · next existing hfind =>
    have hexisting := h.values existing (List.mem_of_find?_eq_some hfind)
    split at hadd
    · next blocks heq =>
      cases hadd
      rw [heq] at hexisting
      exact h.setFirst (wellFormed_blocks_concat hexisting hblock)
    · next first heq =>
      cases hadd
      rw [heq] at hexisting
      have hfirst := wellFormed_of_block hexisting
      refine h.setFirst (.blocks ?_ ?_)
      · exact List.forall_mem_cons.mpr ⟨hfirst.keys, List.forall_mem_singleton.mpr hblock.keys⟩
      · exact List.forall_mem_cons.mpr ⟨hfirst.values, List.forall_mem_singleton.mpr hblock.values⟩
    · cases hadd
  · next hnew =>
    cases hadd
    exact h.concat hkey hnew (.block hblock.keys hblock.values) line

end Props

/-! ## Parsing -/

theorem ensures_parseIdent : Ensures IsIdent parseIdent := by
  intro s key s' h
  obtain ⟨c, cs, line, -, hc, rfl, -⟩ := parseIdent_eq_ok.mp h
  refine ⟨?_, fun d hd => ?_⟩
  · rw [String.toList_ofList, List.takeWhile_cons_of_pos (isIdentChar_of_isAlpha hc)]
    exact hc
  · rw [String.toList_ofList] at hd
    exact List.mem_takeWhile_imp hd

theorem ensures_parseString : Ensures Unquoted parseString := by
  refine Ensures.after fun _ => Ensures.after fun _ => ?_
  intro s text s' h
  obtain ⟨cs, -, hnot, -⟩ := scanString_eq_ok.mp h
  exact hnot

theorem ensures_failHere {α : Type} (P : α → Prop) (message : String) :
    Ensures P (failHere message : SurfaceParser α) := Ensures.after fun _ => ensures_throw P _

theorem ensures_parseNumber : Ensures PropertyValue.WellFormed (parseNumber env) := by
  refine Ensures.after fun rest => Ensures.after fun _ => ?_
  split
  · exact ensures_pure (.number _)
  · exact ensures_failHere _ _

theorem ensures_parseBool : Ensures PropertyValue.WellFormed (parseBool (F := F)) := by
  refine Ensures.after fun rest => ?_
  split_ifs
  · exact Ensures.after fun _ => ensures_pure (.bool _)
  · exact Ensures.after fun _ => ensures_pure (.bool _)
  · exact ensures_failHere _ _

theorem ensures_parseSecret : Ensures PropertyValue.WellFormed (parseSecret (F := F)) :=
  Ensures.after fun _ => Ensures.after fun _ => ensures_parseString.bind fun _ hname =>
    Ensures.after fun _ => Ensures.after fun _ => ensures_pure (.secret hname)

section Recursion

variable {p : SurfaceParser (Properties F)}

theorem ensures_parseBlock (hp : Ensures Properties.WellFormed p) :
    Ensures Properties.WellFormed (parseBlock p) :=
  Ensures.after fun _ => hp.bind fun _ hprops => Ensures.after fun _ => ensures_pure hprops

theorem ensures_parseValue (hp : Ensures Properties.WellFormed p) :
    Ensures PropertyValue.WellFormed (parseValue env p) := by
  refine Ensures.after fun _ => Ensures.after fun rest => ?_
  split
  · split_ifs
    · exact ensures_parseString.bind fun _ htext => ensures_pure (.string htext)
    · exact ensures_parseNumber
    · exact ensures_parseBool
    · exact ensures_parseSecret
    · exact (ensures_parseBlock hp).bind fun _ hprops => ensures_pure (.block hprops.keys hprops.values)
    · exact ensures_failHere _ _
  · exact ensures_failHere _ _

theorem wellFormed_nil : Properties.WellFormed ([] : Properties F) :=
  ⟨⟨fun _ hp => absurd hp List.not_mem_nil, List.nodup_nil⟩, fun _ hp => absurd hp List.not_mem_nil⟩

theorem ensures_parseProperties (fuel : ℕ) {props : Properties F} (h : Properties.WellFormed props) :
    Ensures Properties.WellFormed (parseProperties env fuel props) := by
  induction fuel generalizing props with
  | zero => exact ensures_throw _ _
  | succ fuel ih =>
    refine Ensures.after fun _ => Ensures.after fun next => ?_
    split_ifs
    · exact ensures_pure h
    · refine Ensures.after fun line => ensures_parseIdent.bind fun key hkey =>
        Ensures.after fun _ => Ensures.after fun sign => ?_
      split_ifs
      · exact Ensures.after fun _ => (ensures_parseValue (ih wellFormed_nil)).bind fun value hvalue =>
          Ensures.after fun _ => ih (wellFormed_assign h hkey hvalue line)
      · refine (ensures_parseBlock (ih wellFormed_nil)).bind fun block hblock => ?_
        split
        · next props' hadd => exact ih (wellFormed_addBlock h hkey hblock hadd)
        · exact ensures_throw _ _
      · exact ensures_failHere _ _

end Recursion

theorem ensures_properties : Ensures Properties.WellFormed (properties env) := fun s props s' h =>
  ensures_parseProperties _ wellFormed_nil s props s' h

theorem ensures_parseResources (fuel : ℕ) :
    Ensures (fun resources => ∀ r ∈ resources, Properties.WellFormed r.properties)
      (parseResources env fuel) := by
  induction fuel with
  | zero => exact ensures_throw _ _
  | succ fuel ih =>
    refine Ensures.after fun _ => Ensures.after fun next => ?_
    split_ifs
    · exact ensures_pure fun r hr => absurd hr List.not_mem_nil
    · have hresource : Ensures (fun r => Properties.WellFormed r.properties) (parseResource env) :=
        Ensures.after fun _ => Ensures.after fun _ => Ensures.after fun _ => Ensures.after fun _ =>
          ensures_properties.bind fun _ hprops => Ensures.after fun _ => ensures_pure hprops
      exact hresource.bind fun r hr => ih.bind fun rs hrs =>
        ensures_pure (List.forall_mem_cons.mpr ⟨hr, hrs⟩)

/-- **A parsed file is well formed.** -/
theorem wellFormed_of_parse {source path : String} {file : ParsedFile F}
    (h : parse env source path = .ok file) : file.WellFormed := by
  rw [parse] at h
  cases hrun : parseResources env (source.toList.length + 1) ⟨source.toList, 1⟩ with
  | error e =>
    rw [hrun] at h
    cases h
  | ok r =>
    rw [hrun] at h
    cases h
    exact ensures_parseResources _ _ r.1 r.2 hrun

end Picloud
