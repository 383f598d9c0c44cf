import Picloud.Compiler.Compile
import Picloud.Compiler.WellFormed
import Picloud.Lib.TurtleStrings

/-!
# Strings in the deployment graph

`compile` puts a string value between quotes as it is. The surface syntax has no escapes and allows the
ends of lines, so that a string with a backslash or with the end of a line becomes another text, or no
literal at all; every other string is kept.
-/

namespace Picloud

open Lib

variable {F : Type}

mutual

/-- The texts that a value is to have in the graph: its strings and secrets at any depth, with their
keys. -/
def PropertyValue.texts (key : String) : PropertyValue F → List (String × String)
  | .string text => [(key, text)]
  | .secret name => [(key, "secret:" ++ name)]
  | .number _ => []
  | .bool _ => []
  | .block props => textsOf props
  | .blocks blocks => textsOfBlocks blocks

/-- The texts of properties. -/
def textsOf : Properties F → List (String × String)
  | [] => []
  | ⟨key, value, _⟩ :: props => value.texts key ++ textsOf props

/-- The texts of blocks. -/
def textsOfBlocks : List (Properties F) → List (String × String)
  | [] => []
  | props :: blocks => textsOf props ++ textsOfBlocks blocks

end

/-- The texts of a file. -/
def ParsedFile.texts (file : ParsedFile F) : List (String × String) :=
  file.resources.flatMap fun resource => textsOf resource.properties

/-! ## What is written -/

section Written

variable (std : FloatEnv F) {entry : String × String}

mutual

/-- Every text of a value is written, on some subject, as its literal. -/
theorem exists_triple_property (parent key : String) (value : PropertyValue F)
    (h : entry ∈ value.texts key) :
    ∃ subject, .triple subject (predicateOf entry.1) (literalOf entry.2) ∈
      compileProperty std parent key value := by
  match value with
  | .string _ | .secret _ =>
    cases List.mem_singleton.mp h
    exact ⟨parent, List.mem_singleton_self _⟩
  | .number _ | .bool _ => exact absurd h List.not_mem_nil
  | .block props =>
    obtain ⟨subject, hsubject⟩ := exists_triple_properties (blockIri parent key props) props h
    exact ⟨subject, List.mem_append_left _ (List.mem_append_right _ hsubject)⟩
  | .blocks blocks => exact exists_triple_blocks parent key 0 blocks h

theorem exists_triple_properties (parent : String) (props : Properties F) (h : entry ∈ textsOf props) :
    ∃ subject, .triple subject (predicateOf entry.1) (literalOf entry.2) ∈
      compileProperties std parent props := by
  match props with
  | [] => exact absurd h List.not_mem_nil
  | ⟨key, value, line⟩ :: props =>
    rw [compileProperties]
    rcases List.mem_append.mp h with h | h
    · obtain ⟨subject, hsubject⟩ := exists_triple_property parent key value h
      exact ⟨subject, List.mem_append_left _ hsubject⟩
    · obtain ⟨subject, hsubject⟩ := exists_triple_properties parent props h
      exact ⟨subject, List.mem_append_right _ hsubject⟩

theorem exists_triple_blocks (parent key : String) (i : ℕ) (blocks : List (Properties F))
    (h : entry ∈ textsOfBlocks blocks) :
    ∃ subject, .triple subject (predicateOf entry.1) (literalOf entry.2) ∈
      compileBlocks std parent key i blocks := by
  match blocks with
  | [] => exact absurd h List.not_mem_nil
  | props :: blocks =>
    rw [compileBlocks]
    rcases List.mem_append.mp h with h | h
    · obtain ⟨subject, hsubject⟩ :=
        exists_triple_properties (keyedIri parent key (blockKey props i)) props h
      exact ⟨subject, List.mem_append_left _ (List.mem_append_left _ (List.mem_append_right _ hsubject))⟩
    · obtain ⟨subject, hsubject⟩ := exists_triple_blocks parent key (i + 1) blocks h
      exact ⟨subject, List.mem_append_right _ hsubject⟩

end

end Written

/-! ## What is read back -/

variable {entry : String × String}

theorem exists_of_mem_textsOf {props : Properties F} (h : entry ∈ textsOf props) :
    ∃ p ∈ props, entry ∈ p.value.texts p.key := by
  induction props with
  | nil => exact absurd h List.not_mem_nil
  | cons q props ih =>
    rcases List.mem_append.mp h with h | h
    · exact ⟨q, List.mem_cons_self, h⟩
    · obtain ⟨p, hp, hentry⟩ := ih h
      exact ⟨p, List.mem_cons_of_mem q hp, hentry⟩

theorem exists_of_mem_textsOfBlocks {blocks : List (Properties F)}
    (h : entry ∈ textsOfBlocks blocks) : ∃ props ∈ blocks, entry ∈ textsOf props := by
  induction blocks with
  | nil => exact absurd h List.not_mem_nil
  | cons first blocks ih =>
    rcases List.mem_append.mp h with h | h
    · exact ⟨first, List.mem_cons_self, h⟩
    · obtain ⟨props, hprops, hentry⟩ := ih h
      exact ⟨props, List.mem_cons_of_mem first hprops, hentry⟩

/-- The texts of a parsed value contain no quotes. -/
theorem unquoted_of_mem_texts {value : PropertyValue F} (hvalue : value.WellFormed) {key : String}
    (h : entry ∈ value.texts key) : Unquoted entry.2 := by
  induction hvalue generalizing key with
  | string htext =>
    cases List.mem_singleton.mp h
    exact htext
  | secret hname =>
    cases List.mem_singleton.mp h
    simpa [Unquoted] using hname
  | number _ => exact absurd h List.not_mem_nil
  | bool _ => exact absurd h List.not_mem_nil
  | block _ _ ih =>
    obtain ⟨p, hp, hentry⟩ := exists_of_mem_textsOf h
    exact ih p hp hentry
  | blocks _ _ ih =>
    obtain ⟨props, hprops, h⟩ := exists_of_mem_textsOfBlocks h
    obtain ⟨p, hp, hentry⟩ := exists_of_mem_textsOf h
    exact ih props hprops p hp hentry

/-- No backslash, and no end of a line. -/
def Literal (text : String) : Prop := ∀ c ∈ text.toList, c ≠ '\\' ∧ c ≠ '\n' ∧ c ≠ '\r'

theorem stringLiteral_literalOf_iff {text : String} (h : Unquoted text) :
    StringLiteral (literalOf text) text ↔ Literal text := by
  rw [literalOf, stringLiteral_self_iff]
  refine forall₂_congr fun c hc => ?_
  have hquote : c ≠ '"' := fun heq => h (heq ▸ hc)
  simp [PlainChar, hquote]

/-- **The strings that compilation keeps.** The compiler writes a literal for every string value and every
secret of a parsed file, and the literal stands for the text exactly when there are no backslashes and no
ends of lines in it; then it stands for no other text. -/
theorem literals_kept {env : SurfaceEnv F} {std : FloatEnv F} {builder : IriBuilder}
    {source path : String} {file : ParsedFile F} {result : CompileResult}
    (hparse : parse env source path = .ok file) (hcompile : compile std builder file = .ok result)
    {key text : String} (htext : (key, text) ∈ file.texts) :
    (∃ subject, .triple subject (predicateOf key) (literalOf text) ∈ result.lines) ∧
      (StringLiteral (literalOf text) text ↔ Literal text) ∧
      (Literal text → ∀ other, StringLiteral (literalOf text) other → other = text) := by
  obtain ⟨resource, hresource, htext⟩ := List.mem_flatMap.mp htext
  obtain ⟨p, hp, hentry⟩ := exists_of_mem_textsOf htext
  have hvalue := (wellFormed_of_parse hparse resource hresource).values p hp
  have hiff := stringLiteral_literalOf_iff (unquoted_of_mem_texts hvalue hentry)
  refine ⟨?_, hiff, fun hliteral other hother => hother.unique (hiff.mpr hliteral)⟩
  obtain ⟨iri, -, hlines⟩ := mem_lines hcompile hresource
  obtain ⟨subject, hsubject⟩ := exists_triple_properties std iri resource.properties htext
  exact ⟨subject, hlines _ (List.mem_append_left _ (List.mem_cons_of_mem _ hsubject))⟩

/-! ## A path with a backslash -/

/-- A product with a path in it. -/
def productWithPath : String :=
  "product \"shop\" \x7b\n  version = \"1\"\n  notes = \"C:\\new\"\n\x7d\n"

/-- The product is parsed and compiled. -/
theorem compile_productWithPath :
    ∃ file result, parse sampleSurface productWithPath "shop.picloud" = .ok file ∧
      compile sampleFloats ⟨"picloud.local"⟩ file = .ok result ∧
      file.texts = [("version", "1"), ("notes", "C:\\new")] := by
  have htexts : ((parse sampleSurface productWithPath "shop.picloud").toOption.map ParsedFile.texts) =
      some [("version", "1"), ("notes", "C:\\new")] := by decide +kernel
  have hcompiled : ((parse sampleSurface productWithPath "shop.picloud").bind fun file =>
      (compile sampleFloats ⟨"picloud.local"⟩ file).map CompileResult.declaredIris) =
        .ok ["https://picloud.local/products/shop"] := by decide +kernel
  cases hparse : parse sampleSurface productWithPath "shop.picloud" with
  | error e =>
    rw [hparse] at htexts
    cases htexts
  | ok file =>
    rw [hparse] at htexts hcompiled
    cases hcompile : compile sampleFloats ⟨"picloud.local"⟩ file with
    | error e =>
      rw [Except.bind, hcompile] at hcompiled
      cases hcompiled
    | ok result => exact ⟨file, result, rfl, hcompile, Option.some.inj htexts⟩

/-- The version is kept. -/
theorem literals_kept_version :
    ∃ file result, parse sampleSurface productWithPath "shop.picloud" = .ok file ∧
      compile sampleFloats ⟨"picloud.local"⟩ file = .ok result ∧ ("version", "1") ∈ file.texts ∧
      StringLiteral (literalOf "1") "1" := by
  obtain ⟨file, result, hparse, hcompile, htexts⟩ := compile_productWithPath
  have hmem : ("version", "1") ∈ file.texts := htexts ▸ List.mem_cons_self
  exact ⟨file, result, hparse, hcompile, hmem,
    (literals_kept hparse hcompile hmem).2.1.mpr (by unfold Literal; decide)⟩

/-- **The literal of the path stands for a text with the end of a line in it.** -/
theorem not_literals_kept :
    ∃ file result, parse sampleSurface productWithPath "shop.picloud" = .ok file ∧
      compile sampleFloats ⟨"picloud.local"⟩ file = .ok result ∧ ("notes", "C:\\new") ∈ file.texts ∧
      StringLiteral (literalOf "C:\\new") "C:\new" ∧ ¬ StringLiteral (literalOf "C:\\new") "C:\\new" := by
  obtain ⟨file, result, hparse, hcompile, htexts⟩ := compile_productWithPath
  have hread : StringLiteral (literalOf "C:\\new") "C:\new" := by
    refine ⟨"C:\\new".toList, by decide +kernel, ?_⟩
    refine .plain (by unfold PlainChar; decide) (.plain (by unfold PlainChar; decide) ?_)
    exact .escaped rfl (literalBody_self (by unfold PlainChar; decide))
  refine ⟨file, result, hparse, hcompile, htexts ▸ List.mem_cons_of_mem _ List.mem_cons_self, hread,
    fun h => ?_⟩
  exact absurd (hread.unique h) (by decide)

end Picloud
