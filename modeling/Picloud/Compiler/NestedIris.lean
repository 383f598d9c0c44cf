import Picloud.Compiler.Compile
import Picloud.Compiler.WellFormed
import Picloud.Lib.FilePaths
import Picloud.Lib.NameTree

/-!
# The IRIs of nested blocks

Each block continues the IRI of its parent by its name: the key for a block of its own, the key in the
plural and the name or number of the block for one of a collection. Read as paths, these are the paths of a
tree of named nodes, so that no two blocks have the same IRI exactly when no two blocks of one parent have
the same name, and no name that is the beginning of another is gone on with (`blocks_apart_iff`).
-/

namespace Picloud

open Lib

variable {F : Type}

/-! ## Blocks -/

mutual

/-- The IRIs of the blocks of a value, at any depth, one for each block in the order in which they are
compiled. -/
def PropertyValue.nestedIris (parent key : String) : PropertyValue F → List String
  | .block props => blockIri parent key props :: nestedIrisOf (blockIri parent key props) props
  | .blocks blocks => nestedIrisOfBlocks parent key 0 blocks
  | .string _ | .number _ | .bool _ | .secret _ => []

/-- The IRIs of the blocks of properties. -/
def nestedIrisOf (parent : String) : Properties F → List String
  | [] => []
  | ⟨key, value, _⟩ :: props => value.nestedIris parent key ++ nestedIrisOf parent props

/-- The IRIs of the blocks of a key, from a number on. -/
def nestedIrisOfBlocks (parent key : String) (i : ℕ) : List (Properties F) → List String
  | [] => []
  | props :: blocks =>
    keyedIri parent key (blockKey props i) ::
      nestedIrisOf (keyedIri parent key (blockKey props i)) props ++
        nestedIrisOfBlocks parent key (i + 1) blocks

end

/-- The resources of a file that was compiled, with their IRIs. -/
def compiledResources (file : ParsedFile F) (result : CompileResult) : List (String × Properties F) :=
  result.declaredIris.zip (file.resources.map ResourceDecl.properties)

/-- No two blocks of one resource, or of two resources with different IRIs, have the same IRI. -/
def BlocksApart (resources : List (String × Properties F)) : Prop :=
  (∀ r ∈ resources, (nestedIrisOf r.1 r.2).Nodup) ∧
    resources.Pairwise fun r r' => r.1 ≠ r'.1 → ∀ iri ∈ nestedIrisOf r.1 r.2, iri ∉ nestedIrisOf r'.1 r'.2

instance (resources : List (String × Properties F)) : Decidable (BlocksApart resources) :=
  inferInstanceAs (Decidable ((∀ r ∈ resources, (nestedIrisOf r.1 r.2).Nodup) ∧
    resources.Pairwise fun r r' =>
      r.1 ≠ r'.1 → ∀ iri ∈ nestedIrisOf r.1 r.2, iri ∉ nestedIrisOf r'.1 r'.2))

/-! ## What points to a block -/

section Pointers

variable (std : FloatEnv F) {iri : String}

mutual

/-- The compiler writes a triple that points to each block. -/
theorem exists_pointer_property (parent key : String) (value : PropertyValue F)
    (h : iri ∈ value.nestedIris parent key) :
    ∃ subject predicate, .triple subject predicate ("<" ++ iri ++ ">") ∈
      compileProperty std parent key value := by
  match value with
  | .string _ | .number _ | .bool _ | .secret _ => exact absurd h List.not_mem_nil
  | .block props =>
    rcases List.mem_cons.mp h with rfl | h
    · exact ⟨parent, predicateOf key, List.mem_cons_self⟩
    · obtain ⟨subject, predicate, hmem⟩ := exists_pointer_properties _ props h
      exact ⟨subject, predicate, List.mem_append_left _ (List.mem_append_right _ hmem)⟩
  | .blocks blocks => exact exists_pointer_blocks parent key 0 blocks h

theorem exists_pointer_properties (parent : String) (props : Properties F)
    (h : iri ∈ nestedIrisOf parent props) :
    ∃ subject predicate, .triple subject predicate ("<" ++ iri ++ ">") ∈
      compileProperties std parent props := by
  match props with
  | [] => exact absurd h List.not_mem_nil
  | ⟨key, value, line⟩ :: props =>
    rw [compileProperties]
    rcases List.mem_append.mp h with h | h
    · obtain ⟨subject, predicate, hmem⟩ := exists_pointer_property parent key value h
      exact ⟨subject, predicate, List.mem_append_left _ hmem⟩
    · obtain ⟨subject, predicate, hmem⟩ := exists_pointer_properties parent props h
      exact ⟨subject, predicate, List.mem_append_right _ hmem⟩

theorem exists_pointer_blocks (parent key : String) (i : ℕ) (blocks : List (Properties F))
    (h : iri ∈ nestedIrisOfBlocks parent key i blocks) :
    ∃ subject predicate, .triple subject predicate ("<" ++ iri ++ ">") ∈
      compileBlocks std parent key i blocks := by
  match blocks with
  | [] => exact absurd h List.not_mem_nil
  | props :: blocks =>
    rw [compileBlocks]
    rcases List.mem_append.mp h with h | h
    · rcases List.mem_cons.mp h with rfl | h
      · exact ⟨parent, predicateOf key, List.mem_append_left _ List.mem_cons_self⟩
      · obtain ⟨subject, predicate, hmem⟩ := exists_pointer_properties _ props h
        exact ⟨subject, predicate,
          List.mem_append_left _ (List.mem_append_left _ (List.mem_append_right _ hmem))⟩
    · obtain ⟨subject, predicate, hmem⟩ := exists_pointer_blocks parent key (i + 1) blocks h
      exact ⟨subject, predicate, List.mem_append_right _ hmem⟩

end

end Pointers

/-! ## Names -/

mutual

/-- The blocks of a value, with their names in parts. -/
def PropertyValue.blockTrees (key : String) : PropertyValue F → List (List String × NameTree String)
  | .block props =>
    [(if isCollectionType key then (key ++ "s") :: pathNames (blockKey props 0) else [key],
      .node (blockTreesOf props))]
  | .blocks blocks => blockTreesOfBlocks key 0 blocks
  | .string _ | .number _ | .bool _ | .secret _ => []

/-- The blocks of properties. -/
def blockTreesOf : Properties F → List (List String × NameTree String)
  | [] => []
  | ⟨key, value, _⟩ :: props => value.blockTrees key ++ blockTreesOf props

/-- The blocks of a key, from a number on. -/
def blockTreesOfBlocks (key : String) (i : ℕ) :
    List (Properties F) → List (List String × NameTree String)
  | [] => []
  | props :: blocks =>
    ((key ++ "s") :: pathNames (blockKey props i), .node (blockTreesOf props)) ::
      blockTreesOfBlocks key (i + 1) blocks

end

/-- A resource as a node, named by its IRI. -/
def resourceTree (r : String × Properties F) : List String × NameTree String :=
  (pathNames r.1, .node (blockTreesOf r.2))

variable {key : String} {r : String × Properties F}

theorem slash_notMem_of_isIdent (h : IsIdent key) : '/' ∉ key.toList := fun hmem =>
  absurd (h.2 '/' hmem) (by decide)

theorem pathNames_singletonIri {parent : String} (h : '/' ∉ key.toList) :
    pathNames (singletonIri parent key) = pathNames parent ++ [key] := by
  rw [singletonIri, pathNames_slash, pathNames_of_notMem h]

theorem pathNames_keyedIri {parent name : String} (h : '/' ∉ key.toList) :
    pathNames (keyedIri parent key name) = pathNames parent ++ (key ++ "s") :: pathNames name := by
  have hassoc : keyedIri parent key name = parent ++ "/" ++ (key ++ "s") ++ "/" ++ name := by
    refine String.toList_injective ?_
    simp [keyedIri]
  have hplural : '/' ∉ (key ++ "s").toList := by
    rw [String.toList_append, List.mem_append, not_or]
    exact ⟨h, by decide⟩
  rw [hassoc, pathNames_slash, pathNames_slash, pathNames_of_notMem hplural, List.append_assoc]
  rfl

theorem pathNames_ne_nil (text : String) : pathNames text ≠ [] := by
  simp [pathNames]

theorem pathsOf_append (cs ds : List (List String × NameTree String)) :
    NameTree.pathsOf (cs ++ ds) = NameTree.pathsOf cs ++ NameTree.pathsOf ds := by
  rw [NameTree.pathsOf_eq, NameTree.pathsOf_eq, NameTree.pathsOf_eq, List.flatMap_append]

/-- The paths of a block whose IRI continues the parent's by the name. -/
theorem map_pathNames_block {iri : String} {parent name : List String} {props : Properties F}
    (hiri : pathNames iri = parent ++ name)
    (hbody : (nestedIrisOf iri props).map pathNames =
      (NameTree.pathsOf (blockTreesOf props)).map (pathNames iri ++ ·)) :
    (iri :: nestedIrisOf iri props).map pathNames =
      (NameTree.pathsOf [(name, .node (blockTreesOf props))]).map (parent ++ ·) := by
  rw [List.map_cons, hbody, hiri]
  simp [NameTree.pathsOf, NameTree.paths]

mutual

/-- The IRIs of the blocks of a value are the paths of their trees. -/
theorem map_pathNames_nestedIris (value : PropertyValue F) (hvalue : value.WellFormed) {key : String}
    (hkey : IsIdent key) (parent : String) :
    (value.nestedIris parent key).map pathNames =
      (NameTree.pathsOf (value.blockTrees key)).map (pathNames parent ++ ·) := by
  match value with
  | .string _ | .number _ | .bool _ | .secret _ => rfl
  | .block props =>
    have hslash := slash_notMem_of_isIdent hkey
    refine map_pathNames_block ?_ (map_pathNames_nestedIrisOf props (wellFormed_of_block hvalue) _)
    rw [blockIri]
    split_ifs
    · exact pathNames_keyedIri hslash
    · exact pathNames_singletonIri hslash
  | .blocks blocks =>
    refine map_pathNames_nestedIrisOfBlocks blocks ?_ hkey parent 0
    cases hvalue with
    | blocks hkeys hvalues => exact fun props hprops => ⟨hkeys props hprops, hvalues props hprops⟩

theorem map_pathNames_nestedIrisOf (props : Properties F) (hprops : Properties.WellFormed props)
    (parent : String) :
    (nestedIrisOf parent props).map pathNames =
      (NameTree.pathsOf (blockTreesOf props)).map (pathNames parent ++ ·) := by
  match props with
  | [] => rfl
  | ⟨key, value, line⟩ :: props =>
    have hvalue := map_pathNames_nestedIris value (hprops.values _ List.mem_cons_self)
      (hprops.keys.ident _ List.mem_cons_self) parent
    have hrest := map_pathNames_nestedIrisOf props hprops.tail parent
    rw [nestedIrisOf, blockTreesOf, pathsOf_append, List.map_append, List.map_append, hvalue, hrest]

theorem map_pathNames_nestedIrisOfBlocks (blocks : List (Properties F))
    (hblocks : ∀ props ∈ blocks, Properties.WellFormed props) {key : String} (hkey : IsIdent key)
    (parent : String) (i : ℕ) :
    (nestedIrisOfBlocks parent key i blocks).map pathNames =
      (NameTree.pathsOf (blockTreesOfBlocks key i blocks)).map (pathNames parent ++ ·) := by
  match blocks with
  | [] => rfl
  | props :: blocks =>
    obtain ⟨hprops, hrest⟩ := List.forall_mem_cons.mp hblocks
    have hfirst := map_pathNames_block (pathNames_keyedIri (slash_notMem_of_isIdent hkey))
      (map_pathNames_nestedIrisOf props hprops (keyedIri parent key (blockKey props i)))
    have hpaths := pathsOf_append [((key ++ "s") :: pathNames (blockKey props i), .node (blockTreesOf props))]
      (blockTreesOfBlocks key (i + 1) blocks)
    rw [nestedIrisOfBlocks, blockTreesOfBlocks, ← List.singleton_append (l := blockTreesOfBlocks _ _ _),
      hpaths, List.map_append, List.map_append, hfirst,
      map_pathNames_nestedIrisOfBlocks blocks hrest hkey parent (i + 1)]

end

/-- The name of a node is not empty, nor are those below. -/
def NodeNamed (c : List String × NameTree String) : Prop := c.1 ≠ [] ∧ c.2.Named

theorem named_node {cs : List (List String × NameTree String)} (h : ∀ c ∈ cs, NodeNamed c) :
    (NameTree.node cs).Named :=
  .node (fun c hc => (h c hc).1) fun c hc => (h c hc).2

mutual

/-- No block has an empty name. -/
theorem named_blockTrees (value : PropertyValue F) (key : String) :
    ∀ c ∈ value.blockTrees key, NodeNamed c := by
  match value with
  | .string _ | .number _ | .bool _ | .secret _ => exact fun c hc => absurd hc List.not_mem_nil
  | .block props =>
    refine List.forall_mem_singleton.mpr ⟨?_, named_node (named_blockTreesOf props)⟩
    split_ifs
    · exact List.cons_ne_nil _ _
    · exact List.cons_ne_nil _ _
  | .blocks blocks => exact named_blockTreesOfBlocks blocks key 0

theorem named_blockTreesOf (props : Properties F) : ∀ c ∈ blockTreesOf props, NodeNamed c := by
  match props with
  | [] => exact fun c hc => absurd hc List.not_mem_nil
  | ⟨key, value, line⟩ :: props =>
    exact List.forall_mem_append.mpr ⟨named_blockTrees value key, named_blockTreesOf props⟩

theorem named_blockTreesOfBlocks (blocks : List (Properties F)) (key : String) (i : ℕ) :
    ∀ c ∈ blockTreesOfBlocks key i blocks, NodeNamed c := by
  match blocks with
  | [] => exact fun c hc => absurd hc List.not_mem_nil
  | props :: blocks =>
    exact List.forall_mem_cons.mpr ⟨⟨List.cons_ne_nil _ _, named_node (named_blockTreesOf props)⟩,
      named_blockTreesOfBlocks blocks key (i + 1)⟩

end

/-! ## When the blocks are apart -/

/-- The blocks of each parent have different names, and no name of a block, or IRI of a resource, that is
the beginning of another is gone on with below. -/
structure NamesClear (resources : List (String × Properties F)) : Prop where
  blocks : ∀ r ∈ resources, (resourceTree r).2.Clear
  resources : resources.Pairwise fun r r' => r.1 ≠ r'.1 →
    ¬ NameTree.Crosses (resourceTree r) (resourceTree r') (resourceTree r').2.paths ∧
      ¬ NameTree.Crosses (resourceTree r') (resourceTree r) (resourceTree r).2.paths

/-- The IRIs of a resource's blocks are different when the names are clear. -/
theorem nodup_nestedIrisOf_iff (h : Properties.WellFormed r.2) :
    (nestedIrisOf r.1 r.2).Nodup ↔ (resourceTree r).2.Clear := by
  rw [← List.nodup_map_iff pathNames_injective, map_pathNames_nestedIrisOf r.2 h,
    List.nodup_map_iff (List.append_right_injective _)]
  exact NameTree.nodup_paths_iff (named_node (named_blockTreesOf r.2))

theorem disjoint_nestedIrisOf_iff {r' : String × Properties F} (h : Properties.WellFormed r.2)
    (h' : Properties.WellFormed r'.2) (hne : r.1 ≠ r'.1) :
    (∀ iri ∈ nestedIrisOf r.1 r.2, iri ∉ nestedIrisOf r'.1 r'.2) ↔
      ¬ NameTree.Crosses (resourceTree r) (resourceTree r') (resourceTree r').2.paths ∧
        ¬ NameTree.Crosses (resourceTree r') (resourceTree r) (resourceTree r).2.paths := by
  rw [← NameTree.disjoint_iff_of_ne (fun heq => hne (pathNames_injective heq)) (fun _ _ => Iff.rfl)
    fun _ _ => Iff.rfl]
  have hpaths : (nestedIrisOf r.1 r.2).map pathNames =
      (resourceTree r).2.paths.map ((resourceTree r).1 ++ ·) := map_pathNames_nestedIrisOf r.2 h r.1
  have hpaths' : (nestedIrisOf r'.1 r'.2).map pathNames =
      (resourceTree r').2.paths.map ((resourceTree r').1 ++ ·) := map_pathNames_nestedIrisOf r'.2 h' r'.1
  rw [← hpaths, ← hpaths']
  constructor
  · exact fun hdisjoint => List.disjoint_map pathNames_injective fun iri hr hr' => hdisjoint iri hr hr'
  · exact fun hdisjoint iri hr hr' =>
      hdisjoint (List.mem_map_of_mem hr) (List.mem_map_of_mem hr')

theorem blocksApart_iff {resources : List (String × Properties F)}
    (h : ∀ r ∈ resources, Properties.WellFormed r.2) : BlocksApart resources ↔ NamesClear resources := by
  have hblocks : (∀ r ∈ resources, (nestedIrisOf r.1 r.2).Nodup) ↔
      ∀ r ∈ resources, (resourceTree r).2.Clear :=
    forall₂_congr fun r hr => nodup_nestedIrisOf_iff (h r hr)
  have hpairs : (resources.Pairwise fun r r' =>
      r.1 ≠ r'.1 → ∀ iri ∈ nestedIrisOf r.1 r.2, iri ∉ nestedIrisOf r'.1 r'.2) ↔
      resources.Pairwise fun r r' => r.1 ≠ r'.1 →
        ¬ NameTree.Crosses (resourceTree r) (resourceTree r') (resourceTree r').2.paths ∧
          ¬ NameTree.Crosses (resourceTree r') (resourceTree r) (resourceTree r).2.paths :=
    List.Pairwise.iff_of_mem fun {r r'} hr hr' =>
      imp_congr_right fun hne => disjoint_nestedIrisOf_iff (h r hr) (h r' hr') hne
  rw [BlocksApart, hblocks, hpairs]
  exact ⟨fun hall => ⟨hall.1, hall.2⟩, fun hall => ⟨hall.blocks, hall.resources⟩⟩

/-- A resource that was compiled is one of the file's. -/
theorem exists_of_mem_compiledResources {std : FloatEnv F} {builder : IriBuilder}
    {file : ParsedFile F} {result : CompileResult}
    (hcompile : compile std builder file = .ok result) (h : r ∈ compiledResources file result) :
    ∃ resource ∈ file.resources, resourceIri builder resource = .ok r.1 ∧ r.2 = resource.properties := by
  have hall := (compile_eq_ok.mp hcompile).1
  obtain ⟨i, hi, rfl⟩ := List.getElem_of_mem h
  rw [compiledResources, List.length_zip, List.length_map, Nat.lt_min] at hi
  refine ⟨file.resources.get ⟨i, hi.2⟩, List.getElem_mem _, ?_, ?_⟩
  · have hiri := (List.forall₂_iff_get.mp hall).2 i hi.2 hi.1
    simpa [compiledResources] using hiri
  · simp [compiledResources]

/-- **When nested blocks have IRIs of their own.** The compiler writes a triple that points to each block of
a parsed file, and no two blocks have the same IRI exactly when their names are clear. -/
theorem nestedIris_apart_iff {env : SurfaceEnv F} {std : FloatEnv F} {builder : IriBuilder}
    {source path : String} {file : ParsedFile F} {result : CompileResult}
    (hparse : parse env source path = .ok file) (hcompile : compile std builder file = .ok result) :
    (∀ r ∈ compiledResources file result, ∀ iri ∈ nestedIrisOf r.1 r.2,
      ∃ subject predicate, .triple subject predicate ("<" ++ iri ++ ">") ∈ result.lines) ∧
    (BlocksApart (compiledResources file result) ↔ NamesClear (compiledResources file result)) := by
  constructor
  · intro r hr iri hiri
    obtain ⟨resource, hmem, hresource, heq⟩ := exists_of_mem_compiledResources hcompile hr
    obtain ⟨own, hown, hlines⟩ := mem_lines hcompile hmem
    cases Except.ok.inj (hown.symm.trans hresource)
    obtain ⟨subject, predicate, hpointer⟩ := exists_pointer_properties std r.1 r.2 hiri
    rw [heq] at hpointer
    exact ⟨subject, predicate,
      hlines _ (List.mem_append_left _ (List.mem_cons_of_mem _ hpointer))⟩
  · refine blocksApart_iff fun r hr => ?_
    obtain ⟨resource, hmem, -, heq⟩ := exists_of_mem_compiledResources hcompile hr
    exact heq ▸ wellFormed_of_parse hparse resource hmem

/-! ## Two tags with the same key -/

/-- A container with a mount and two tags of the given keys. -/
def taggedContainer (first second : String) : String :=
  "container \"api\" \x7b\n  product = \"shop\"\n  mount \x7b volume = \"media\"; path = \"/data\" \x7d\n" ++
    "  tag \x7b key = \"" ++ first ++ "\"; value = \"a\" \x7d\n" ++
    "  tag \x7b key = \"" ++ second ++ "\"; value = \"b\" \x7d\n\x7d\n"

/-- What parsing and compiling a source finds out. -/
theorem exists_compiled (source : String) (apart : Bool)
    (h : ((parse sampleSurface source "api.picloud").bind fun file =>
      (compile sampleFloats ⟨"picloud.local"⟩ file).map fun result =>
        decide (BlocksApart (compiledResources file result))) = .ok apart) :
    ∃ file result, parse sampleSurface source "api.picloud" = .ok file ∧
      compile sampleFloats ⟨"picloud.local"⟩ file = .ok result ∧
      (BlocksApart (compiledResources file result) ↔ apart = true) := by
  cases hparse : parse sampleSurface source "api.picloud" with
  | error e =>
    rw [hparse] at h
    cases h
  | ok file =>
    rw [hparse, Except.bind] at h
    cases hcompile : compile sampleFloats ⟨"picloud.local"⟩ file with
    | error e =>
      rw [hcompile] at h
      cases h
    | ok result =>
      rw [hcompile] at h
      refine ⟨file, result, rfl, hcompile, ?_⟩
      rw [← Except.ok.inj h, decide_eq_true_eq]

/-- Tags with different keys. -/
theorem nestedIris_apart_iff_tags :
    ∃ file result, parse sampleSurface (taggedContainer "team" "tier") "api.picloud" = .ok file ∧
      compile sampleFloats ⟨"picloud.local"⟩ file = .ok result ∧
      BlocksApart (compiledResources file result) ∧ NamesClear (compiledResources file result) := by
  obtain ⟨file, result, hparse, hcompile, hiff⟩ :=
    exists_compiled (taggedContainer "team" "tier") true (by decide +kernel)
  have happart := hiff.mpr rfl
  exact ⟨file, result, hparse, hcompile, happart, (nestedIris_apart_iff hparse hcompile).2.mp happart⟩

/-- **Two tags with the same key are merged onto one subject.** -/
theorem not_nestedIris_apart :
    ∃ file result, parse sampleSurface (taggedContainer "team" "team") "api.picloud" = .ok file ∧
      compile sampleFloats ⟨"picloud.local"⟩ file = .ok result ∧
      ¬ BlocksApart (compiledResources file result) := by
  obtain ⟨file, result, hparse, hcompile, hiff⟩ :=
    exists_compiled (taggedContainer "team" "team") false (by decide +kernel)
  exact ⟨file, result, hparse, hcompile, fun happart => absurd (hiff.mp happart) Bool.false_ne_true⟩

end Picloud
