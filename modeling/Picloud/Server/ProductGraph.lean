import Mathlib.Data.List.Sort
import Picloud.Domain.Payload
import Picloud.Lib.JsonLines
import Picloud.Lib.Sparql

/-!
# The SPARQL endpoint of a product

Reference: `handle_graph` of `picloud-http`, and `query_product`, `execute_query` and
`execute_query_to_turtle` of `picloud-rdf`.

The text of a query is put into a `GRAPH` clause as it stands, and if Turtle is accepted it is first
run without this clause. The parser of SPARQL and the serialisers are parameters.
-/

namespace Picloud

open Lib Lib.Sparql

/-! ## Content types -/

/-- `ContentType`. -/
inductive GraphContentType where
  | json
  | jsonLd
  | turtle
deriving DecidableEq

/-- A media range that is known. -/
def GraphContentType.ofMedia (media : String) : Option GraphContentType :=
  if media = "text/turtle" then some .turtle
  else if media = "application/ld+json" then some .jsonLd
  else if media = "application/json" then some .json
  else none

/-- `ContentType::from_accept`: the first media range that is known. -/
def GraphContentType.fromAccept (accept : String) : GraphContentType :=
  let medias := (accept.toList.splitOn ',').map fun part =>
    String.ofList (trimChars (((trimChars part).splitOn ';').headD []))
  (medias.findSome? GraphContentType.ofMedia).getD .json

/-- `as_header_value`. -/
def GraphContentType.asHeaderValue : GraphContentType → String
  | .json => "application/json"
  | .turtle => "text/turtle"
  | .jsonLd => "application/ld+json"

/-! ## Requests and responses -/

/-- A request: the name in the path, the two headers that are read, as far as they are texts, and the
parameter. -/
structure GraphRequest where
  name : String
  accept : Option String
  authorization : Option String
  query : Option String

/-- A response: its status, the headers that are set, and its body. -/
structure GraphResponse where
  status : ℕ
  headers : List (String × String)
  body : String
deriving DecidableEq

/-- What the handler reads from the state of the server, and its libraries. -/
structure GraphServer where
  iris : IriBuilder
  /-- `validate_product_audience`, if there is an identity provider; a rejection is a response. -/
  validate : Option (GraphRequest → Option (Except GraphResponse Unit))
  hasProjector : Bool
  /-- The parser of SPARQL. -/
  parse : String → Except String Query
  /-- `serde_json::to_vec` of a value. -/
  jsonText : Json → String
  /-- `serde_json::to_string_pretty` of bindings. -/
  prettyText : List Json → String
  /-- The Turtle serialiser. -/
  turtleText : List Triple → Except String String

/-! ## Queries -/

/-- `term_to_json`. -/
def termToJson : Term → Json
  | .named n => .object [("type", .string "uri"), ("value", .string n.value)]
  | .blank id => .object [("type", .string "bnode"), ("value", .string id)]
  | .literal l => .object ([("type", .string "literal"), ("value", .string l.value)] ++
      match l.language with
      | some lang => [("xml:lang", .string lang)]
      | none => if l.datatype = "http://www.w3.org/2001/XMLSchema#string" then []
          else [("datatype", .string l.datatype)])
  | .triple text => .string text

/-- A solution as an object. -/
def rowToJson (names : List String) (row : Row) : Json :=
  .object (names.filterMap fun name => (row.get name).map fun t => (name, termToJson t))

/-- A triple as an object. -/
def tripleToJson (t : Triple) : Json :=
  .object [("subject", termToJson t.subject.toTerm), ("predicate", termToJson (.named t.predicate)),
    ("object", termToJson t.object)]

/-- What an error of the evaluation is reported as. -/
def evaluationError (form : QueryForm) (e : String) : PiCloudError :=
  .internal (match form with
    | .select _ => "solution error: " ++ e
    | .ask => "SPARQL query failed: " ++ e
    | .construct _ => "graph triple error: " ++ e
    | .describe _ => "graph triple error: " ++ e)

/-- `self.store.query(sparql)`, with the results that are drawn from it. -/
def runQuery (srv : GraphServer) (store : Store) (sparql : String) :
    Except PiCloudError Lib.Sparql.QueryResults :=
  match srv.parse sparql with
  | .error e => .error (.internal ("SPARQL query failed: " ++ e))
  | .ok q => (q.eval store).mapError (evaluationError q.form)

/-- The bindings of results. -/
def bindingsOf : Lib.Sparql.QueryResults → List Json
  | .solutions names rows => rows.map (rowToJson names)
  | .boolean value => [.object [("result", .bool value)]]
  | .graph triples => triples.map tripleToJson

/-- `execute_query`. -/
def executeQuery (srv : GraphServer) (store : Store) (sparql : String) :
    Except PiCloudError (List Json) :=
  (runQuery srv store sparql).map bindingsOf

/-- `query_turtle`, which is `execute_query_to_turtle`. -/
def queryTurtle (srv : GraphServer) (store : Store) (sparql : String) :
    Except PiCloudError String :=
  match runQuery srv store sparql with
  | .error e => .error e
  | .ok (.graph triples) => (srv.turtleText triples).mapError fun e =>
      .internal ("turtle serialize error: " ++ e)
  | .ok _ => (executeQuery srv store sparql).map srv.prettyText

/-- The text that `query_product` runs. -/
def wrappedQuery (productIri sparql : String) : String :=
  "SELECT * WHERE \x7b GRAPH <" ++ productIri ++ "/graph> \x7b " ++ sparql ++ " \x7d \x7d"

/-- `query_product`. -/
def queryProduct (srv : GraphServer) (store : Store) (productIri sparql : String) :
    Except PiCloudError (List Json) :=
  executeQuery srv store (wrappedQuery productIri sparql)

/-! ## The handler -/

/-- `resource_response`. -/
def resourceResponse (srv : GraphServer) (body : Json) (ct : GraphContentType) : GraphResponse :=
  ⟨200, [("content-type", ct.asHeaderValue)], srv.jsonText body⟩

/-- The response without a bearer token. -/
def authenticationRequired (srv : GraphServer) : GraphResponse :=
  ⟨401, [("www-authenticate", "Bearer realm=\"picloud\""), ("content-type", "application/json")],
    srv.jsonText (.object
      [("error", .string "authentication required for product SPARQL endpoint")])⟩

/-- The response to a query in the graph of the product. -/
def productResponse (srv : GraphServer) (store : Store) (name sparql : String)
    (ct : GraphContentType) : GraphResponse :=
  match queryProduct srv store (srv.iris.product name) sparql with
  | .ok bindings => resourceResponse srv (.object [("@id", .string (srv.iris.productGraph name)),
      ("type", .string "SparqlResult"), ("product", .string name), ("results", .array bindings)]) ct
  | .error e => resourceResponse srv (.object [("@id", .string (srv.iris.productGraph name)),
      ("type", .string "SparqlError"), ("error", .string e.display)]) ct

/-- `handle_graph` after the authentication. -/
def answerGraph (srv : GraphServer) (store : Store) (req : GraphRequest) : GraphResponse :=
  let ct := (req.accept.map GraphContentType.fromAccept).getD .json
  let id := Json.string (srv.iris.productGraph req.name)
  match req.query.filter (· ≠ "") with
  | some sparql =>
    if srv.hasProjector then
      match ct, queryTurtle srv store sparql with
      | .turtle, .ok turtle => ⟨200, [("content-type", "text/turtle; charset=utf-8")], turtle⟩
      | _, _ => productResponse srv store req.name sparql ct
    else resourceResponse srv (.object [("@id", id), ("type", .string "SparqlEndpoint"),
      ("error", .string "projector not available")]) ct
  | none => resourceResponse srv (.object [("@id", id), ("type", .string "SparqlEndpoint"),
      ("product", .string req.name),
      ("hint", .string "Provide a ?query= parameter with a SPARQL query")]) ct

/-- `handle_graph`. -/
def handleGraph (srv : GraphServer) (store : Store) (req : GraphRequest) : GraphResponse :=
  match srv.validate with
  | none => answerGraph srv store req
  | some validate =>
    match validate req with
    | some (.ok ()) => answerGraph srv store req
    | some (.error rejection) => rejection
    | none => authenticationRequired srv

/-! ## Bindings -/

/-- The entry of a name in an object that is made from some names. -/
theorem lookup_filterMap {α : Type*} (f : String → Option α) (g : α → Json) {names : List String}
    {name : String} (h : name ∈ names) :
    (names.filterMap fun n => (f n).map fun a => (n, g a)).lookup name = (f name).map g := by
  induction names with
  | nil => cases h
  | cons n names ih =>
    by_cases hn : name = n
    · subst hn
      cases hf : f name with
      | some a => simp [hf]
      | none =>
        -- another entry of the name would come from the same value
        rw [List.filterMap_cons_none (by rw [hf]; rfl)]
        by_cases hmem : name ∈ names
        · rw [ih hmem, hf]
        · rw [Option.map_none, List.lookup_eq_none_iff]
          intro p hp
          obtain ⟨m, hm, hmp⟩ := List.mem_filterMap.mp hp
          obtain ⟨a, -, rfl⟩ := Option.map_eq_some_iff.mp hmp
          simpa using fun heq : name = m => hmem (heq ▸ hm)
    · have hrest := ih ((List.mem_cons.mp h).resolve_left hn)
      cases hf : f n with
      | some a => simpa [hf, List.lookup_cons, beq_false_of_ne hn] using hrest
      | none => simpa [hf] using hrest

/-- The binding of a variable in a solution. -/
theorem get?_rowToJson {names : List String} {name : String} (h : name ∈ names) (row : Row) :
    (rowToJson names row).get? name = (row.get name).map termToJson := by
  rw [rowToJson, Json.get?]
  exact lookup_filterMap row.get termToJson h

/-! ## Solutions -/

/-- The solutions of a SELECT query; there are none if it fails. -/
def rowsOf (srv : GraphServer) (store : Store) (text : String) : List Row :=
  match runQuery srv store text with
  | .ok (.solutions _ rows) => rows
  | _ => []

/-- The text that is seen of the value of a variable: only a quoted triple is written as a text. -/
def shownText (row : Row) (name : String) : Option String :=
  (row.get name).bind fun t => (termToJson t).asStr

/-- SPARQL reads the text, if at all, as a selection of these variables. -/
def Selects (srv : GraphServer) (text : String) (vars : List String) : Prop :=
  ∀ q, srv.parse text = .ok q → ∃ names, q.form = .select names ∧ vars ⊆ names

section Solutions

variable {srv : GraphServer} {store : Store} {names : List String}

/-- The bindings of a SELECT query are its solutions. -/
theorem executeQuery_cases {text : String} (h : Selects srv text names) :
    (∃ e, executeQuery srv store text = .error e ∧ rowsOf srv store text = []) ∨
      ∃ names', names ⊆ names' ∧
        executeQuery srv store text = .ok ((rowsOf srv store text).map (rowToJson names')) := by
  unfold executeQuery rowsOf runQuery
  cases hparse : srv.parse text with
  | error e => exact Or.inl ⟨_, rfl, rfl⟩
  | ok q =>
    obtain ⟨names', hform, hnames⟩ := h q hparse
    dsimp only
    rw [Query.eval, hform]
    cases q.pattern.eval (datasetOf store q.dataset) (datasetOf store q.dataset).default [] with
    | error e => exact Or.inl ⟨_, rfl, rfl⟩
    | ok rows => exact Or.inr ⟨names', hnames, rfl⟩

/-- The bindings of a SELECT query over the whole store, whose pattern has these solutions. -/
theorem executeQuery_rows {text : String} {pattern : GraphPattern} {rows : List Row}
    (hparse : srv.parse text = .ok ⟨none, pattern, .select names⟩)
    (hrows : pattern.eval (datasetOf store none) (triplesIn store .default) [] = .ok rows) :
    executeQuery srv store text = .ok (rows.map (rowToJson names)) := by
  rw [executeQuery, runQuery, hparse]
  dsimp only
  rw [Query.eval]
  change Except.map bindingsOf (Except.mapError _ ((pattern.eval (datasetOf store none)
    (triplesIn store .default) []).bind _)) = _
  rw [hrows]
  rfl

/-- Of a value a reader of texts sees what is written as a text. -/
theorem shown_of_rowToJson {name : String} (h : name ∈ names) (row : Row) :
    ((rowToJson names row).get? name).bind Json.asStr = shownText row name := by
  rw [get?_rowToJson h, Option.bind_map]
  rfl

theorem shownText_eq_some {row : Row} {name text : String} (h : shownText row name = some text) :
    row.get name = some (.triple text) := by
  obtain ⟨t, ht, htext⟩ := Option.bind_eq_some_iff.mp h
  rw [ht]
  cases t with
  | triple text' =>
    cases htext
    rfl
  | named n => cases htext
  | blank id => cases htext
  | literal l => cases htext

end Solutions

/-! ## What is claimed, and when it holds -/

/-- The named graph of a product. -/
def productGraphNode (srv : GraphServer) (name : String) : NamedNode := ⟨srv.iris.productGraph name⟩

/-- What is claimed of a request: on stores that agree on the graph of the product the response is
the same. -/
def RevealsOnlyProduct (srv : GraphServer) (req : GraphRequest) : Prop :=
  ∀ store store', triplesIn store (.named (productGraphNode srv req.name)) =
      triplesIn store' (.named (productGraphNode srv req.name)) →
    handleGraph srv store req = handleGraph srv store' req

/-- A text that is no query, or a query that looks into one graph only. -/
def ReadsOnlyText (srv : GraphServer) (g : NamedNode) (sparql : String) : Prop :=
  ∀ q, srv.parse sparql = .ok q → q.ReadsOnly g

/-- The request is not refused. -/
def Admits (srv : GraphServer) (req : GraphRequest) : Prop :=
  ∀ validate, srv.validate = some validate → validate req = some (.ok ())

/-- If the request is answered from the store, the query in its clause looks into the graph of the product
only; and if Turtle is accepted so does the query itself. -/
def StaysInProduct (srv : GraphServer) (req : GraphRequest) : Prop :=
  Admits srv req → srv.hasProjector = true → ∀ sparql, req.query.filter (· ≠ "") = some sparql →
    ReadsOnlyText srv (productGraphNode srv req.name)
      (wrappedQuery (srv.iris.product req.name) sparql) ∧
    (req.accept.map GraphContentType.fromAccept = some .turtle →
      ReadsOnlyText srv (productGraphNode srv req.name) sparql)

section Congruence

variable {srv : GraphServer} {store store' : Store} {g : NamedNode} {sparql : String}

theorem runQuery_congr (h : ReadsOnlyText srv g sparql)
    (hg : triplesIn store (.named g) = triplesIn store' (.named g)) :
    runQuery srv store sparql = runQuery srv store' sparql := by
  unfold runQuery
  cases hparse : srv.parse sparql with
  | error e => rfl
  | ok q =>
    dsimp only
    rw [Query.eval_congr (h q hparse) hg]

theorem queryTurtle_congr (h : ReadsOnlyText srv g sparql)
    (hg : triplesIn store (.named g) = triplesIn store' (.named g)) :
    queryTurtle srv store sparql = queryTurtle srv store' sparql := by
  unfold queryTurtle executeQuery
  rw [runQuery_congr h hg]

theorem productResponse_congr {name : String} {ct : GraphContentType}
    (h : ReadsOnlyText srv g (wrappedQuery (srv.iris.product name) sparql))
    (hg : triplesIn store (.named g) = triplesIn store' (.named g)) :
    productResponse srv store name sparql ct = productResponse srv store' name sparql ct := by
  unfold productResponse queryProduct executeQuery
  rw [runQuery_congr h hg]

/-- What is answered after the authentication. -/
theorem answerGraph_congr {req : GraphRequest} (hadmits : Admits srv req) (h : StaysInProduct srv req)
    (hg : triplesIn store (.named (productGraphNode srv req.name)) =
      triplesIn store' (.named (productGraphNode srv req.name))) :
    answerGraph srv store req = answerGraph srv store' req := by
  unfold answerGraph
  cases hquery : req.query.filter (· ≠ "") with
  | none => rfl
  | some sparql =>
    dsimp only
    split
    case isFalse => rfl
    case isTrue hprojector =>
      obtain ⟨hwrapped, hturtle⟩ := h hadmits hprojector sparql hquery
      rw [productResponse_congr hwrapped hg]
      cases hct : (req.accept.map GraphContentType.fromAccept).getD .json with
      | json => rfl
      | jsonLd => rfl
      | turtle =>
        have haccept : req.accept.map GraphContentType.fromAccept = some .turtle := by
          cases haccept : req.accept.map GraphContentType.fromAccept with
          | none => rw [haccept] at hct; cases hct
          | some ct => rw [haccept] at hct; exact congrArg some hct
        rw [queryTurtle_congr (hturtle haccept) hg]

/-- **A request that is refused, or not answered from the store, or whose queries look into the graph of the
product only, reveals nothing else.** -/
theorem reveals_only_product (srv : GraphServer) (req : GraphRequest)
    (h : StaysInProduct srv req) : RevealsOnlyProduct srv req := by
  intro store store' hg
  unfold handleGraph
  cases hvalidate : srv.validate with
  | none => exact answerGraph_congr (fun _ hsome => by rw [hvalidate] at hsome; cases hsome) h hg
  | some validate =>
    dsimp only
    cases hresult : validate req with
    | none => rfl
    | some result =>
      cases result with
      | error rejection => rfl
      | ok u =>
        refine answerGraph_congr (fun other hsome => ?_) h hg
        obtain rfl := Option.some.inj (hvalidate.symm.trans hsome)
        exact hresult

end Congruence

/-! ## A server that runs -/

mutual

/-- The compact text of a value without numbers and escapes, with the keys in order. -/
def compactText : Json → String
  | .null => "null"
  | .bool b => toString b
  | .number _ => ""
  | .string s => "\"" ++ s ++ "\""
  | .array items => "[" ++ ",".intercalate (compactItems items) ++ "]"
  | .object fields => "\x7b" ++ ",".intercalate
      (((compactFields fields).insertionSort fun a b => a.1.toList ≤ b.1.toList).map fun field =>
        "\"" ++ field.1 ++ "\":" ++ field.2) ++ "\x7d"

/-- The texts of the items of an array. -/
def compactItems : List Json → List String
  | [] => []
  | item :: items => compactText item :: compactItems items

/-- The texts of the values of an object. -/
def compactFields : List (String × Json) → List (String × String)
  | [] => []
  | (key, value) :: fields => (key, compactText value) :: compactFields fields

end

/-- The text of the result of an `ASK`, over several lines. -/
def prettyAnswer : List Json → String
  | [.object [("result", .bool value)]] =>
    "[\n  \x7b\n    \"result\": " ++ toString value ++ "\n  \x7d\n]"
  | _ => "[]"

/-- The pattern `?s ?p ?o`. -/
def everyTriple : GraphPattern :=
  .basic fun row triples => triples.filterMap fun t => merge row
    [("s", t.subject.toTerm), ("p", .named t.predicate), ("o", t.object)]

/-- The cluster of the samples. -/
def shopIris : IriBuilder := ⟨"picloud.local"⟩

/-- The graph of the sample product. -/
def shopGraph : NamedNode := ⟨shopIris.productGraph "shop"⟩

/-- Asks for the triples of the default graph. -/
def askText : String := "ASK \x7b ?s ?p ?o \x7d"

/-- A pattern, as the comment of the source expects it. -/
def patternText : String := "?s ?p ?o"

/-- Closes the clause and opens another group. -/
def closingText : String := "\x7d ?s ?p ?o \x7b"

/-- The three texts that are run, as a parser of SPARQL reads them. -/
def parseSample (text : String) : Except String Query :=
  if text = askText then .ok ⟨none, everyTriple, .ask⟩
  else if text = wrappedQuery (shopIris.product "shop") patternText then
    .ok ⟨none, .graph (.iri shopGraph) everyTriple, .select ["s", "p", "o"]⟩
  else if text = wrappedQuery (shopIris.product "shop") closingText then
    .ok ⟨none, .join (.join (.graph (.iri shopGraph) (.values [[]])) everyTriple) (.values [[]]),
      .select ["s", "p", "o"]⟩
  else .error "no sample"

/-- A server without an identity provider. -/
def shopServer : GraphServer where
  iris := shopIris
  validate := none
  hasProjector := true
  parse := parseSample
  jsonText := compactText
  prettyText := prettyAnswer
  turtleText := fun _ => .ok ""

/-- A request for the sample product. -/
def shopRequest (accept sparql : String) : GraphRequest := ⟨"shop", some accept, none, some sparql⟩

/-- A fact about another product, in the default graph. -/
def otherFact : Quad :=
  ⟨.named ⟨"https://picloud.local/products/bank"⟩, ⟨"https://picloud.dev/ontology#status"⟩,
    .literal ⟨"failed", "http://www.w3.org/2001/XMLSchema#string", none⟩, .default⟩

theorem parseSample_pattern : parseSample (wrappedQuery (shopIris.product "shop") patternText) =
    .ok ⟨none, .graph (.iri shopGraph) everyTriple, .select ["s", "p", "o"]⟩ := by
  have hask : wrappedQuery (shopIris.product "shop") patternText ≠ askText := by decide +kernel
  rw [parseSample, if_neg hask, if_pos rfl]

/-- A pattern stays in the graph of the product. -/
theorem reveals_only_product_pattern :
    RevealsOnlyProduct shopServer (shopRequest "application/json" patternText) := by
  refine reveals_only_product shopServer _ fun _ _ sparql hsparql => ?_
  obtain rfl : patternText = sparql := Option.some.inj (Option.filter_eq_some_iff.mp hsparql).1
  have hct : GraphContentType.fromAccept "application/json" ≠ .turtle := by decide +kernel
  refine ⟨fun q hq => ?_, fun haccept => absurd (Option.some.inj haccept) hct⟩
  obtain rfl := Except.ok.inj (parseSample_pattern.symm.trans hq)
  exact ⟨⟨rfl, rfl⟩, fun build h => nomatch h⟩

/-- **A caller who accepts Turtle, or whose text closes the clause, learns what the default graph
holds.** -/
theorem reveals_other_graphs :
    ¬ RevealsOnlyProduct shopServer (shopRequest "text/turtle" askText) ∧
    ¬ RevealsOnlyProduct shopServer (shopRequest "application/json" closingText) := by
  have hagree : triplesIn [] (.named (productGraphNode shopServer "shop")) =
      triplesIn [otherFact] (.named (productGraphNode shopServer "shop")) := by decide +kernel
  constructor
  · intro h
    have hdiffers : handleGraph shopServer [] (shopRequest "text/turtle" askText) ≠
        handleGraph shopServer [otherFact] (shopRequest "text/turtle" askText) := by decide +kernel
    exact hdiffers (h [] [otherFact] hagree)
  · intro h
    have hdiffers : handleGraph shopServer [] (shopRequest "application/json" closingText) ≠
        handleGraph shopServer [otherFact] (shopRequest "application/json" closingText) := by
      decide +kernel
    exact hdiffers (h [] [otherFact] hagree)

end Picloud
