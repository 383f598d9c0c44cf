import Picloud.Server.ProductGraph

/-!
# The SPARQL endpoint of the cluster

Reference: `handle_cluster_graph` of `picloud-http/src/implementation.rs`, and `execute_query` of `picloud-rdf`.

The projector writes the result of an `ASK` as one binding. The handler guesses from the text whether a query is
an `ASK`, and then looks only whether there are bindings, so it says yes whatever the result is.
-/

namespace Picloud

open Lib Lib.Sparql

/-! ## The guess -/

/-- The text begins like a declaration of the prologue. -/
def StartsPrologue (body : List Char) : Prop := "PREFIX".toList <+: body ∨ "BASE".toList <+: body

instance (body : List Char) : Decidable (StartsPrologue body) := inferInstanceAs (Decidable (_ ∨ _))

/-- The text from its first line break on. -/
def fromLineBreak (body : List Char) : List Char := body.dropWhile (· ≠ '\n')

theorem length_fromLineBreak_lt {body : List Char} (h : StartsPrologue body) :
    ((fromLineBreak body).dropWhile isWhitespace).length < body.length := by
  obtain ⟨c, rest, rfl, hc⟩ : ∃ c rest, body = c :: rest ∧ c ≠ '\n' := by
    rcases h with ⟨rest, rfl⟩ | ⟨rest, rfl⟩
    · exact ⟨'P', "REFIX".toList ++ rest, rfl, by decide⟩
    · exact ⟨'B', "ASE".toList ++ rest, rfl, by decide⟩
  have hfirst : fromLineBreak (c :: rest) = fromLineBreak rest := by
    rw [fromLineBreak, List.dropWhile_cons_of_pos (by simpa using hc), fromLineBreak]
  have hdrop := ((fromLineBreak rest).dropWhile_suffix isWhitespace).length_le
  have hbreak := (rest.dropWhile_suffix (· ≠ '\n')).length_le
  rw [hfirst, List.length_cons]
  have hle : (fromLineBreak rest).length ≤ rest.length := hbreak
  omega

/-- The loop that strips the declarations: each up to the next line break. -/
def stripPrologue (body : List Char) : List Char :=
  if StartsPrologue body then
    if '\n' ∈ body then stripPrologue ((fromLineBreak body).dropWhile isWhitespace) else body
  else body
termination_by body.length
decreasing_by exact length_fromLineBreak_lt ‹_›

/-- `is_ask`. -/
def looksLikeAsk (toUppercase : String → String) (sparql : String) : Bool :=
  decide ("ASK".toList <+: stripPrologue (toUppercase (trim sparql)).toList)

/-! ## The handler -/

/-- An answer, before it is written. -/
inductive ClusterAnswer where
  | turtle (text : String)
  | json (value : Json)
deriving DecidableEq

/-- The answer to an `ASK`. -/
def askAnswer (value : Bool) : Json := .object [("type", .string "SparqlResult"), ("boolean", .bool value)]

/-- The answer to another query. -/
def resultsAnswer (bindings : List Json) : Json :=
  .object [("type", .string "SparqlResult"), ("results", .array bindings)]

section Handler

variable (srv : GraphServer) (toUppercase : String → String) (store : Store)

/-- The answer of `handle_cluster_graph` in JSON. -/
def clusterJson (sparql : String) : Json :=
  match executeQuery srv store sparql with
  | .ok bindings =>
    if looksLikeAsk toUppercase sparql then askAnswer !bindings.isEmpty else resultsAnswer bindings
  | .error e => .object [("type", .string "SparqlError"), ("error", .string e.display)]

/-- `content_type_from_headers`. -/
def acceptedType (accept : Option String) : GraphContentType := (accept.map GraphContentType.fromAccept).getD .json

/-- The answer of `handle_cluster_graph` to a request with this header and this parameter. -/
def clusterAnswer (accept query : Option String) : ClusterAnswer :=
  match query.filter (· ≠ "") with
  | some sparql =>
    if srv.hasProjector then
      match acceptedType accept, queryTurtle srv store sparql with
      | .turtle, .ok turtle => .turtle turtle
      | _, _ => .json (clusterJson srv toUppercase store sparql)
    else .json (.object [("type", .string "SparqlEndpoint"), ("error", .string "projector not available")])
  | none => .json (.object [("type", .string "SparqlEndpoint"),
      ("hint", .string "Provide a ?query= parameter with a SPARQL query")])

/-- `handle_cluster_graph`. -/
def handleClusterGraph (accept query : Option String) : GraphResponse :=
  match clusterAnswer srv toUppercase store accept query with
  | .turtle text => ⟨200, [("content-type", "text/turtle; charset=utf-8")], text⟩
  | .json value => resourceResponse srv value (acceptedType accept)

/-! ## What is claimed, and when it holds -/

/-- An `ASK` is answered with its value, and no other query in this form. -/
def AnswersAsk (sparql : String) : Prop :=
  ∀ accept answer, clusterAnswer srv toUppercase store accept (some sparql) = .json answer →
    ∀ q, srv.parse sparql = .ok q →
      (q.form = .ask → ∀ b, q.eval store = .ok (.boolean b) → answer = askAnswer b) ∧
      (q.form ≠ .ask → ∀ b, answer ≠ askAnswer b)

/-- An `ASK` is taken for one, and the answer is yes; no other query that has a result is taken for one. -/
def GuessedRight (sparql : String) : Prop :=
  ∀ q, srv.parse sparql = .ok q →
    (q.form = .ask → ∀ b, q.eval store = .ok (.boolean b) → looksLikeAsk toUppercase sparql = true ∧ b = true) ∧
    (q.form ≠ .ask → ∀ r, q.eval store = .ok r → looksLikeAsk toUppercase sparql = false)

end Handler

/-! ## Layouts -/

section Layouts

variable {line rest : List Char}

/-- Declarations on the line of the query are not. -/
theorem stripPrologue_of_notMem (h : '\n' ∉ line) : stripPrologue line = line := by
  rw [stripPrologue]
  split_ifs <;> rfl

end Layouts

/-! ## The exact condition -/

section Exact

variable {srv : GraphServer} {toUppercase : String → String} {store : Store} {sparql : String} {q : Query}

theorem askAnswer_injective : Function.Injective askAnswer := by
  intro a b h
  simpa [askAnswer] using h

theorem resultsAnswer_ne_askAnswer (bindings : List Json) (b : Bool) : resultsAnswer bindings ≠ askAnswer b := by
  simp [resultsAnswer, askAnswer]

/-- An `ASK` has one binding. -/
theorem clusterJson_of_ask {b : Bool} (hparse : srv.parse sparql = .ok q) (heval : q.eval store = .ok (.boolean b)) :
    clusterJson srv toUppercase store sparql = if looksLikeAsk toUppercase sparql then askAnswer true
      else resultsAnswer [.object [("result", .bool b)]] := by
  simp only [clusterJson, executeQuery, runQuery, hparse, heval]
  rfl

theorem clusterJson_of_result {r : Lib.Sparql.QueryResults} (hparse : srv.parse sparql = .ok q) (heval : q.eval store = .ok r) :
    clusterJson srv toUppercase store sparql = if looksLikeAsk toUppercase sparql then
      askAnswer !(bindingsOf r).isEmpty else resultsAnswer (bindingsOf r) := by
  simp only [clusterJson, executeQuery, runQuery, hparse, heval]
  rfl

theorem clusterJson_of_error {e : String} (hparse : srv.parse sparql = .ok q) (heval : q.eval store = .error e)
    (b : Bool) : clusterJson srv toUppercase store sparql ≠ askAnswer b := by
  simp only [clusterJson, executeQuery, runQuery, hparse, heval]
  simp [askAnswer, Except.map, Except.mapError]

theorem filter_query (hsparql : sparql ≠ "") : (some sparql).filter (· ≠ "") = some sparql :=
  if_pos (decide_eq_true hsparql)

/-- What is answered in JSON is one answer, whatever is accepted. -/
theorem clusterAnswer_json (hprojector : srv.hasProjector = true) (hsparql : sparql ≠ "") {accept : Option String}
    {answer : Json} (h : clusterAnswer srv toUppercase store accept (some sparql) = .json answer) :
    answer = clusterJson srv toUppercase store sparql := by
  rw [clusterAnswer, filter_query hsparql] at h
  dsimp only at h
  rw [if_pos hprojector] at h
  split at h
  · cases h
  · exact (ClusterAnswer.json.inj h).symm

theorem clusterAnswer_none (hprojector : srv.hasProjector = true) (hsparql : sparql ≠ "") :
    clusterAnswer srv toUppercase store none (some sparql) = .json (clusterJson srv toUppercase store sparql) := by
  rw [clusterAnswer, filter_query hsparql]
  dsimp only
  rw [if_pos hprojector]
  rfl

/-- **The answers to `ASK` queries are true exactly when the text is guessed right and the answer is yes.** -/
theorem answersAsk_iff (hprojector : srv.hasProjector = true) (hsparql : sparql ≠ "") :
    AnswersAsk srv toUppercase store sparql ↔ GuessedRight srv toUppercase store sparql := by
  constructor
  · intro h q hparse
    obtain ⟨hask, hother⟩ := h none _ (clusterAnswer_none hprojector hsparql) q hparse
    refine ⟨fun hform b heval => ?_, fun hform r heval => ?_⟩
    · have hanswer := hask hform b heval
      rw [clusterJson_of_ask hparse heval] at hanswer
      split_ifs at hanswer with hlooks
      · exact ⟨hlooks, (askAnswer_injective hanswer).symm⟩
      · exact absurd hanswer (resultsAnswer_ne_askAnswer _ b)
    · rw [← Bool.not_eq_true]
      intro hlooks
      refine hother hform (!(bindingsOf r).isEmpty) ?_
      rw [clusterJson_of_result hparse heval, if_pos hlooks]
  · intro h accept answer hanswer q hparse
    obtain ⟨hask, hother⟩ := h q hparse
    rw [clusterAnswer_json hprojector hsparql hanswer]
    refine ⟨fun hform b heval => ?_, fun hform b => ?_⟩
    · obtain ⟨hlooks, rfl⟩ := hask hform b heval
      rw [clusterJson_of_ask hparse heval, if_pos hlooks]
    · cases heval : q.eval store with
      | error e => exact clusterJson_of_error hparse heval b
      | ok r =>
        rw [clusterJson_of_result hparse heval, if_neg (by simp [hother hform r heval])]
        exact resultsAnswer_ne_askAnswer _ b

end Exact

/-! ## A graph with a triple, and one without -/

/-- A server that reads every text as the question whether there is a triple. -/
def askServer : GraphServer := { shopServer with parse := fun _ => .ok ⟨none, everyTriple, .ask⟩ }

/-- A triple in the default graph. -/
def oneTriple : Store := [otherFact]

/-- In a graph with a triple the answer is true. -/
theorem answersAsk_oneTriple : AnswersAsk askServer String.toUpper oneTriple askText := by
  refine (answersAsk_iff rfl (by decide)).mpr fun q hq => ?_
  cases hq
  have hlooks : looksLikeAsk String.toUpper askText = true := by
    have hbreak : '\n' ∉ (String.toUpper (trim askText)).toList := by decide +kernel
    rw [looksLikeAsk, stripPrologue_of_notMem hbreak]
    decide +kernel
  refine ⟨fun _ b heval => ⟨hlooks, ?_⟩, fun hform => absurd rfl hform⟩
  have hvalue : Query.eval oneTriple ⟨none, everyTriple, .ask⟩ = .ok (.boolean true) := rfl
  rw [hvalue] at heval
  cases heval
  rfl

/-- In an empty graph the value is no, and the answer is yes. -/
theorem not_answersAsk_empty :
    Query.eval [] ⟨none, everyTriple, .ask⟩ = .ok (.boolean false) ∧
    clusterAnswer askServer String.toUpper [] none (some askText) = .json (askAnswer true) ∧
    ¬ AnswersAsk askServer String.toUpper [] askText := by
  have hvalue : Query.eval [] ⟨none, everyTriple, .ask⟩ = .ok (.boolean false) := rfl
  have hanswer : clusterAnswer askServer String.toUpper [] none (some askText) = .json (askAnswer true) := by
    have hbreak : '\n' ∉ (String.toUpper (trim askText)).toList := by decide +kernel
    have hlooks : looksLikeAsk String.toUpper askText = true := by
      rw [looksLikeAsk, stripPrologue_of_notMem hbreak]
      decide +kernel
    rw [clusterAnswer_none rfl (by decide), clusterJson_of_ask rfl hvalue, if_pos hlooks]
  refine ⟨hvalue, hanswer, fun h => ?_⟩
  have hfalse := (h none _ hanswer _ rfl).1 rfl false hvalue
  exact absurd (askAnswer_injective hfalse) (by decide)

end Picloud
