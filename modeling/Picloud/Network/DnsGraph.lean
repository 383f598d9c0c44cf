import Picloud.Network.Dns
import Picloud.Rdf.Primitives

/-!
# What the DNS queries read

Reference: the queries of `picloud-network/src/dns/records.rs`.

A query finds its subjects by the text of a property: by a hostname, by a service type and a product, or
by an address. A query engine reads nothing of the other subjects (`ReadsLocally`), so an event changes
no answers but for the names under which the subjects that it changed are asked for
(`readFor_eq_of_changesWithin`).
-/

namespace Picloud

open Lib

/-! ## The texts of the queries -/

section Texts

variable {query parameter text name name' : String} {first rest : List Char}

/-- A name that is the text of a literal when it is put between quotes. -/
def PlainDnsName (name : String) : Prop := ∀ c ∈ name.toList, c ∉ ['"', '\\', '$', '\n', '\r']

instance decidablePlainDnsName (name : String) : Decidable (PlainDnsName name) :=
  inferInstanceAs (Decidable (∀ c ∈ name.toList, c ∉ ['"', '\\', '$', '\n', '\r']))

theorem toList_bindText (hquery : query.toList = first ++ rest)
    (hparameter : parameter.toList.head? = some '$') (hfirst : '$' ∉ first) :
    (bindText query parameter text).toList =
      first ++ replaceAll parameter.toList ('"' :: (text.toList ++ ['"'])) rest := by
  have hquoted : ("\"" ++ text ++ "\"").toList = '"' :: (text.toList ++ ['"']) := by
    rw [String.toList_append, String.toList_append]
    rfl
  rw [bindText, String.toList_ofList, hquery, hquoted, replaceAll_append_of_notMem hparameter hfirst]

/-- What stands before the first parameter stays. -/
theorem prefix_bindText (text : String) (hquery : first <+: query.toList)
    (hparameter : parameter.toList.head? = some '$') (hfirst : '$' ∉ first) :
    first <+: (bindText query parameter text).toList := by
  obtain ⟨rest, hrest⟩ := hquery
  exact ⟨_, (toList_bindText hrest.symm hparameter hfirst).symm⟩

/-- The text of the first parameter follows. -/
theorem toList_bindText_parameter (text : String)
    (hquery : query.toList = first ++ (parameter.toList ++ rest))
    (hparameter : parameter.toList.head? = some '$') (hfirst : '$' ∉ first) :
    ∃ rest', (bindText query parameter text).toList = first ++ '"' :: (text.toList ++ '"' :: rest') := by
  have hne : parameter.toList ≠ [] := fun hnil => by simp [hnil] at hparameter
  rw [toList_bindText hquery hparameter hfirst, replaceAll_pat_append hne, List.cons_append,
    List.append_assoc, List.singleton_append]
  exact ⟨_, rfl⟩

/-- The first lines of the queries for services, texts and hostnames. -/
def selectHead : List Char := "\nPREFIX pc: <https://picloud.local/ontology#>\nSELECT".toList

/-- The first lines of the query for addresses. -/
def addressHead : List Char := "
PREFIX pc: <https://picloud.local/ontology#>
PREFIX".toList

/-- The lines stand at the beginning of the queries, before the first parameter. -/
theorem heads_queries : ('$' ∉ selectHead ∧ '$' ∉ addressHead) ∧
    (selectHead.length = addressHead.length ∧ selectHead ≠ addressHead) ∧
    selectHead <+: srvRecordQuery.toList ∧ selectHead <+: txtRecordQuery.toList ∧
    selectHead <+: ptrRecordQuery.toList ∧ addressHead <+: aRecordQuery.toList ∧
    "$hostname".toList <+: aRecordQuery.toList.dropWhile (· ≠ '$') := by
  simp only [srvRecordQuery, txtRecordQuery, ptrRecordQuery, aRecordQuery, String.toList_intercalate]
  decide +kernel

theorem selectHead_service (service product : String) : selectHead <+:
    (bindText (bindText srvRecordQuery "$service_type" service) "$product" product).toList := by
  obtain ⟨⟨hdollar, -⟩, -, hquery, -⟩ := heads_queries
  exact prefix_bindText product (prefix_bindText service hquery rfl hdollar) rfl hdollar

theorem selectHead_text (name : String) :
    selectHead <+: (bindText txtRecordQuery "$hostname" name).toList := by
  obtain ⟨⟨hdollar, -⟩, -, -, hquery, -⟩ := heads_queries
  exact prefix_bindText name hquery rfl hdollar

theorem selectHead_pointer (address : String) :
    selectHead <+: (bindText ptrRecordQuery "$address" address).toList := by
  obtain ⟨⟨hdollar, -⟩, -, -, -, hquery, -⟩ := heads_queries
  exact prefix_bindText address hquery rfl hdollar

theorem addressHead_address (name : String) :
    addressHead <+: (bindText aRecordQuery "$hostname" name).toList := by
  obtain ⟨⟨-, hdollar⟩, -, -, -, -, hquery, -⟩ := heads_queries
  exact prefix_bindText name hquery rfl hdollar

/-- The query for addresses is none of the others. -/
theorem ne_of_selectHead (h : selectHead <+: text.toList) :
    text ≠ bindText aRecordQuery "$hostname" name := by
  rintro rfl
  obtain ⟨-, ⟨hlength, hne⟩, -⟩ := heads_queries
  have hprefix := List.prefix_of_prefix_length_le h (addressHead_address name) hlength.le
  have hsame := hprefix.eq_of_length hlength
  exact hne hsame

/-- The query for addresses, cut at its first parameter. -/
theorem aRecordQuery_eq : ∃ first rest,
    aRecordQuery.toList = first ++ ("$hostname".toList ++ rest) ∧ '$' ∉ first := by
  obtain ⟨-, -, -, -, -, -, rest, hrest⟩ := heads_queries
  refine ⟨aRecordQuery.toList.takeWhile (· ≠ '$'), rest, ?_, fun hmem => ?_⟩
  · rw [hrest, List.takeWhile_append_dropWhile]
  · exact absurd (List.mem_takeWhile_imp hmem) (by decide)

/-- The query for the addresses of a name is that of no other name. -/
theorem bindText_a_injective (hname : PlainDnsName name) (hname' : PlainDnsName name')
    (h : bindText aRecordQuery "$hostname" name = bindText aRecordQuery "$hostname" name') :
    name = name' := by
  obtain ⟨first, tail, hquery, hfirst⟩ := aRecordQuery_eq
  obtain ⟨rest, hrest⟩ := toList_bindText_parameter name hquery rfl hfirst
  obtain ⟨rest', hrest'⟩ := toList_bindText_parameter name' hquery rfl hfirst
  rw [h, hrest'] at hrest
  have htail := (List.cons.inj (List.append_cancel_left hrest)).2
  have hquote : ∀ {text : String}, PlainDnsName text → '"' ∉ text.toList := fun hplain hmem =>
    hplain _ hmem List.mem_cons_self
  exact (String.toList_inj.mp (append_cons_inj_first htail (hquote hname') (hquote hname)).1).symm

end Texts

/-- The query that a name of a type is looked up with, if the graph is asked at all. -/
def askedText (domain name rtype : String) : Option String :=
  if rtype = "A" then some (bindText aRecordQuery "$hostname" name)
  else if rtype = "SRV" then (parseSrvName name domain).map fun parts =>
    bindText (bindText srvRecordQuery "$service_type" parts.1) "$product" parts.2.2
  else if rtype = "TXT" then some (bindText txtRecordQuery "$hostname" name)
  else if rtype = "PTR" then (parsePtrName name).map (bindText ptrRecordQuery "$address")
  else none

/-- Graphs that answer the query alike give a name the same records. -/
theorem DnsResolver.answer_congr {G : Type} {resolver : DnsResolver G} {graph graph' : G}
    {name rtype : String} (h : ∀ query text, resolver.sparqlQuery = some query →
      askedText resolver.domain name rtype = some text → query graph text = query graph' text) :
    resolver.answer graph name rtype = resolver.answer graph' name rtype := by
  unfold answer askedText at *
  split_ifs at h ⊢ with ha hsrv htxt hptr
  · unfold queryA
    cases hquery : resolver.sparqlQuery with
    | none => rfl
    | some query => simp only [h query _ hquery rfl]
  · unfold querySrv
    cases hquery : resolver.sparqlQuery with
    | none => rfl
    | some query =>
      cases hparts : parseSrvName name resolver.domain with
      | none => rfl
      | some parts => simp only [h query _ hquery (by rw [hparts, Option.map_some])]
  · unfold queryTxt
    cases hquery : resolver.sparqlQuery with
    | none => rfl
    | some query => simp only [h query _ hquery rfl]
  · unfold queryPtr
    cases hquery : resolver.sparqlQuery with
    | none => rfl
    | some query =>
      cases haddress : parsePtrName name with
      | none => rfl
      | some address => simp only [h query _ hquery (by rw [haddress, Option.map_some])]
  · rfl

/-! ## The subjects that are asked for -/

/-- A subject has a text as a property. -/
def hasText (store : Store) (x : Subject) (property text : String) : Bool :=
  store.any fun q => decide (q.subject = x ∧ q.predicate.value = pc property ∧ q.object = simple text)

/-- The query of a name and a type finds its solutions at the subject. -/
def askedFor (domain : String) (store : Store) (name rtype : String) (x : Subject) : Bool :=
  if rtype = "A" ∨ rtype = "TXT" then hasText store x "hostname" name
  else if rtype = "SRV" then
    match parseSrvName name domain with
    | none => false
    | some (service, _, product) =>
      hasText store x "serviceType" service && hasText store x "product" product
  else if rtype = "PTR" then
    match parsePtrName name with
    | none => false
    | some address => hasText store x "nodeAddress" address || hasText store x "ingressAddress" address
  else false

/-- What the graph has about the subjects that are asked for. -/
def readFor (domain : String) (store : Store) (name rtype : String) : Store :=
  store.filter fun q => askedFor domain store name rtype q.subject

/-- The answers to the queries of plain names come from what the graph has about the subjects that are
asked for. -/
def ReadsLocally (domain : String) (query : Store → String → Except String (List Json)) : Prop :=
  ∀ name rtype text, PlainDnsName name → askedText domain name rtype = some text →
    ∀ store store', readFor domain store name rtype = readFor domain store' name rtype →
      query store text = query store' text

/-- The graphs differ in subjects only that plain names of a kind are asked for, in either of them. -/
def ChangesWithin (domain : String) (before after : Store) (concerned : String → Prop) : Prop :=
  ∃ changed : Subject → Bool,
    (before.filter fun q => !changed q.subject) = (after.filter fun q => !changed q.subject) ∧
    ∀ x, changed x = true → ∀ name rtype, PlainDnsName name →
      askedFor domain before name rtype x = true ∨ askedFor domain after name rtype x = true →
        concerned name

section Changes

variable {domain name : String} {before after : Store} {x : Subject}

/-- What a subject has as properties is not changed by what is left out of the others. -/
theorem hasText_filter {kept : Subject → Bool} (hx : kept x = true) (store : Store)
    (property text : String) :
    hasText (store.filter fun q => kept q.subject) x property text = hasText store x property text := by
  rw [hasText, hasText, List.any_filter]
  congr 1
  funext q
  by_cases hsubject : q.subject = x
  · rw [hsubject, hx, Bool.true_and]
  · simp [hsubject]

theorem askedFor_filter (kept : Subject → Bool) (hx : kept x = true) (store : Store)
    (name rtype : String) :
    askedFor domain (store.filter fun q => kept q.subject) name rtype x =
      askedFor domain store name rtype x := by
  unfold askedFor
  simp only [hasText_filter hx]

/-- What the graph has about the subjects that are asked for, if none of the others matters. -/
theorem readFor_eq_filter {changed : Subject → Bool} {store : Store} {rtype : String}
    (h : ∀ x, changed x = true → askedFor domain store name rtype x = false) :
    readFor domain store name rtype = (store.filter fun q => !changed q.subject).filter fun q =>
      askedFor domain (store.filter fun q => !changed q.subject) name rtype q.subject := by
  rw [readFor, List.filter_filter]
  refine List.filter_congr fun q _ => ?_
  cases hchanged : changed q.subject with
  | true => rw [h _ hchanged, Bool.not_true, Bool.and_false]
  | false =>
    have hkept : askedFor domain (store.filter fun q => !changed q.subject) name rtype q.subject =
        askedFor domain store name rtype q.subject :=
      askedFor_filter (fun x => !changed x) (by rw [hchanged]; rfl) store name rtype
    rw [Bool.not_false, Bool.and_true]
    exact hkept.symm

/-- **A change does not reach the names that none of its subjects is asked for under.** -/
theorem readFor_eq_of_changesWithin {concerned : String → Prop}
    (h : ChangesWithin domain before after concerned) (hplain : PlainDnsName name) (hname : ¬ concerned name)
    (rtype : String) : readFor domain before name rtype = readFor domain after name rtype := by
  obtain ⟨changed, hsame, hasked⟩ := h
  have hbefore : ∀ x, changed x = true → askedFor domain before name rtype x = false := fun x hx =>
    Bool.eq_false_iff.mpr fun htrue => hname (hasked x hx name rtype hplain (Or.inl htrue))
  have hafter : ∀ x, changed x = true → askedFor domain after name rtype x = false := fun x hx =>
    Bool.eq_false_iff.mpr fun htrue => hname (hasked x hx name rtype hplain (Or.inr htrue))
  rw [readFor_eq_filter hbefore, readFor_eq_filter hafter, hsame]

end Changes

end Picloud
