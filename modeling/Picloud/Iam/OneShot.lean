import Picloud.Iam.Ceremonies
import Picloud.Iam.ChallengeBinding

/-!
# One-shot credentials

A challenge id, an authorization code and an enrollment token are each good for one use. In every
interleaving, what a table offers, what the tasks hold and what has been used of a credential add up
to at most what has been drawn of it (`offers_add_spent_add_held_le`); and what a task has taken out
of a table is what it or another call has put there (`Known`).
-/

namespace Picloud

open Lib

/-! ## Credentials -/

/-- The three kinds of one-shot credentials. -/
inductive Credential where
  | challenge (challengeId : String)
  | code (code : String)
  | enrollment (token : String)
deriving DecidableEq

/-- The credential can be taken. -/
def PasskeyProvider.offers (prov : PasskeyProvider) : Credential → Bool
  | .challenge id => (prov.pendingChallenges id).isSome
  | .code code => (prov.core.pendingAuthCodes code).isSome
  | .enrollment token => (prov.enrollmentTokens token).any (!·.used)

/-- The credential that an event uses up. -/
def CredentialEvent.spends : CredentialEvent → Option Credential
  | .challengeMade .. | .codeMade .. => none
  | .passkeyStored id .. | .tokenIssued id .. => some (.challenge id)
  | .codeRedeemed code .. => some (.code code)
  | .enrolled taken _ => some (.enrollment taken.token)

/-- How often a credential has been used. -/
def CeremonyState.spent (s : CeremonyState) (c : Credential) : ℕ :=
  s.log.countP (·.spends = some c)

/-- The credential that a call draws at random. -/
def CeremonyCall.draws : CeremonyCall → List Credential
  | .beginRegistration _ _ id | .beginAuthentication _ _ id | .enrollWithToken _ _ _ id =>
    [.challenge id]
  | .beginAuthorizationCode code .. => [.code code]
  | .tick _ | .completeRegistration .. | .completeAuthentication ..
  | .exchangeAuthorizationCode .. => []

/-- The credentials that a schedule draws. -/
def drawnBy (schedule : List (Pool.Act CeremonyCall)) : List Credential :=
  schedule.flatMap fun
    | .call c => c.draws
    | .step _ => []

/-! ## Proper use -/

/-- The challenge was pending at the start or has been made since. -/
def Made (start : PasskeyProvider) (log : List CredentialEvent) (id : String)
    (pending : PendingChallenge) : Prop :=
  start.pendingChallenges id = some pending ∨ .challengeMade id pending ∈ log

/-- The authorization code was pending at the start or has been made since. -/
def CodeMade (start : PasskeyProvider) (log : List CredentialEvent) (code : String)
    (pending : PendingAuthorizationCode) : Prop :=
  start.core.pendingAuthCodes code = some pending ∨ .codeMade code pending ∈ log

/-- The challenge was made under its id, is of the kind asked for, and had not expired when it was
checked. -/
structure ProperChallenge (start : PasskeyProvider) (log : List CredentialEvent)
    (kind : ChallengeKind) (id : String) (pending : PendingChallenge) (checkedAt : ℤ) : Prop where
  made : Made start log id pending
  kind_eq : pending.kind = kind
  unexpired : checkedAt < pending.expiresAt

/-- The code was made for the client that presents it, and had not expired when it was checked. -/
structure ProperCode (start : PasskeyProvider) (log : List CredentialEvent) (code clientId : String)
    (pending : PendingAuthorizationCode) (checkedAt : ℤ) : Prop where
  made : CodeMade start log code pending
  client_eq : pending.clientId = clientId
  unexpired : checkedAt < pending.expiresAt

/-- The enrollment token is one of the start that was unused and had not expired when it was
taken. -/
structure ProperToken (start : PasskeyProvider) (taken : TakenToken) : Prop where
  stored : start.enrollmentTokens taken.token = some taken.stored
  unused : taken.stored.used = false
  unexpired : taken.takenAt < taken.stored.expiresAt

/-- A use of a credential is proper. -/
def CredentialEvent.Proper (start : PasskeyProvider) (log : List CredentialEvent) :
    CredentialEvent → Prop
  | .challengeMade .. | .codeMade .. => True
  | .passkeyStored id pending checkedAt _ =>
    ProperChallenge start log .registration id pending checkedAt
  | .tokenIssued id pending checkedAt _ =>
    ProperChallenge start log .authentication id pending checkedAt
  | .codeRedeemed code clientId pending checkedAt _ =>
    ProperCode start log code clientId pending checkedAt
  | .enrolled taken _ => ProperToken start taken

/-- A token is issued for the credential at or after its expiry. -/
def CredentialEvent.isLate : CredentialEvent → Bool
  | .tokenIssued _ pending _ token => decide (pending.expiresAt ≤ token.claims.issuedAt)
  | .codeRedeemed _ _ pending _ token => decide (pending.expiresAt ≤ token.claims.issuedAt)
  | .challengeMade .. | .codeMade .. | .passkeyStored .. | .enrolled .. => false

/-! ## At most one use -/

/-- The credentials that a task is still to put into a table or has taken out of one. -/
def CeremonyTask.holds : CeremonyTask → List Credential
  | .beginRegistration _ _ id taken | .insertChallenge id _ _ taken =>
    .challenge id :: (taken.map fun t => .enrollment t.token).toList
  | .beginAuthentication _ _ id | .checkRegistration id .. | .storePasskey id ..
  | .checkAuthentication id .. | .readPasskeys id .. | .touchPasskey id .. | .issueToken id ..
  | .takeEnrollmentToken _ _ _ id => [.challenge id]
  | .registerAdmin _ _ id taken => [.challenge id, .enrollment taken.token]
  | .beginCode code .. | .insertCode code _ | .checkCode code .. | .readApp code ..
  | .issueCodeToken code .. => [.code code]
  | .tick _ | .takeRegistration .. | .lookUpIdentity .. | .registerIdentity ..
  | .takeAuthentication .. | .takeCode .. | .done _ => []

namespace PasskeyProvider

variable {prov : PasskeyProvider}

theorem offers_insertChallenge (id : String) (pending : PendingChallenge) (c : Credential) :
    (prov.insertChallenge id pending).offers c = (decide (c = .challenge id) || prov.offers c) := by
  cases c with
  | challenge id' =>
    by_cases h : id' = id
    · subst h; simp [offers, insertChallenge]
    · simp [offers, insertChallenge, h]
  | code code => simp [offers, insertChallenge]
  | enrollment token => simp [offers, insertChallenge]

theorem offers_removeChallenge (id : String) (c : Credential) :
    (prov.removeChallenge id).offers c = (decide (c ≠ .challenge id) && prov.offers c) := by
  cases c with
  | challenge id' =>
    by_cases h : id' = id
    · subst h; simp [offers, removeChallenge]
    · simp [offers, removeChallenge, h]
  | code code => simp [offers, removeChallenge]
  | enrollment token => simp [offers, removeChallenge]

theorem offers_takeEnrollmentToken {prov' : PasskeyProvider} {now : ℤ} {token : String}
    {stored : EnrollmentToken} (h : prov.takeEnrollmentToken now token = (.ok stored, prov'))
    (c : Credential) : prov'.offers c = (decide (c ≠ .enrollment token) && prov.offers c) ∧
      prov.offers (.enrollment token) = true := by
  obtain ⟨hstored, hunused, -, rfl⟩ := taken_of_takeEnrollmentToken h
  refine ⟨?_, by simp [offers, hstored, hunused]⟩
  cases c with
  | challenge id => simp [offers]
  | code code => simp [offers]
  | enrollment token' =>
    by_cases heq : token' = token
    · subst heq; simp [offers]
    · simp [offers, heq]

end PasskeyProvider

namespace CeremonyState

variable {env : PasskeyEnv} {s s' : CeremonyState} {t t' : CeremonyTask}

theorem offers_setCode (code : String) (pending : Option PendingAuthorizationCode)
    (c : Credential) : (s.setCode code pending).prov.offers c =
      if c = .code code then pending.isSome else s.prov.offers c := by
  cases c with
  | challenge id => simp [setCode, withCore, PasskeyProvider.offers]
  | code code' =>
    by_cases h : code' = code
    · subst h; simp [setCode, withCore, PasskeyProvider.offers]
    · simp [setCode, withCore, PasskeyProvider.offers, h]
  | enrollment token => simp [setCode, withCore, PasskeyProvider.offers]

theorem spent_record (events : List CredentialEvent) (c : Credential) :
    (s.record events).spent c = s.spent c + events.countP (·.spends = some c) :=
  List.countP_append ..

/-- A use counts once, for the credential that it uses up. -/
theorem spent_use (event : CredentialEvent) {d : Credential} (h : event.spends = some d)
    (c : Credential) : (s.record [event]).spent c = s.spent c + [d].count c := by
  rw [spent_record, List.countP_singleton, List.count_singleton, h]
  by_cases hc : d = c <;> simp [hc]

/-- Taking a challenge out of its table moves it to the task. -/
theorem offers_of_pending {id : String} {pending : PendingChallenge} (c : Credential)
    (h : s.prov.pendingChallenges id = some pending) :
    ((s.prov.removeChallenge id).offers c).toNat + [Credential.challenge id].count c ≤
      (s.prov.offers c).toNat := by
  rw [PasskeyProvider.offers_removeChallenge, List.count_singleton]
  by_cases hc : c = .challenge id
  · subst hc
    simp [PasskeyProvider.offers, h]
  · simp [hc, Ne.symm hc]

/-- Taking an enrollment token moves it to the task. -/
theorem offers_of_taken {now : ℤ} {token : String} {stored : EnrollmentToken}
    {prov : PasskeyProvider} (c : Credential)
    (h : s.prov.takeEnrollmentToken now token = (.ok stored, prov)) :
    (prov.offers c).toNat + [Credential.enrollment token].count c ≤ (s.prov.offers c).toNat := by
  obtain ⟨hrest, htoken⟩ := PasskeyProvider.offers_takeEnrollmentToken h c
  rw [hrest, List.count_singleton]
  by_cases hc : c = .enrollment token
  · subst hc
    simp [htoken]
  · simp [hc, Ne.symm hc]

/-- Taking an authorization code out of its table moves it to the task. -/
theorem offers_of_pendingCode {code : String} {pending : PendingAuthorizationCode} (c : Credential)
    (h : s.prov.core.pendingAuthCodes code = some pending) :
    ((s.setCode code none).prov.offers c).toNat + [Credential.code code].count c ≤
      (s.prov.offers c).toNat := by
  rw [offers_setCode, List.count_singleton]
  by_cases hc : c = .code code
  · subst hc
    simp [PasskeyProvider.offers, h]
  · simp [hc, Ne.symm hc]

/-- What is offered, used and held of a credential does not grow with a step. -/
theorem potential_ceremonyStep (c : Credential) (h : s.ceremonyStep env t = some (s', t')) :
    ((s'.prov.offers c).toNat + s'.spent c) + t'.holds.count c ≤
      ((s.prov.offers c).toNat + s.spent c) + t.holds.count c := by
  cases section_of_ceremonyStep h with
  | stopped => simp [CeremonyTask.holds]
  | ticked => rfl
  | registrationBegun => rfl
  | authenticationBegun => rfl
  | @challengeInserted id pending reply taken =>
    have hoffers : ((s.prov.insertChallenge id pending).offers c).toNat ≤
        (s.prov.offers c).toNat + [Credential.challenge id].count c := by
      rw [PasskeyProvider.offers_insertChallenge, List.count_singleton]
      by_cases hc : c = .challenge id
      · subst hc
        simp
      · simp [hc]
    have hspent : (insertionEvents id pending taken).countP (·.spends = some c) =
        ((taken.map fun t => Credential.enrollment t.token).toList).count c := by
      cases taken <;> simp [insertionEvents, CredentialEvent.spends, List.count_singleton,
        List.countP_cons]
    simp only [spent_record, CeremonyTask.holds, List.count_nil, hspent]
    rw [← List.singleton_append, List.count_append]
    simp only [record, spent] at *
    omega
  | registrationTaken hpending =>
    have hmoved := offers_of_pending c hpending
    simp only [spent, CeremonyTask.holds, List.count_nil] at *
    omega
  | registrationChecked hcheck => rfl
  | @passkeyStored id pending checkedAt passkey =>
    have hspent := spent_use (s := s) (.passkeyStored id pending checkedAt passkey) rfl c
    have hsame : (s.prov.storePasskey pending.identityIri passkey).offers c = s.prov.offers c := by
      cases c <;> rfl
    simp only [spent, record, CeremonyTask.holds, List.count_nil, hsame] at *
    omega
  | identityMissing => rfl
  | identityRegistered => rfl
  | authenticationTaken hpending =>
    have hmoved := offers_of_pending c hpending
    simp only [spent, CeremonyTask.holds, List.count_nil] at *
    omega
  | authenticationChecked hcheck => rfl
  | passkeyMatched => rfl
  | passkeyTouched => rfl
  | @tokenIssued id pending checkedAt token =>
    have hspent := spent_use (s := s) (.tokenIssued id pending checkedAt token) rfl c
    simp only [hspent, CeremonyTask.holds, List.count_nil]
    simp only [record]
    omega
  | @tokenTaken token adminId bytes id stored iri prov htake =>
    have hmoved := offers_of_taken c htake
    simp only [spent, CeremonyTask.holds, Option.map_some, Option.toList_some] at *
    rw [← List.singleton_append, List.count_append]
    omega
  | @bootstrapTaken token adminId bytes id stored prov htake =>
    have hmoved := offers_of_taken c htake
    simp only [spent, CeremonyTask.holds] at *
    rw [← List.singleton_append, List.count_append]
    omega
  | adminRegistered => rfl
  | codeBegun => rfl
  | @codeInserted code pending =>
    have hoffers : ((s.setCode code (some pending)).prov.offers c).toNat ≤
        (s.prov.offers c).toNat + [Credential.code code].count c := by
      rw [offers_setCode, List.count_singleton]
      by_cases hc : c = .code code
      · subst hc
        simp
      · simp [hc]
    have hspent : [CredentialEvent.codeMade code pending].countP (·.spends = some c) = 0 := rfl
    simp only [spent_record, hspent, CeremonyTask.holds, List.count_nil]
    simp only [record, spent, setCode, withCore] at *
    omega
  | @codeTaken code clientId pending hpending =>
    have hmoved := offers_of_pendingCode c hpending
    simp only [spent, setCode, withCore, CeremonyTask.holds, List.count_nil] at *
    omega
  | codeChecked haccepted => rfl
  | appRead => rfl
  | @codeTokenIssued code clientId pending checkedAt app response =>
    have hspent := spent_use (s := s)
      (.codeRedeemed code clientId pending checkedAt response.accessToken) rfl c
    simp only [hspent, CeremonyTask.holds, List.count_nil]
    simp only [record]
    omega

/-- What is offered, used and held of a credential in a run, against what the calls have drawn. -/
theorem offers_add_spent_add_held_le (c : Credential) {schedule : List (Pool.Act CeremonyCall)}
    {p p' : Pool CeremonyState CeremonyTask}
    (hrun : runSteps (ceremonyNext env) p schedule = some p') :
    ((p'.shared.prov.offers c).toNat + p'.shared.spent c) +
        (p'.tasks.map (·.holds.count c)).sum ≤
      ((p.shared.prov.offers c).toNat + p.shared.spent c) +
        (p.tasks.map (·.holds.count c)).sum + (drawnBy schedule).count c := by
  have hdrawn : (schedule.map (Pool.Act.grant (·.draws.count c))).sum =
      (drawnBy schedule).count c := by
    rw [drawnBy, List.count_flatMap]
    congr 1
    refine List.map_congr_left fun a _ => ?_
    cases a <;> rfl
  rw [← hdrawn]
  refine Pool.potential_le (fun s : CeremonyState => (s.prov.offers c).toNat + s.spent c)
    (fun t => t.holds.count c) (fun call => call.draws.count c) ?_ ?_ schedule p p' hrun
  · intro call
    cases call <;> simp [CeremonyCall.enter, CeremonyTask.holds, CeremonyCall.draws]
  · intro s t s' t' h
    exact potential_ceremonyStep c h

end CeremonyState

/-! ## Only proper uses -/

section

variable {start : PasskeyProvider} {log log' : List CredentialEvent}

theorem ProperChallenge.mono (hlog : log ⊆ log') {kind : ChallengeKind} {id : String}
    {pending : PendingChallenge} {checkedAt : ℤ}
    (h : ProperChallenge start log kind id pending checkedAt) :
    ProperChallenge start log' kind id pending checkedAt :=
  ⟨h.made.imp_right fun hmem => hlog hmem, h.kind_eq, h.unexpired⟩

theorem ProperCode.mono (hlog : log ⊆ log') {code clientId : String}
    {pending : PendingAuthorizationCode} {checkedAt : ℤ}
    (h : ProperCode start log code clientId pending checkedAt) :
    ProperCode start log' code clientId pending checkedAt :=
  ⟨h.made.imp_right fun hmem => hlog hmem, h.client_eq, h.unexpired⟩

theorem CredentialEvent.Proper.mono (hlog : log ⊆ log') {event : CredentialEvent}
    (h : event.Proper start log) : event.Proper start log' := by
  cases event with
  | challengeMade id pending => trivial
  | codeMade code pending => trivial
  | passkeyStored id pending checkedAt passkey => exact ProperChallenge.mono hlog h
  | tokenIssued id pending checkedAt token => exact ProperChallenge.mono hlog h
  | codeRedeemed code clientId pending checkedAt token => exact ProperCode.mono hlog h
  | enrolled taken id => exact h

end

/-- What a task knows about the credential that it has taken out. -/
def CeremonyTask.Sound (start : PasskeyProvider) (log : List CredentialEvent) :
    CeremonyTask → Prop
  | .beginRegistration _ _ _ taken | .insertChallenge _ _ _ taken =>
    ∀ t ∈ taken, ProperToken start t
  | .registerAdmin _ _ _ taken => ProperToken start taken
  | .checkRegistration id pending _ | .checkAuthentication id pending _ => Made start log id pending
  | .storePasskey id pending checkedAt _ =>
    ProperChallenge start log .registration id pending checkedAt
  | .readPasskeys id pending checkedAt _ | .touchPasskey id pending checkedAt _
  | .issueToken id pending checkedAt =>
    ProperChallenge start log .authentication id pending checkedAt
  | .checkCode code _ pending => CodeMade start log code pending
  | .readApp code clientId pending checkedAt | .issueCodeToken code clientId pending checkedAt _ =>
    ProperCode start log code clientId pending checkedAt
  | _ => True

/-- The tables hold what was there at the start and what has been made since, and every use so far
is proper. -/
structure CeremonyState.Known (start : PasskeyProvider) (s : CeremonyState) : Prop where
  challenges : ∀ id pending, s.prov.pendingChallenges id = some pending →
    Made start s.log id pending
  codes : ∀ code pending, s.prov.core.pendingAuthCodes code = some pending →
    CodeMade start s.log code pending
  tokens : ∀ token stored, s.prov.enrollmentTokens token = some stored → stored.used = false →
    start.enrollmentTokens token = some stored
  log : ∀ event ∈ s.log, event.Proper start s.log

namespace CeremonyState

variable {env : PasskeyEnv} {start : PasskeyProvider} {s s' : CeremonyState} {t t' : CeremonyTask}

/-- A step only adds to the log. -/
theorem log_subset (h : s.ceremonyStep env t = some (s', t')) : s.log ⊆ s'.log := by
  cases section_of_ceremonyStep h with
  | challengeInserted => exact List.subset_append_left _ _
  | passkeyStored => exact List.subset_append_left _ _
  | tokenIssued => exact List.subset_append_left _ _
  | codeInserted => exact List.subset_append_left _ _
  | codeTokenIssued => exact List.subset_append_left _ _
  | _ => exact List.Subset.refl _

theorem sound_mono {log log' : List CredentialEvent} (hlog : log ⊆ log')
    (h : t.Sound start log) : t.Sound start log' := by
  cases t with
  | checkRegistration id pending response => exact Or.imp_right (fun hmem => hlog hmem) h
  | checkAuthentication id pending response => exact Or.imp_right (fun hmem => hlog hmem) h
  | checkCode code clientId pending => exact Or.imp_right (fun hmem => hlog hmem) h
  | storePasskey id pending checkedAt passkey => exact ProperChallenge.mono hlog h
  | readPasskeys id pending checkedAt response => exact ProperChallenge.mono hlog h
  | touchPasskey id pending checkedAt response => exact ProperChallenge.mono hlog h
  | issueToken id pending checkedAt => exact ProperChallenge.mono hlog h
  | readApp code clientId pending checkedAt => exact ProperCode.mono hlog h
  | issueCodeToken code clientId pending checkedAt app => exact ProperCode.mono hlog h
  | _ => exact h

/-- Uses that are proper may be written to the log. -/
theorem Known.record (h : s.Known start) {events : List CredentialEvent}
    (hevents : ∀ event ∈ events, event.Proper start (s.log ++ events)) :
    (s.record events).Known start where
  challenges id pending hp := (h.challenges id pending hp).imp_right (List.mem_append_left _)
  codes code pending hp := (h.codes code pending hp).imp_right (List.mem_append_left _)
  tokens := h.tokens
  log event hmem := by
    rcases List.mem_append.mp hmem with hold | hnew
    · exact (h.log event hold).mono (List.subset_append_left _ _)
    · exact hevents event hnew

/-- Only the three tables matter. -/
theorem Known.withProv (h : s.Known start) {prov : PasskeyProvider}
    (hchallenges : prov.pendingChallenges = s.prov.pendingChallenges)
    (hcodes : prov.core.pendingAuthCodes = s.prov.core.pendingAuthCodes)
    (htokens : prov.enrollmentTokens = s.prov.enrollmentTokens) :
    { s with prov := prov }.Known start where
  challenges := by simpa only [hchallenges] using h.challenges
  codes := by simpa only [hcodes] using h.codes
  tokens := by simpa only [htokens] using h.tokens
  log := h.log

/-- A challenge that has been made may be in its table. -/
theorem Known.insertChallenge (h : s.Known start) {id : String} {pending : PendingChallenge}
    (hmade : Made start s.log id pending) :
    { s with prov := s.prov.insertChallenge id pending }.Known start where
  challenges id' pending' hp := by
    by_cases hid : id' = id
    · subst hid
      have hsame : pending = pending' := by
        simpa [PasskeyProvider.insertChallenge] using hp
      exact hsame ▸ hmade
    · refine h.challenges id' pending' ?_
      simpa [PasskeyProvider.insertChallenge, hid] using hp
  codes := h.codes
  tokens := h.tokens
  log := h.log

theorem Known.removeChallenge (h : s.Known start) (id : String) :
    { s with prov := s.prov.removeChallenge id }.Known start where
  challenges id' pending' hp := by
    by_cases hid : id' = id
    · subst hid
      simp [PasskeyProvider.removeChallenge] at hp
    · refine h.challenges id' pending' ?_
      simpa [PasskeyProvider.removeChallenge, hid] using hp
  codes := h.codes
  tokens := h.tokens
  log := h.log

/-- A code that has been made may be in its table. -/
theorem Known.setCode (h : s.Known start) {code : String}
    {pending : Option PendingAuthorizationCode}
    (hmade : ∀ p, pending = some p → CodeMade start s.log code p) :
    (s.setCode code pending).Known start where
  challenges := h.challenges
  codes code' pending' hp := by
    by_cases hcode : code' = code
    · subst hcode
      refine hmade pending' ?_
      simpa [CeremonyState.setCode, withCore] using hp
    · refine h.codes code' pending' ?_
      simpa [CeremonyState.setCode, withCore, hcode] using hp
  tokens := h.tokens
  log := h.log

/-- A token that is taken is a proper one, and the others stay. -/
theorem Known.takeToken (h : s.Known start) {token : String} {stored : EnrollmentToken}
    {prov : PasskeyProvider}
    (htake : s.prov.takeEnrollmentToken s.now token = (.ok stored, prov)) :
    { s with prov := prov }.Known start ∧ ProperToken start ⟨token, stored, s.now⟩ := by
  obtain ⟨hstored, hunused, hlive, rfl⟩ := PasskeyProvider.taken_of_takeEnrollmentToken htake
  refine ⟨⟨h.challenges, h.codes, ?_, h.log⟩, h.tokens token stored hstored hunused, hunused, hlive⟩
  intro token' stored' hp hunused'
  by_cases heq : token' = token
  · subst heq
    have hmarked : { stored with used := true } = stored' := by simpa using hp
    rw [← hmarked] at hunused'
    cases hunused'
  · refine h.tokens token' stored' ?_ hunused'
    simpa [heq] using hp

/-- What is known is kept by a step. -/
theorem known_step (hs : s.Known start) (ht : t.Sound start s.log)
    (h : s.ceremonyStep env t = some (s', t')) : s'.Known start ∧ t'.Sound start s'.log := by
  cases section_of_ceremonyStep h with
  | stopped => exact ⟨hs, trivial⟩
  | ticked => exact ⟨⟨hs.challenges, hs.codes, hs.tokens, hs.log⟩, trivial⟩
  | registrationBegun => exact ⟨hs, ht⟩
  | authenticationBegun => exact ⟨hs, fun t ht => by cases ht⟩
  | @challengeInserted id pending reply taken =>
    have hproper : ∀ event ∈ insertionEvents id pending taken,
        event.Proper start (s.log ++ insertionEvents id pending taken) := by
      intro event hevent
      cases taken with
      | none =>
        rw [List.mem_singleton.mp hevent]
        trivial
      | some taken =>
        rcases List.mem_pair.mp hevent with rfl | rfl
        · trivial
        · exact ht taken rfl
    have hmade : CredentialEvent.challengeMade id pending ∈
        s.log ++ insertionEvents id pending taken := by
      cases taken <;> simp [insertionEvents]
    exact ⟨(hs.record hproper).insertChallenge (Or.inr hmade), trivial⟩
  | @registrationTaken id pending response hpending =>
    exact ⟨hs.removeChallenge id, hs.challenges id pending hpending⟩
  | registrationChecked hcheck =>
    obtain ⟨hkind, hlive⟩ := checkChallenge_eq_ok.mp hcheck
    exact ⟨hs, ht, hkind, hlive⟩
  | @passkeyStored id pending checkedAt passkey =>
    have hstored : { s with prov := s.prov.storePasskey pending.identityIri passkey }.Known start :=
      hs.withProv rfl rfl rfl
    refine ⟨hstored.record fun event hevent => ?_, trivial⟩
    rw [List.mem_singleton.mp hevent]
    exact ProperChallenge.mono (List.subset_append_left _ _) ht
  | identityMissing => exact ⟨hs, trivial⟩
  | identityRegistered => exact ⟨hs.withProv rfl rfl rfl, trivial⟩
  | @authenticationTaken id pending response hpending =>
    exact ⟨hs.removeChallenge id, hs.challenges id pending hpending⟩
  | authenticationChecked hcheck =>
    obtain ⟨hkind, hlive⟩ := checkChallenge_eq_ok.mp hcheck
    exact ⟨hs, ht, hkind, hlive⟩
  | passkeyMatched => exact ⟨hs, ht⟩
  | passkeyTouched => exact ⟨hs.withProv rfl rfl rfl, ht⟩
  | tokenIssued =>
    refine ⟨hs.record fun event hevent => ?_, trivial⟩
    rw [List.mem_singleton.mp hevent]
    exact ProperChallenge.mono (List.subset_append_left _ _) ht
  | tokenTaken htake =>
    obtain ⟨hknown, hproper⟩ := hs.takeToken htake
    refine ⟨hknown, fun t hmem => ?_⟩
    cases hmem
    exact hproper
  | bootstrapTaken htake => exact hs.takeToken htake
  | adminRegistered =>
    refine ⟨hs.withProv rfl rfl rfl, fun t hmem => ?_⟩
    cases hmem
    exact ht
  | codeBegun => exact ⟨hs, trivial⟩
  | @codeInserted code pending =>
    have hrecord : (s.record [.codeMade code pending]).Known start := by
      refine hs.record fun event hevent => ?_
      rw [List.mem_singleton.mp hevent]
      trivial
    refine ⟨hrecord.setCode fun p hp => ?_, trivial⟩
    cases hp
    exact Or.inr (List.mem_append_right _ List.mem_cons_self)
  | @codeTaken code clientId pending hpending =>
    exact ⟨hs.setCode (fun p hp => by cases hp), hs.codes code pending hpending⟩
  | codeChecked haccepted =>
    simp only [codeAccepted, Bool.and_eq_true, decide_eq_true_eq] at haccepted
    exact ⟨hs, ht, haccepted.2, haccepted.1⟩
  | appRead => exact ⟨hs, ht⟩
  | codeTokenIssued =>
    refine ⟨hs.record fun event hevent => ?_, trivial⟩
    rw [List.mem_singleton.mp hevent]
    exact ProperCode.mono (List.subset_append_left _ _) ht

/-! ## Every interleaving -/

theorem known_start (start : PasskeyProvider) (now : ℤ) : Known start ⟨start, now, []⟩ where
  challenges _ _ := Or.inl
  codes _ _ := Or.inl
  tokens _ _ h _ := h
  log _ h := absurd h List.not_mem_nil

/-- **One-shot credentials are used at most once, and properly.** The calls of any interleaving may
fail or be cut short anywhere; their identifiers are distinct and not in use at the start. -/
theorem credentials_used_once (env : PasskeyEnv) (start : PasskeyProvider) (now : ℤ)
    (schedule : List (Pool.Act CeremonyCall)) (final : Pool CeremonyState CeremonyTask)
    (hdistinct : (drawnBy schedule).Nodup)
    (hfresh : ∀ c ∈ drawnBy schedule, start.offers c = false)
    (hrun : runSteps (ceremonyNext env) ⟨⟨start, now, []⟩, []⟩ schedule = some final) :
    (∀ c, final.shared.spent c ≤ 1) ∧
      ∀ event ∈ final.shared.log, event.Proper start final.shared.log := by
  constructor
  · intro c
    have hle := offers_add_spent_add_held_le c hrun
    have hnone : spent ⟨start, now, []⟩ c = 0 := rfl
    have honce : (start.offers c).toNat + (drawnBy schedule).count c ≤ 1 := by
      by_cases hc : c ∈ drawnBy schedule
      · rw [hfresh c hc, List.count_eq_one_of_mem hdistinct hc]
        rfl
      · rw [List.count_eq_zero_of_not_mem hc]
        exact Bool.toNat_le _
    simp only [hnone, List.map_nil, List.sum_nil] at hle
    omega
  · have hknown := Pool.forall_tasks_invariant
      (I := Known start) (J := fun s t => t.Sound start s.log)
      (fun s c _ => ?_) (fun s t s' t' hs ht h => known_step hs ht h)
      (fun s t s' t' u h hu => sound_mono (log_subset h) hu) schedule _ final
      (known_start start now) (fun t ht => absurd ht List.not_mem_nil) hrun
    · exact hknown.1.log
    · cases c with
      | beginRegistration iri bytes id => exact fun t ht => by cases ht
      | _ => trivial

/-- A provider with one bootstrap token. -/
def bootstrapProvider : PasskeyProvider where
  core := LocalIdentityProvider.new (fun _ => none) []
  passkeys _ := []
  pendingChallenges _ := none
  enrollmentTokens token := if token = "tok" then some ⟨"tok", 600, false, none⟩ else none

/-- Two clients present the token, and two complete the registration. -/
def enrollmentRace : List (Pool.Act CeremonyCall) :=
  [.call (.enrollWithToken "tok" 1 [1] "c1"), .call (.enrollWithToken "tok" 2 [2] "c2"), .step 0,
    .step 1, .step 0, .step 0, .step 0,
    .call (.completeRegistration "c1" ⟨"cred-001", sampleText [4], none, none⟩),
    .call (.completeRegistration "c1" ⟨"cred-002", sampleText [5], none, none⟩), .step 3, .step 2,
    .step 3, .step 3]

/-- One of each pair succeeds. -/
theorem credentials_used_once_race :
    ∃ final, runSteps (ceremonyNext samplePasskeyEnv) ⟨⟨bootstrapProvider, 0, []⟩, []⟩
        enrollmentRace = some final ∧
      final.shared.spent (.enrollment "tok") = 1 ∧ final.shared.spent (.challenge "c1") = 1 ∧
      ∀ event ∈ final.shared.log, event.Proper bootstrapProvider final.shared.log := by
  have hspent : ((runSteps (ceremonyNext samplePasskeyEnv) ⟨⟨bootstrapProvider, 0, []⟩, []⟩
      enrollmentRace).map fun final =>
        (final.shared.spent (.enrollment "tok"), final.shared.spent (.challenge "c1"))) =
      some (1, 1) := by decide +kernel
  obtain ⟨final, hrun, hboth⟩ := Option.map_eq_some_iff.mp hspent
  obtain ⟨htoken, hchallenge⟩ := Prod.mk.inj hboth
  refine ⟨final, hrun, htoken, hchallenge, ?_⟩
  refine (credentials_used_once samplePasskeyEnv bootstrapProvider 0 enrollmentRace final
    (by decide) ?_ hrun).2
  intro c hc
  have hdrawn : drawnBy enrollmentRace = [.challenge "c1", .challenge "c2"] := rfl
  rw [hdrawn] at hc
  rcases List.mem_pair.mp hc with rfl | rfl <;> rfl

/-- A provider that knows a passkey of a user. -/
def loginProvider : PasskeyProvider where
  core := LocalIdentityProvider.new (fun _ => none) []
  passkeys _ := [⟨"cred-001", List.replicate 32 0, none, 0, none, none⟩]
  pendingChallenges _ := none
  enrollmentTokens _ := none

/-- A login whose task waits for the passkeys after it has checked the challenge. -/
def slowLogin : List (Pool.Act CeremonyCall) :=
  [.call (.beginAuthentication (sampleChallenge 1).identityIri (List.replicate 32 1) "c1"), .step 0,
    .step 0, .call (.completeAuthentication "c1" hmacResponse), .step 1, .step 1,
    .call (.tick 10000), .step 2, .step 1, .step 1, .step 1]

/-- The expiry is not looked at again: a token can be issued long after it. -/
theorem token_issued_after_expiry : (drawnBy slowLogin).Nodup ∧
    (∀ c ∈ drawnBy slowLogin, loginProvider.offers c = false) ∧
    ∃ final, runSteps (ceremonyNext samplePasskeyEnv) ⟨⟨loginProvider, 0, []⟩, []⟩ slowLogin =
        some final ∧ ∃ event ∈ final.shared.log, event.isLate = true := by
  have hlate : ((runSteps (ceremonyNext samplePasskeyEnv) ⟨⟨loginProvider, 0, []⟩, []⟩
      slowLogin).map fun final => final.shared.log.any CredentialEvent.isLate) = some true := by decide +kernel
  obtain ⟨final, hrun, hany⟩ := Option.map_eq_some_iff.mp hlate
  obtain ⟨event, hevent, hlast⟩ := List.any_eq_true.mp hany
  refine ⟨by decide, ?_, final, hrun, event, hevent, hlast⟩
  intro c hc
  have hdrawn : drawnBy slowLogin = [.challenge "c1"] := rfl
  rw [hdrawn] at hc
  obtain rfl := List.mem_singleton.mp hc
  rfl

end CeremonyState

end Picloud
