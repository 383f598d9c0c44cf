import Picloud.Iam.Passkeys

/-!
# Device flows

Reference: `begin_device_flow`, `poll_device_flow` and `complete_device_flow` of
`picloud-iam/src/implementation.rs`.

A poll leaves the flow as it is, and a completion writes over an earlier one. So a code delivers its token
to every poll, and after a second completion a token of another identity (`not_oneLogin_twice`). In runs
in which nobody completes a flow for a second identity or polls it again behind a delivery, a code is
bound to one login (`oneLogin_of_meet`).
-/

namespace Picloud

open Lib

/-! ## Flows -/

/-- `PendingDeviceFlow`. -/
structure PendingDeviceFlow where
  expiresAt : ℤ
  completedToken : Option AccessToken
  identityIri : Option ResourceIri

/-- `DeviceFlowResponse`. -/
structure DeviceFlowResponse where
  deviceCode : String
  verificationUrl : String
  intervalSecs : ℕ
  expiresInSecs : ℕ
deriving DecidableEq

/-- `DeviceFlowPollResult`. -/
inductive DeviceFlowPollResult where
  | pending
  | complete (accessToken : AccessToken) (tokenType : String) (expiresIn : ℤ)
  | expired
deriving DecidableEq

/-- `LocalIdentityProvider`, with its device flows. -/
structure DeviceProvider where
  core : LocalIdentityProvider
  pendingDeviceFlows : String → Option PendingDeviceFlow

/-- The time to live of a device code. -/
def deviceCodeSecs : ℕ := 600

namespace DeviceProvider

variable (env : IamEnv) (prov : DeviceProvider)

/-- Write a flow. -/
def setFlow (code : String) (flow : PendingDeviceFlow) : DeviceProvider :=
  { prov with pendingDeviceFlows := Function.update prov.pendingDeviceFlows code (some flow) }

/-- `begin_device_flow`, where the code has been drawn. -/
def beginDeviceFlow (now : ℤ) (code : String) : DeviceFlowResponse × DeviceProvider :=
  (⟨code, "https://" ++ env.iris.domain ++ "/auth/device?code=" ++ code, 5, deviceCodeSecs⟩,
    prov.setFlow code ⟨now + deviceCodeSecs, none, none⟩)

/-- `poll_device_flow`. -/
def pollDeviceFlow (now : ℤ) (code : String) : Except PasskeyError DeviceFlowPollResult :=
  match prov.pendingDeviceFlows code with
  | none => .error ⟨"unknown device code"⟩
  | some flow =>
    if now ≥ flow.expiresAt then .ok .expired
    else
      match flow.completedToken with
      | some token => .ok (.complete token "Bearer" env.tokenTtlSecs)
      | none => .ok .pending

/-- `complete_device_flow`: the token is issued before the flows are locked. -/
def completeDeviceFlow (issuedAt now : ℤ) (code : String) (identityIri : ResourceIri) :
    Except PasskeyError Unit × DeviceProvider :=
  let token := prov.core.issueToken env issuedAt identityIri none
  match prov.pendingDeviceFlows code with
  | none => (.error ⟨"unknown device code"⟩, prov)
  | some flow =>
    if now ≥ flow.expiresAt then (.error ⟨"device code has expired"⟩, prov)
    else
      (.ok (), prov.setFlow code
        { flow with completedToken := some token, identityIri := some identityIri })

theorem flow_setFlow (code code' : String) (flow : PendingDeviceFlow) :
    (prov.setFlow code flow).pendingDeviceFlows code' =
      if code' = code then some flow else prov.pendingDeviceFlows code' :=
  Function.update_apply prov.pendingDeviceFlows code (some flow) code'

end DeviceProvider

/-! ## Runs -/

/-- A call, with the time at which it is made, and for a new flow the code that is drawn. -/
inductive DeviceCall where
  | begin (now : ℤ) (code : String)
  | complete (issuedAt now : ℤ) (code : String) (identityIri : ResourceIri)
  | poll (now : ℤ) (code : String)

/-- What has come of the calls: flows that began, successful completions, and delivered tokens. -/
inductive DeviceEvent where
  | begun (code : String) (expiresAt : ℤ)
  | completed (code : String) (identityIri : ResourceIri)
  | delivered (code : String) (now : ℤ) (token : AccessToken)
deriving DecidableEq

/-- A provider in a run, with what has happened. -/
structure DeviceRun where
  prov : DeviceProvider
  log : List DeviceEvent

namespace DeviceRun

variable (env : IamEnv) (s : DeviceRun)

/-- What a call leads to. -/
def step : DeviceCall → Option DeviceRun
  | .begin now code =>
    some ⟨(s.prov.beginDeviceFlow env now code).2, s.log ++ [.begun code (now + deviceCodeSecs)]⟩
  | .complete issuedAt now code identityIri =>
    let (result, prov) := s.prov.completeDeviceFlow env issuedAt now code identityIri
    some ⟨prov, s.log ++ if result = .ok () then [.completed code identityIri] else []⟩
  | .poll now code => some ⟨s.prov, s.log ++
      match s.prov.pollDeviceFlow env now code with
      | .ok (.complete token _ _) => [.delivered code now token]
      | _ => []⟩

/-- A provider without flows. -/
def new (core : LocalIdentityProvider) : DeviceRun := ⟨⟨core, fun _ => none⟩, []⟩

end DeviceRun

/-- The identity of the first successful completion. -/
def firstLogin (code : String) (log : List DeviceEvent) : Option ResourceIri :=
  log.findSome? fun
    | .completed code' identityIri => if code' = code then some identityIri else none
    | _ => none

/-- How often a code has delivered a token. -/
def deliveries (code : String) (log : List DeviceEvent) : ℕ :=
  log.countP fun
    | .delivered code' _ _ => code' = code
    | _ => false

/-- A code is bound to one login: its tokens name the identity of the first completion, it delivers none
at its expiry or later, and at most one. -/
structure OneLogin (log : List DeviceEvent) : Prop where
  identity : ∀ code now token, .delivered code now token ∈ log →
    ∃ identityIri, firstLogin code log = some identityIri ∧ token.claims.identityIri = identityIri.value
  expiry : ∀ code now token expiresAt, .delivered code now token ∈ log → .begun code expiresAt ∈ log →
    now < expiresAt
  once : ∀ code, deliveries code log ≤ 1

/-- The code that is drawn is new, a flow is completed for one identity only, and what has been delivered
is not polled again before it expires. -/
def DeviceCall.Orderly (s : DeviceRun) : DeviceCall → Prop
  | .begin _ code => s.prov.pendingDeviceFlows code = none
  | .complete _ now code identityIri => ∀ flow, s.prov.pendingDeviceFlows code = some flow →
      now < flow.expiresAt → ∀ earlier, flow.identityIri = some earlier → earlier = identityIri
  | .poll now code => ∀ flow, s.prov.pendingDeviceFlows code = some flow → now < flow.expiresAt →
      deliveries code s.log = 0

/-! ## What an event adds -/

/-- The code that an event is about. -/
def DeviceEvent.code : DeviceEvent → String
  | .begun code _ | .completed code _ | .delivered code _ _ => code

section Log

variable {log : List DeviceEvent} {event : DeviceEvent} {code : String} {now : ℤ} {token : AccessToken}

theorem firstLogin_append (code : String) (log log' : List DeviceEvent) :
    firstLogin code (log ++ log') = (firstLogin code log).or (firstLogin code log') :=
  List.findSome?_append

/-- A code that has not occurred has no login. -/
theorem firstLogin_eq_none (h : ∀ event ∈ log, event.code ≠ code) : firstLogin code log = none := by
  refine List.findSome?_eq_none_iff.mpr fun event hevent => ?_
  cases event with
  | completed code' identityIri => exact if_neg (h _ hevent)
  | _ => rfl

theorem deliveries_append (code : String) (log log' : List DeviceEvent) :
    deliveries code (log ++ log') = deliveries code log + deliveries code log' := List.countP_append

/-- The first login stays when an event is added. -/
theorem firstLogin_append_of_some {identityIri : ResourceIri} (h : firstLogin code log = some identityIri)
    (log' : List DeviceEvent) : firstLogin code (log ++ log') = some identityIri := by
  rw [firstLogin_append, h, Option.some_or]

/-- An event that is no delivery, and no begin of a flow that has delivered. -/
theorem OneLogin.append (h : OneLogin log)
    (hbegun : ∀ code expiresAt, event = .begun code expiresAt →
      ∀ now token, .delivered code now token ∉ log)
    (hsilent : ∀ code now token, event ≠ .delivered code now token) : OneLogin (log ++ [event]) where
  identity code now token hmem := by
    rcases List.mem_append.mp hmem with hmem | hmem
    · obtain ⟨identityIri, hfirst, hname⟩ := h.identity code now token hmem
      exact ⟨identityIri, firstLogin_append_of_some hfirst _, hname⟩
    · exact absurd (List.mem_singleton.mp hmem).symm (hsilent code now token)
  expiry code now token expiresAt hmem hbegan := by
    rcases List.mem_append.mp hmem with hmem | hmem
    · rcases List.mem_append.mp hbegan with hbegan | hbegan
      · exact h.expiry code now token expiresAt hmem hbegan
      · exact absurd hmem (hbegun code expiresAt (List.mem_singleton.mp hbegan).symm now token)
    · exact absurd (List.mem_singleton.mp hmem).symm (hsilent code now token)
  once code := by
    have hzero : deliveries code [event] = 0 := by
      cases event with
      | delivered code now token => exact absurd rfl (hsilent code now token)
      | _ => rfl
    rw [deliveries_append, hzero]
    exact h.once code

/-- A delivery of a token of the first login, before the expiry, when there was none before. -/
theorem OneLogin.deliver (h : OneLogin log)
    (hlogin : ∃ identityIri, firstLogin code log = some identityIri ∧
      token.claims.identityIri = identityIri.value)
    (hexpiry : ∀ expiresAt, .begun code expiresAt ∈ log → now < expiresAt)
    (hnone : deliveries code log = 0) : OneLogin (log ++ [.delivered code now token]) where
  identity code' now' token' hmem := by
    rcases List.mem_append.mp hmem with hmem | hmem
    · obtain ⟨identityIri, hfirst, hname⟩ := h.identity code' now' token' hmem
      exact ⟨identityIri, firstLogin_append_of_some hfirst _, hname⟩
    · cases List.mem_singleton.mp hmem
      obtain ⟨identityIri, hfirst, hname⟩ := hlogin
      exact ⟨identityIri, firstLogin_append_of_some hfirst _, hname⟩
  expiry code' now' token' expiresAt hmem hbegan := by
    rcases List.mem_append.mp hbegan with hbegan | hbegan
    · rcases List.mem_append.mp hmem with hmem | hmem
      · exact h.expiry code' now' token' expiresAt hmem hbegan
      · cases List.mem_singleton.mp hmem
        exact hexpiry expiresAt hbegan
    · cases List.mem_singleton.mp hbegan
  once code' := by
    rw [deliveries_append]
    by_cases hcode : code = code'
    · have hone : deliveries code' [.delivered code now token] = 1 := by simp [deliveries, hcode]
      rw [hone, ← hcode, hnone]
    · have hzero : deliveries code' [.delivered code now token] = 0 := by simp [deliveries, hcode]
      rw [hzero]
      exact h.once code'

end Log

/-! ## Runs -/

namespace DeviceRun

variable {env : IamEnv} {s s' : DeviceRun} {call : DeviceCall}

/-- The flows are those of the log, and the log is one of single logins. -/
structure Bound (s : DeviceRun) : Prop where
  login : ∀ code flow, s.prov.pendingDeviceFlows code = some flow →
    firstLogin code s.log = flow.identityIri
  token : ∀ code flow token, s.prov.pendingDeviceFlows code = some flow →
    flow.completedToken = some token →
    ∃ identityIri, flow.identityIri = some identityIri ∧ token.claims.identityIri = identityIri.value
  begun : ∀ code expiresAt, .begun code expiresAt ∈ s.log →
    ∃ flow, s.prov.pendingDeviceFlows code = some flow ∧ flow.expiresAt = expiresAt
  absent : ∀ code, s.prov.pendingDeviceFlows code = none → ∀ event ∈ s.log, event.code ≠ code
  log : OneLogin s.log

theorem bound_new (core : LocalIdentityProvider) : Bound (.new core) where
  login _ _ h := by cases h
  token _ _ _ h := by cases h
  begun _ _ h := absurd h List.not_mem_nil
  absent _ _ _ h := absurd h List.not_mem_nil
  log := ⟨fun _ _ _ h => absurd h List.not_mem_nil, fun _ _ _ _ h => absurd h List.not_mem_nil,
    fun _ => Nat.zero_le 1⟩

variable {code : String} {flow : PendingDeviceFlow}

/-- A flow is written, and an event of its code is added. -/
theorem Bound.setFlow (h : Bound s) {event : DeviceEvent} (hcode : event.code = code)
    (hlogin : firstLogin code (s.log ++ [event]) = flow.identityIri)
    (hother : ∀ code', code' ≠ code → firstLogin code' [event] = none)
    (htoken : ∀ token, flow.completedToken = some token →
      ∃ identityIri, flow.identityIri = some identityIri ∧ token.claims.identityIri = identityIri.value)
    (hbegun : ∀ code' expiresAt, .begun code' expiresAt ∈ s.log ++ [event] → code' = code →
      flow.expiresAt = expiresAt) (hlog : OneLogin (s.log ++ [event])) :
    Bound ⟨s.prov.setFlow code flow, s.log ++ [event]⟩ where
  login code' flow' hflow' := by
    dsimp only at hflow'
    rw [DeviceProvider.flow_setFlow] at hflow'
    split_ifs at hflow' with hsame
    · cases hflow'
      rw [hsame]
      exact hlogin
    · rw [firstLogin_append, hother code' hsame, Option.or_none]
      exact h.login code' flow' hflow'
  token code' flow' token hflow' := by
    dsimp only at hflow'
    rw [DeviceProvider.flow_setFlow] at hflow'
    split_ifs at hflow' with hsame
    · cases hflow'
      exact htoken token
    · exact h.token code' flow' token hflow'
  begun code' expiresAt hmem := by
    dsimp only
    rw [DeviceProvider.flow_setFlow]
    split_ifs with hsame
    · exact ⟨flow, rfl, hbegun code' expiresAt hmem hsame⟩
    · rcases List.mem_append.mp hmem with hmem | hmem
      · exact h.begun code' expiresAt hmem
      · cases List.mem_singleton.mp hmem
        exact absurd hcode hsame
  absent code' hnone event' hmem := by
    dsimp only at hnone
    rw [DeviceProvider.flow_setFlow] at hnone
    split_ifs at hnone with hsame
    rcases List.mem_append.mp hmem with hmem | hmem
    · exact h.absent code' hnone event' hmem
    · cases List.mem_singleton.mp hmem
      rw [hcode]
      exact Ne.symm hsame
  log := hlog

theorem Bound.beginDeviceFlow (h : Bound s) {now : ℤ} (hnew : s.prov.pendingDeviceFlows code = none) :
    Bound ⟨(s.prov.beginDeviceFlow env now code).2, s.log ++ [.begun code (now + deviceCodeSecs)]⟩ := by
  have habsent := h.absent code hnew
  refine h.setFlow rfl ?_ (fun _ _ => rfl) (fun _ htoken => by cases htoken) ?_ ?_
  · rw [firstLogin_append, firstLogin_eq_none habsent]
    rfl
  · rintro code' expiresAt hmem rfl
    rcases List.mem_append.mp hmem with hmem | hmem
    · exact absurd rfl (habsent _ hmem)
    · cases List.mem_singleton.mp hmem
      rfl
  · refine h.log.append ?_ (fun _ _ _ hevent => by cases hevent)
    rintro code' expiresAt hevent now' token hmem
    cases hevent
    exact habsent _ hmem rfl

theorem Bound.completeDeviceFlow (h : Bound s) {issuedAt : ℤ} {identityIri : ResourceIri}
    (hflow : s.prov.pendingDeviceFlows code = some flow)
    (hsame : ∀ earlier, flow.identityIri = some earlier → earlier = identityIri) :
    Bound ⟨s.prov.setFlow code { flow with
      completedToken := some (s.prov.core.issueToken env issuedAt identityIri none)
      identityIri := some identityIri }, s.log ++ [.completed code identityIri]⟩ := by
  refine h.setFlow rfl ?_ (fun code' hne => ?_) (fun token htoken => ?_) ?_ ?_
  · have hlast : firstLogin code [.completed code identityIri] = some identityIri := by simp [firstLogin]
    rw [firstLogin_append, h.login code flow hflow, hlast]
    cases hidentity : flow.identityIri with
    | none => rfl
    | some earlier => rw [hsame earlier hidentity, Option.some_or]
  · simp [firstLogin, Ne.symm hne]
  · cases htoken
    exact ⟨identityIri, rfl, rfl⟩
  · rintro code' expiresAt hmem rfl
    rcases List.mem_append.mp hmem with hmem | hmem
    · obtain ⟨flow', hflow', hexpires⟩ := h.begun code' expiresAt hmem
      cases hflow.symm.trans hflow'
      exact hexpires
    · cases List.mem_singleton.mp hmem
  · exact h.log.append (fun _ _ hevent => by cases hevent) (fun _ _ _ hevent => by cases hevent)

theorem Bound.deliver (h : Bound s) {now : ℤ} {token : AccessToken}
    (hflow : s.prov.pendingDeviceFlows code = some flow) (htoken : flow.completedToken = some token)
    (hnow : now < flow.expiresAt) (hnone : deliveries code s.log = 0) :
    Bound ⟨s.prov, s.log ++ [.delivered code now token]⟩ where
  login code' flow' hflow' := by
    rw [firstLogin_append, h.login code' flow' hflow']
    exact Option.or_none
  token := h.token
  begun code' expiresAt hmem := by
    rcases List.mem_append.mp hmem with hmem | hmem
    · exact h.begun code' expiresAt hmem
    · cases List.mem_singleton.mp hmem
  absent code' habsent event hmem := by
    rcases List.mem_append.mp hmem with hmem | hmem
    · exact h.absent code' habsent event hmem
    · cases List.mem_singleton.mp hmem
      rintro rfl
      rw [DeviceEvent.code, hflow] at habsent
      cases habsent
  log := by
    obtain ⟨identityIri, hidentity, hname⟩ := h.token code flow token hflow htoken
    refine h.log.deliver ⟨identityIri, (h.login code flow hflow).trans hidentity, hname⟩ ?_ hnone
    intro expiresAt hmem
    obtain ⟨flow', hflow', rfl⟩ := h.begun code expiresAt hmem
    cases hflow.symm.trans hflow'
    exact hnow

theorem bound_step (h : Bound s) (horderly : call.Orderly s) (hstep : s.step env call = some s') :
    Bound s' := by
  have hsilent : Bound ⟨s.prov, s.log ++ []⟩ := by rwa [List.append_nil]
  cases call with
  | begin now code =>
    cases hstep
    exact h.beginDeviceFlow horderly
  | complete issuedAt now code identityIri =>
    cases hstep
    cases hflow : s.prov.pendingDeviceFlows code with
    | none => exact hsilent
    | some flow =>
      by_cases hexpired : now ≥ flow.expiresAt
      · simp only [if_pos hexpired]
        exact hsilent
      · simp only [if_neg hexpired, if_true]
        exact h.completeDeviceFlow hflow (horderly flow hflow (not_le.mp hexpired))
  | poll now code =>
    cases hstep
    rw [DeviceProvider.pollDeviceFlow]
    cases hflow : s.prov.pendingDeviceFlows code with
    | none => exact hsilent
    | some flow =>
      dsimp only
      split_ifs with hexpired
      · exact hsilent
      · cases htoken : flow.completedToken with
        | none => exact hsilent
        | some token =>
          exact h.deliver hflow htoken (not_le.mp hexpired) (horderly flow hflow (not_le.mp hexpired))

/-- **In orderly runs a code is bound to one login.** -/
theorem oneLogin_of_meet (env : IamEnv) (core : LocalIdentityProvider) (calls : List DeviceCall)
    (final : DeviceRun) (hmeet : StepsMeet (step env) (fun s call => call.Orderly s) (.new core) calls)
    (hrun : runSteps (step env) (.new core) calls = some final) : OneLogin final.log :=
  (runSteps_invariant (step env) (fun _ _ _ h horderly hstep => bound_step h horderly hstep) calls _ final
    (bound_new core) hmeet hrun).log

/-- Alice signs in at her code, and the token is delivered. -/
def aliceSignsIn : List DeviceCall :=
  [.begin 0 "code", .complete 5 5 "code" ⟨"https://picloud.local/platform/identities/alice"⟩, .poll 10 "code"]

theorem oneLogin_aliceSignsIn : ∃ final,
    runSteps (step LocalIdentityProvider.sampleIam) (.new (.new (fun _ => none) [])) aliceSignsIn =
      some final ∧ deliveries "code" final.log = 1 ∧ OneLogin final.log := by
  refine ⟨_, rfl, by decide +kernel, oneLogin_of_meet LocalIdentityProvider.sampleIam _ aliceSignsIn _
    ⟨rfl, ?_, ?_, trivial⟩ rfl⟩
  · intro flow hflow _ earlier hearlier
    cases hflow
    cases hearlier
  · intro flow _ _
    rfl

/-- Bob completes the flow of Alice behind the delivery, and his token is delivered too. -/
theorem not_oneLogin_twice : ∃ final,
    runSteps (step LocalIdentityProvider.sampleIam) (.new (.new (fun _ => none) [])) (aliceSignsIn ++
      [.complete 15 15 "code" ⟨"https://picloud.local/platform/identities/bob"⟩, .poll 20 "code"]) =
      some final ∧ ¬ OneLogin final.log := by
  refine ⟨_, rfl, fun h => ?_⟩
  have honce := h.once "code"
  revert honce
  decide +kernel

end DeviceRun

end Picloud
