import SigningAgent.Lib.Refinement
import SigningAgent.Rest.Response
import SigningAgent.Service.Restart

/-!
# Registering over HTTP (`internal/rest/handler.go`, `internal/util/request.go`)

`POST /register` decodes and checks the body, registers the agent and starts the service; `GET
/client` says who is registered. A request is one call of the machine, one after another, and brings
what the outside answers to it.

* `JsonBody` is what `json.Decoder` makes of a body. An empty body is no error: the empty request
  fails the check of its fields.
* The text of the validator, and what the error of `ActionApprove` is as a Go error, are parameters.
* A panic of the handler ends the connection; then there is no response.

**`client_view`**: what a client of the API can rely on, in every sequence of requests. All
responses that name an agent name the same one, the one in memory; after the first of them nobody
can register any more, and who asks is told its name, if the backend knows it. A response to a
registration that names an agent names the one asked for, and the request had all its fields.
A request that asks for a websocket is answered with an empty 200, which says nothing of this.
-/

namespace SigningAgent.Rest

open Restart Store
open Service hiding Request

/-! ## The request -/

/-- What `json.Decoder` makes of a body. -/
inductive JsonBody where
  | eof
  | invalid (err : String)
  | object (req : AgentRegisterRequest)

/-- The fields that fail `validate:"required"`, in the order of the struct. -/
def missingFields (req : AgentRegisterRequest) : List String :=
  (if req.apiKeyID = "" then ["APIKeyID"] else []) ++
    (if req.secret = "" then ["Secret"] else []) ++
    if req.workspaceID = "" then ["WorkspaceID"] else []

/-- The outside of the handlers. -/
structure Api where
  std : Std
  feedURL : String
  /-- `Error` of the validator, for the fields that failed -/
  validationText : List String → String
  /-- what `ActionApprove` returned -/
  approveError : String → GoError

/-- `DecodeRequest`, of a POST. -/
def decodeRequest (api : Api) (body : JsonBody) : Except GoError AgentRegisterRequest :=
  let check (req : AgentRegisterRequest) : Except GoError AgentRegisterRequest :=
    if missingFields req = [] then .ok req
    else .error (.api .badRequest (api.validationText (missingFields req)))
  match body with
  | .invalid err => .error (.apiAround .badRequest "invalid json" (.text err))
  | .eof => check ⟨"", "", ""⟩
  | .object req => check req

/-! ## The handlers -/

/-- The errors of `RegisterAgent` as Go has them. -/
def registerErrorToGo (api : Api) : RegisterError → GoError
  | .badRequest detail => .api .badRequest detail
  | .internal detail => .api .internal detail
  | .approve err => api.approveError err

/-- A request, with what the outside answers to it. -/
inductive Request where
  | register (headers : Headers) (body : JsonBody) (answers : Answers) (hubRuns : Bool)
  | client (headers : Headers) (name : String → String → Option String)

def Request.headers : Request → Headers
  | .register headers .. => headers
  | .client headers _ => headers

/-- `Router.RegisterAgent`. -/
def registerHandler (api : Api) (body : JsonBody) (answers : Answers) (hubRuns : Bool) (a : Agent) :
    Outcome GoError (Option AgentRegisterResponse) × Agent :=
  match decodeRequest api body with
  | .error e => (.error (.error e), a)
  | .ok req =>
    match registerAgent api.std api.feedURL req answers a with
    | (.error .panic, a) => (.error .panic, a)
    | (.error (.error e), a) => (.error (.error (registerErrorToGo api e)), a)
    | (.ok resp, a) =>
      match start hubRuns a with
      | .error _ => (.error (.error (.api .internal
          "failed to start the agent service. Please restart")), a)
      | .ok () => (.ok (some resp), a)

/-- `Router.GetClient`. -/
def getClientHandler (api : Api) (name : String → String → Option String) (a : Agent) :
    Outcome GoError (Option AgentRegisterResponse) :=
  match getAgentDetails api.feedURL name a with
  | .error .notFound => .error (.error (.api .notFound "agent not registered"))
  | .error .name => .error (.error (.api .internal "failed to get agent name"))
  | .ok details => .ok (some details)

/-- The response to a request, and the agent after it. -/
def handle (api : Api) (q : Request) (a : Agent) :
    Option (Response AgentRegisterResponse) × Agent :=
  match q with
  | .register headers body answers hubRuns =>
    let (result, a) := registerHandler api body answers hubRuns a
    (respond headers result, a)
  | .client headers name => (respond headers (getClientHandler api name a), a)

/-- The API of one agent. -/
def server (api : Api) :
    Refinement.Machine Agent Request (Option (Response AgentRegisterResponse)) :=
  ⟨handle api⟩

section

variable {api : Api} {req : AgentRegisterRequest} {answers : Answers} {a a' : Agent} {α β : Type}

/-! ## What a registration does to the agent in memory -/

theorem bind_eq_ok {x : Reg α} {f : α → Reg β} {v : β} {s t : Agent}
    (h : (x >>= f) s = (.ok v, t)) : ∃ w u, x s = (.ok w, u) ∧ f w u = (.ok v, t) := by
  rw [bind_apply] at h
  rcases hx : x s with ⟨r, u⟩
  rw [hx] at h
  cases r with
  | error e => cases h
  | ok w => exact ⟨w, u, rfl, h⟩

/-- A successful registration answers with the ID of the request, which is the one in memory. -/
theorem registerAgent_ok {resp : AgentRegisterResponse}
    (h : registerAgent api.std api.feedURL req answers a = (.ok resp, a')) :
    (∃ keys, a'.agentInfo = some (newInfo req keys)) ∧ resp.agentID = req.apiKeyID ∧
      resp.feedURL = api.feedURL := by
  obtain ⟨_, _, -, h⟩ := bind_eq_ok h
  obtain ⟨keys, _, -, h⟩ := bind_eq_ok h
  obtain ⟨_, _, -, h⟩ := bind_eq_ok h
  obtain ⟨_, _, -, h⟩ := bind_eq_ok h
  obtain ⟨_, _, -, h⟩ := bind_eq_ok h
  obtain ⟨_, _, -, h⟩ := bind_eq_ok h
  -- the agent is assigned, and what comes after it leaves it
  obtain ⟨_, a1, hassign, h⟩ := bind_eq_ok h
  obtain ⟨_, a2, hsave, h⟩ := bind_eq_ok h
  obtain ⟨name, a3, hname, h⟩ := bind_eq_ok h
  have hassigned : a1.agentInfo = some (newInfo req keys) := by
    obtain ⟨-, rfl⟩ := Prod.mk.inj hassign
    rfl
  have hsaved : a2.agentInfo = a1.agentInfo := by
    unfold saveInfo at hsave
    split at hsave <;> cases hsave
    rfl
  have hnamed : a3.agentInfo = a2.agentInfo := by
    unfold getAgentName at hname
    split at hname
    · cases hname
    · split at hname <;> cases hname
      rfl
  cases h
  exact ⟨⟨keys, hnamed.trans (hsaved.trans hassigned)⟩, rfl, rfl⟩

end

/-! ## One request -/

/-- The response names an agent. -/
def Names (r : Option (Response AgentRegisterResponse)) (d : AgentRegisterResponse) : Prop :=
  ∃ resp, r = some resp ∧ resp.body = some (.value d)

/-- What a request is answered that finds this agent in memory: nobody can register, and who asks
is told the agent, if the backend knows its name. -/
inductive Taken (api : Api) (info : AgentInfo) :
    Request → Option (Response AgentRegisterResponse) → Prop
  | register {headers : Headers} {body : JsonBody} {answers : Answers} {hubRuns : Bool}
      {resp : Response AgentRegisterResponse} : resp.status = 400 →
      Taken api info (.register headers body answers hubRuns) (some resp)
  | named {headers : Headers} {name : String → String → Option String} {n : String}
      {resp : Response AgentRegisterResponse} : name info.workspaceID info.apiKeyID = some n →
      resp.status = 200 → resp.body = some (.value ⟨n, info.apiKeyID, api.feedURL⟩) →
      Taken api info (.client headers name) (some resp)
  | unknown {headers : Headers} {name : String → String → Option String}
      {resp : Response AgentRegisterResponse} : name info.workspaceID info.apiKeyID = none →
      resp.status = 500 → Taken api info (.client headers name) (some resp)

section

variable {api : Api} {q : Request} {a : Agent} {info : AgentInfo} {d : AgentRegisterResponse}

theorem decodeRequest_ok {body : JsonBody} {req : AgentRegisterRequest}
    (h : decodeRequest api body = .ok req) : body = .object req ∧ missingFields req = [] := by
  unfold decodeRequest at h
  cases body with
  | invalid err => cases h
  | eof => cases h
  | object req' =>
    simp only at h
    split at h
    · rename_i hmissing
      cases h
      exact ⟨rfl, hmissing⟩
    · cases h

theorem registerAgent_refuses {req : AgentRegisterRequest} {answers : Answers}
    (h : a.agentInfo = some info) : registerAgent api.std api.feedURL req answers a =
      (.error (.error alreadyRegistered), a) := by
  rw [registerAgent_eq]
  exact bind_error (checkUnregistered_refuses (by simp [h]))

/-- An agent in memory stays there. -/
theorem handle_keeps (h : a.agentInfo = some info) :
    (handle api q a).2.agentInfo = some info := by
  cases q with
  | client headers name => exact h
  | register headers body answers hubRuns =>
    show (registerHandler api body answers hubRuns a).2.agentInfo = _
    unfold registerHandler
    cases decodeRequest api body with
    | error e => exact h
    | ok req =>
      simp only [registerAgent_refuses h]
      exact h

/-- The responses while there is one. -/
theorem taken_handle (h : a.agentInfo = some info) (hup : q.headers.upgrades = false) :
    Taken api info q (handle api q a).1 := by
  cases q with
  | client headers name =>
    have hup : headers.upgrades = false := hup
    show Taken api info _ (respond headers (getClientHandler api name a))
    cases hname : name info.workspaceID info.apiKeyID with
    | none =>
      have hget : getClientHandler api name a =
          .error (.error (.api .internal "failed to get agent name")) := by
        simp only [getClientHandler, getAgentDetails, h, hname]
      obtain ⟨r, hr, hstatus, -⟩ := respond_error (α := AgentRegisterResponse) hup
        (.api .internal "failed to get agent name")
      rw [hget, hr]
      exact .unknown hname hstatus
    | some n =>
      have hget : getClientHandler api name a = .ok (some ⟨n, info.apiKeyID, api.feedURL⟩) := by
        simp only [getClientHandler, getAgentDetails, h, hname]
      obtain ⟨r, hr, hstatus, hbody⟩ := respond_ok hup
        (⟨n, info.apiKeyID, api.feedURL⟩ : AgentRegisterResponse)
      rw [hget, hr]
      exact .named hname hstatus hbody
  | register headers body answers hubRuns =>
    have hup : headers.upgrades = false := hup
    have hblames : ∃ e, (registerHandler api body answers hubRuns a).1 = .error (.error e) ∧
        (toAPIError e).code = .badRequest := by
      unfold registerHandler
      cases hdec : decodeRequest api body with
      | error e =>
        refine ⟨e, rfl, ?_⟩
        unfold decodeRequest at hdec
        cases body with
        | invalid err =>
          cases hdec
          rfl
        | eof | object =>
          simp only at hdec
          split at hdec <;> cases hdec
          rfl
      | ok req => exact ⟨_, by simp only [registerAgent_refuses h]; rfl, rfl⟩
    obtain ⟨e, he, hcode⟩ := hblames
    obtain ⟨r, hr, hstatus, -⟩ := respond_error (α := AgentRegisterResponse) hup e
    show Taken api info _ (respond headers (registerHandler api body answers hubRuns a).1)
    rw [he, hr]
    exact .register (hstatus.trans (by rw [hcode]; rfl))

/-- A response that names an agent names the one that is then in memory. -/
theorem names_handle (h : Names (handle api q a).1 d) :
    (∃ info, (handle api q a).2.agentInfo = some info ∧ d.agentID = info.apiKeyID ∧
      d.feedURL = api.feedURL) ∧
    ∀ headers body answers hubRuns, q = .register headers body answers hubRuns →
      ∃ req, body = .object req ∧ missingFields req = [] ∧ d.agentID = req.apiKeyID := by
  obtain ⟨resp, hr, hv⟩ := h
  cases q with
  | client headers name =>
    have hok : getClientHandler api name a = .ok (some d) := respond_value hr hv
    refine ⟨?_, fun _ _ _ _ hq => by cases hq⟩
    unfold getClientHandler getAgentDetails at hok
    cases hinfo : a.agentInfo with
    | none => simp [hinfo] at hok
    | some info =>
      cases hname : name info.workspaceID info.apiKeyID with
      | none => simp [hinfo, hname] at hok
      | some n =>
        simp only [hinfo, hname, Except.ok.injEq, Option.some.injEq] at hok
        subst hok
        exact ⟨info, hinfo, rfl, rfl⟩
  | register headers body answers hubRuns =>
    have hok : (registerHandler api body answers hubRuns a).1 = .ok (some d) := respond_value hr hv
    show (∃ info, (registerHandler api body answers hubRuns a).2.agentInfo = _ ∧ _) ∧ _
    unfold registerHandler at hok ⊢
    cases hdec : decodeRequest api body with
    | error e => simp [hdec] at hok
    | ok req =>
      obtain ⟨hbody, hmissing⟩ := decodeRequest_ok hdec
      rcases hreg : registerAgent api.std api.feedURL req answers a with ⟨r, a'⟩
      cases r with
      | error e => cases e <;> simp [hdec, hreg] at hok
      | ok resp' =>
        obtain ⟨⟨keys, hinfo⟩, hid, hfeed⟩ := registerAgent_ok hreg
        cases hstart : start hubRuns a' with
        | error e => simp [hdec, hreg, hstart] at hok
        | ok u =>
          simp only [hdec, hreg, hstart, Except.ok.injEq, Option.some.injEq] at hok ⊢
          subst hok
          refine ⟨⟨_, hinfo, hid, hfeed⟩, ?_⟩
          rintro _ _ _ _ ⟨⟩
          exact ⟨req, hbody, hmissing, hid⟩

end

/-! ## All requests -/

section

variable {api : Api} {info : AgentInfo}

/-- The requests that find an agent, and the agent after them. -/
theorem taken_run : ∀ {qs : List Request} {a : Agent}, a.agentInfo = some info →
    ((server api).run qs a).2.agentInfo = some info ∧
    ∀ (j : Nat) (q : Request) (r : Option (Response AgentRegisterResponse)), qs[j]? = some q →
      ((server api).run qs a).1[j]? = some r → q.headers.upgrades = false → Taken api info q r
  | [], a, h => ⟨h, fun j q r hq => by simp at hq⟩
  | q :: qs, a, h => by
    have hstays : (handle api q a).2.agentInfo = some info := handle_keeps h
    obtain ⟨hlast, hall⟩ := @taken_run qs _ hstays
    refine ⟨hlast, fun j q' r hq hr hup => ?_⟩
    cases j with
    | zero =>
      obtain rfl : q = q' := Option.some.inj hq
      obtain rfl := Option.some.inj hr
      exact taken_handle h hup
    | succ j => exact hall j q' r hq hr hup

/-- **What a client of the API can rely on**, in every sequence of requests from every state. What
is said of later requests is said of those that do not ask for a websocket. -/
theorem client_view (api : Api) : ∀ (qs : List Request) (a : Agent),
    (∀ (i : Nat) (r : Option (Response AgentRegisterResponse)) (d : AgentRegisterResponse),
      ((server api).run qs a).1[i]? = some r → Names r d →
        ∃ info, ((server api).run qs a).2.agentInfo = some info ∧ d.agentID = info.apiKeyID ∧
          d.feedURL = api.feedURL ∧
          ∀ (j : Nat) (q : Request) (r' : Option (Response AgentRegisterResponse)), i < j →
            qs[j]? = some q → ((server api).run qs a).1[j]? = some r' →
            q.headers.upgrades = false → Taken api info q r') ∧
    ∀ (i : Nat) (headers : Headers) (body : JsonBody) (answers : Answers) (hubRuns : Bool)
      (r : Option (Response AgentRegisterResponse)) (d : AgentRegisterResponse),
      qs[i]? = some (.register headers body answers hubRuns) →
        ((server api).run qs a).1[i]? = some r → Names r d →
        ∃ req, body = .object req ∧ missingFields req = [] ∧ d.agentID = req.apiKeyID
  | [], a => ⟨fun i r d hr => by simp [Refinement.Machine.run] at hr,
      fun i _ _ _ _ r d hq => by simp at hq⟩
  | q :: qs, a => by
    obtain ⟨hnames, hreg⟩ := client_view api qs (handle api q a).2
    refine ⟨fun i r d hr hn => ?_, fun i headers body answers hubRuns r d hq hr hn => ?_⟩
    · cases i with
      | zero =>
        obtain rfl : (handle api q a).1 = r := Option.some.inj hr
        obtain ⟨⟨info, hinfo, hid, hfeed⟩, -⟩ := names_handle hn
        obtain ⟨hlast, hall⟩ := @taken_run api info qs _ hinfo
        refine ⟨info, hlast, hid, hfeed, fun j q' r' hij hq' hr' hup => ?_⟩
        cases j with
        | zero => exact absurd hij (Nat.lt_irrefl 0)
        | succ j => exact hall j q' r' hq' hr' hup
      | succ i =>
        obtain ⟨info, hinfo, hid, hfeed, hall⟩ := hnames i r d hr hn
        refine ⟨info, hinfo, hid, hfeed, fun j q' r' hij hq' hr' hup => ?_⟩
        cases j with
        | zero => exact absurd hij (Nat.not_lt_zero _)
        | succ j => exact hall j q' r' (Nat.lt_of_succ_lt_succ hij) hq' hr' hup
    · cases i with
      | zero =>
        obtain rfl := Option.some.inj hr
        exact (names_handle hn).2 headers body answers hubRuns (Option.some.inj hq)
      | succ i => exact hreg i headers body answers hubRuns r d hq hr hn

end

end SigningAgent.Rest
