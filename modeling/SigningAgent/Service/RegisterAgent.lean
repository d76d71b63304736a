import SigningAgent.Auth.HeaderProvider
import SigningAgent.Store.AgentStore

/-!
# Registration (`internal/service/agent_service.go`, `RegisterAgent`)

`registerAgent` runs the calls of the source in its order, on the state they change: the field
`agentInfo`, the header provider, the signer's key and the key-value store.

* What the outside answers is in `Answers`, as functions of what is sent: the random source behind
  the keys, the token server, the PUT of the API key, the signer's backend, the store's two `Set`
  calls and the GET of the agent name.
* A call is a function of the state that returns a result and the state it leaves, also when it
  fails (`Reg`); a `do` block stops at the first failure.
* `Std` holds what the model takes from the standard library: the two base64 decoders and the
  JSON encoding of `AgentInfo`.

Results:
* **`register_failure_iff`**: a failed registration leaves the agent unregistered (`agentInfo`, the
  store's answer, the number of refresh loops, and no later refusal) exactly if the keys or the
  token already failed, or nothing failed at all.
* `register_leaks`: any failure after that. The loop of `Initiate` keeps running, and from
  `SaveAgentInfo` on `agentInfo` is set as well, so that the agent is registered in memory only.
-/

namespace SigningAgent.Service

open Auth Store

/-- The parts of the standard library the registration uses. -/
structure Std where
  decodeStd : String → Option Bytes
  decodeRawURL : String → Bytes
  json : Json

/-- `api.AgentRegisterRequest`. -/
structure AgentRegisterRequest where
  apiKeyID : String
  secret : String
  workspaceID : String
  deriving DecidableEq, Repr

/-- `api.AgentRegisterResponse`. -/
structure AgentRegisterResponse where
  name : String
  agentID : String
  feedURL : String
  deriving DecidableEq, Repr

/-- What `genKeysFunc` returns. -/
structure Keys where
  blsKeyPub : String
  blsKeyPriv : String
  ecKeyPub : String
  ecKeyPriv : String
  deriving DecidableEq, Repr

/-- The PUT of the API key: its URL's parts and its body. -/
structure PutAPIKey where
  apiKeyID : String
  workspaceID : String
  blsPublicKey : String
  ecPublicKey : String
  deriving DecidableEq, Repr

/-- The state that `RegisterAgent` works on. -/
structure Agent where
  agentInfo : Option AgentInfo
  provider : Provider
  blsPrivateKey : Bytes
  kv : KV

/-- The errors of `RegisterAgent`: an `APIError` with its detail, or what `ActionApprove`
returned. -/
inductive RegisterError where
  | badRequest (detail : String)
  | internal (detail : String)
  | approve (err : String)
  deriving DecidableEq, Repr

/-- What the outside answers during one registration. -/
structure Answers where
  genKeys : Option Keys
  token : TokenAnswer
  put : PutAPIKey → Option String
  approve : String → Option String
  sets : SetAnswers
  name : String → String → Option String

/-- A call that may fail, with the state it leaves. -/
def Reg (α : Type) := Agent → Outcome RegisterError α × Agent

instance : Monad Reg where
  pure a := fun s => (.ok a, s)
  bind x f := fun s =>
    match x s with
    | (.ok a, s) => f a s
    | (.error e, s) => (.error e, s)

/-! ## The calls -/

def alreadyRegistered : RegisterError := .badRequest "signing agent already registered"

/-- `if a.agentInfo != nil { … }` -/
def checkUnregistered : Reg Unit := fun s =>
  if s.agentInfo.isSome then (.error (.error alreadyRegistered), s) else (.ok (), s)

def genKeys (answers : Answers) : Reg Keys := fun s =>
  match answers.genKeys with
  | some keys => (.ok keys, s)
  | none => (.error (.error (.internal "failed to generate keys")), s)

/-- `a.authProvider.Initiate(req.WorkspaceID, req.Secret, req.APIKeyID)`. -/
def initiateProvider (std : Std) (req : AgentRegisterRequest) (answers : Answers) : Reg Unit :=
  fun s =>
  match initiate std.decodeRawURL req.workspaceID req.secret req.apiKeyID answers.token
    s.provider with
  | (.ok (), p) => (.ok (), { s with provider := p })
  | (.error .panic, p) => (.error .panic, { s with provider := p })
  | (.error (.error _), p) =>
    (.error (.error (.internal "failed to initiate the auth provider")), { s with provider := p })

/-- `updateAPIKey`. -/
def updateAPIKey (req : AgentRegisterRequest) (keys : Keys) (answers : Answers) : Reg String :=
  fun s =>
  match answers.put ⟨req.apiKeyID, req.workspaceID, keys.blsKeyPub, keys.ecKeyPub⟩ with
  | some actionID => (.ok actionID, s)
  | none => (.error (.error (.internal "failed to register agent")), s)

/-- `actionSigner.SetKey`. -/
def setKey (std : Std) (keys : Keys) : Reg Unit := fun s =>
  match std.decodeStd keys.blsKeyPriv with
  | some data => (.ok (), { s with blsPrivateKey := data })
  | none => (.error (.error (.internal "failed to setup signer")), s)

def actionApprove (actionID : String) (answers : Answers) : Reg Unit := fun s =>
  match answers.approve actionID with
  | none => (.ok (), s)
  | some err => (.error (.error (.approve err)), s)

/-- The `AgentInfo` of a request and its keys. -/
def newInfo (req : AgentRegisterRequest) (keys : Keys) : AgentInfo where
  blsPrivateKey := keys.blsKeyPriv
  ecPrivateKey := keys.ecKeyPriv
  workspaceID := req.workspaceID
  apiKeyID := req.apiKeyID
  apiKeySecret := req.secret

/-- `a.agentInfo = &store.AgentInfo{…}` -/
def assignInfo (req : AgentRegisterRequest) (keys : Keys) : Reg Unit := fun s =>
  (.ok (), { s with agentInfo := some (newInfo req keys) })

/-- `a.store.SaveAgentInfo(req.APIKeyID, a.agentInfo)`. -/
def saveInfo (std : Std) (req : AgentRegisterRequest) (answers : Answers) : Reg Unit := fun s =>
  match saveAgentInfo std.json req.apiKeyID s.agentInfo answers.sets s.kv with
  | (.ok (), kv) => (.ok (), { s with kv := kv })
  | (.error _, kv) => (.error (.error (.internal "failed to save agent info")), { s with kv := kv })

/-- `getAgentName`; it dereferences `a.agentInfo`. -/
def getAgentName (answers : Answers) : Reg String := fun s =>
  match s.agentInfo with
  | none => (.error .panic, s)
  | some info =>
    match answers.name info.workspaceID info.apiKeyID with
    | some name => (.ok name, s)
    | none => (.error (.error (.internal "failed to get agent name")), s)

/-- `RegisterAgent`. -/
def registerAgent (std : Std) (feedURL : String) (req : AgentRegisterRequest) (answers : Answers) :
    Reg AgentRegisterResponse := do
  checkUnregistered
  let keys ← genKeys answers
  initiateProvider std req answers
  let actionID ← updateAPIKey req keys answers
  setKey std keys
  actionApprove actionID answers
  assignInfo req keys
  saveInfo std req answers
  let name ← getAgentName answers
  pure ⟨name, req.apiKeyID, feedURL⟩

/-! ## Running the calls -/

section

variable {α β : Type} {std : Std} {req : AgentRegisterRequest} {answers : Answers} {keys : Keys}
  {feedURL : String} {s t : Agent}

theorem bind_apply (x : Reg α) (f : α → Reg β) (s : Agent) :
    (x >>= f) s = match x s with
      | (.ok a, s) => f a s
      | (.error e, s) => (.error e, s) := rfl

theorem bind_ok {x : Reg α} {f : α → Reg β} {a : α} (h : x s = (.ok a, t)) :
    (x >>= f) s = f a t := by
  rw [bind_apply, h]

theorem bind_error {x : Reg α} {f : α → Reg β} {e : Fault RegisterError}
    (h : x s = (.error e, t)) : (x >>= f) s = (.error e, t) := by
  rw [bind_apply, h]

/-- What `RegisterAgent` does once `Initiate` has returned nil. -/
def afterInitiate (std : Std) (feedURL : String) (req : AgentRegisterRequest) (answers : Answers)
    (keys : Keys) : Reg AgentRegisterResponse := do
  let actionID ← updateAPIKey req keys answers
  setKey std keys
  actionApprove actionID answers
  assignInfo req keys
  saveInfo std req answers
  let name ← getAgentName answers
  pure ⟨name, req.apiKeyID, feedURL⟩

theorem registerAgent_eq : registerAgent std feedURL req answers = (do
    checkUnregistered
    let keys ← genKeys answers
    initiateProvider std req answers
    afterInitiate std feedURL req answers keys) := rfl

theorem checkUnregistered_ok (h : s.agentInfo = none) : checkUnregistered s = (.ok (), s) := by
  unfold checkUnregistered
  rw [if_neg (by simp [h])]

/-- Whatever is registered, the request is refused. -/
theorem checkUnregistered_refuses (h : s.agentInfo ≠ none) :
    checkUnregistered s = (.error (.error alreadyRegistered), s) := by
  unfold checkUnregistered
  rw [if_pos (Option.isSome_iff_ne_none.mpr h)]

theorem genKeys_ok (h : answers.genKeys = some keys) : genKeys answers s = (.ok keys, s) := by
  unfold genKeys
  rw [h]

/-- With a valid token one more loop runs, on the credentials of the request. -/
theorem initiateProvider_of_valid (h : answers.token.valid = true) :
    ∃ p, initiateProvider std req answers s = (.ok (), { s with provider := p }) ∧
      p.loops = s.provider.loops + 1 ∧
      p.Holds std.decodeRawURL req.workspaceID req.secret req.apiKeyID := by
  obtain ⟨p, hp, hloops, hholds⟩ := @initiate_of_valid std.decodeRawURL req.workspaceID req.secret
    req.apiKeyID answers.token s.provider h
  refine ⟨p, ?_, hloops, hholds⟩
  unfold initiateProvider
  rw [hp]

/-- Without one the registration stops there, with the loops as they were. -/
theorem initiateProvider_of_not_valid (h : answers.token.valid = false) :
    ∃ e p, initiateProvider std req answers s = (.error e, { s with provider := p }) ∧
      p.loops = s.provider.loops ∧ e ≠ .error alreadyRegistered := by
  obtain ⟨hne, hloops⟩ := @initiate_of_not_valid std.decodeRawURL req.workspaceID req.secret
    req.apiKeyID answers.token s.provider h
  unfold initiateProvider
  rcases hi : initiate std.decodeRawURL req.workspaceID req.secret req.apiKeyID answers.token
    s.provider with ⟨r, p⟩
  rw [hi] at hne hloops
  cases r with
  | ok u => exact absurd rfl hne
  | error e =>
    cases e with
    | error e => exact ⟨_, p, rfl, hloops, by simp [alreadyRegistered]⟩
    | panic => exact ⟨_, p, rfl, hloops, by simp⟩

/-! ## After `Initiate` -/

/-- What every call after `Initiate` has in common: it leaves the header provider alone, and it
does not refuse the request as one of a registered agent. -/
structure Later (x : Reg α) : Prop where
  provider : ∀ s, (x s).2.provider = s.provider
  accepts : ∀ s, (x s).1 ≠ .error (.error alreadyRegistered)

theorem Later.bind {x : Reg α} {f : α → Reg β} (hx : Later x) (hf : ∀ a, Later (f a)) :
    Later (x >>= f) := by
  constructor
  · intro s
    have hs := hx.provider s
    rw [bind_apply]
    rcases h : x s with ⟨r, t⟩
    rw [h] at hs
    cases r with
    | error e => exact hs
    | ok a => exact ((hf a).provider t).trans hs
  · intro s
    have hs := hx.accepts s
    rw [bind_apply]
    rcases h : x s with ⟨r, t⟩
    rw [h] at hs
    cases r with
    | error e =>
      intro he
      cases he
      exact hs rfl
    | ok a => exact (hf a).accepts t

theorem later_pure (a : α) : Later (pure a : Reg α) :=
  ⟨fun _ => rfl, fun _ h => by cases h⟩

theorem later_updateAPIKey : Later (updateAPIKey req keys answers) := by
  constructor <;> intro s <;> unfold updateAPIKey
  · cases answers.put _ <;> rfl
  · cases answers.put _ <;> simp [alreadyRegistered]

theorem later_setKey : Later (setKey std keys) := by
  constructor <;> intro s <;> unfold setKey
  · cases std.decodeStd _ <;> rfl
  · cases std.decodeStd _ <;> simp [alreadyRegistered]

theorem later_actionApprove (actionID : String) : Later (actionApprove actionID answers) := by
  constructor <;> intro s <;> unfold actionApprove
  · cases answers.approve _ <;> rfl
  · cases answers.approve _ <;> simp [alreadyRegistered]

theorem later_assignInfo : Later (assignInfo req keys) :=
  ⟨fun _ => rfl, fun _ h => by cases h⟩

theorem later_saveInfo : Later (saveInfo std req answers) := by
  constructor <;> intro s <;> unfold saveInfo <;>
    rcases saveAgentInfo std.json req.apiKeyID s.agentInfo answers.sets s.kv with ⟨r, kv⟩
  · cases r <;> rfl
  · cases r <;> simp [alreadyRegistered]

theorem later_getAgentName : Later (getAgentName answers) := by
  constructor <;> intro s <;> unfold getAgentName <;> cases s.agentInfo with
  | none => simp
  | some info =>
    simp only
    cases answers.name _ _ <;> simp [alreadyRegistered]

/-- Whatever happens after `Initiate`, its loop is not stopped. -/
theorem later_afterInitiate : Later (afterInitiate std feedURL req answers keys) :=
  later_updateAPIKey.bind fun actionID => later_setKey.bind fun _ =>
    (later_actionApprove actionID).bind fun _ => later_assignInfo.bind fun _ =>
      later_saveInfo.bind fun _ => later_getAgentName.bind fun _ => later_pure _

/-- Every call after `Initiate` succeeds. -/
def LaterSucceed (std : Std) (req : AgentRegisterRequest) (answers : Answers) (keys : Keys) :
    Prop :=
  ∃ actionID, answers.put ⟨req.apiKeyID, req.workspaceID, keys.blsKeyPub, keys.ecKeyPub⟩ =
      some actionID ∧
    (std.decodeStd keys.blsKeyPriv).isSome ∧ answers.approve actionID = none ∧
    req.apiKeyID ≠ "" ∧ answers.sets = SetAnswers.ok ∧
    (answers.name req.workspaceID req.apiKeyID).isSome

/-- The registration succeeds if they do, and returns an error if not. -/
theorem afterInitiate_cases (s : Agent) :
    (LaterSucceed std req answers keys ∧
      ∃ r, (afterInitiate std feedURL req answers keys s).1 = .ok r) ∨
    (¬ LaterSucceed std req answers keys ∧
      ∃ e, (afterInitiate std feedURL req answers keys s).1 = .error (.error e)) := by
  unfold afterInitiate LaterSucceed
  cases hput : answers.put ⟨req.apiKeyID, req.workspaceID, keys.blsKeyPub, keys.ecKeyPub⟩ with
  | none =>
    refine Or.inr ⟨by simp, .internal "failed to register agent", ?_⟩
    rw [bind_error (t := s) (by unfold updateAPIKey; rw [hput])]
  | some actionID =>
    rw [bind_ok (t := s) (a := actionID) (by unfold updateAPIKey; rw [hput])]
    cases hkey : std.decodeStd keys.blsKeyPriv with
    | none =>
      refine Or.inr ⟨by simp, .internal "failed to setup signer", ?_⟩
      rw [bind_error (t := s) (by unfold setKey; rw [hkey])]
    | some data =>
      set s1 : Agent := { s with blsPrivateKey := data }
      rw [bind_ok (t := s1) (a := ()) (by unfold setKey; rw [hkey])]
      cases happ : answers.approve actionID with
      | some err =>
        refine Or.inr ⟨by simp [happ], .approve err, ?_⟩
        rw [bind_error (t := s1) (by unfold actionApprove; rw [happ])]
      | none =>
        set s2 : Agent := { s1 with agentInfo := some (newInfo req keys) } with hs2
        rw [bind_ok (t := s1) (a := ()) (by unfold actionApprove; rw [happ]),
          bind_ok (x := assignInfo req keys) (t := s2) (a := ()) rfl]
        rcases hsave : saveAgentInfo std.json req.apiKeyID s2.agentInfo answers.sets s2.kv with
          ⟨r, kv⟩
        have hiff := @saveAgentInfo_ok std.json req.apiKeyID (newInfo req keys) answers.sets s2.kv
        rw [show some (newInfo req keys) = s2.agentInfo from rfl, hsave] at hiff
        cases r with
        | error e =>
          refine Or.inr ⟨?_, .internal "failed to save agent info", ?_⟩
          · rintro ⟨-, -, -, -, hid, hsets, -⟩
            cases hiff.mpr ⟨hid, hsets⟩
          · rw [bind_error (t := { s2 with kv := kv }) (by unfold saveInfo; rw [hsave])]
        | ok u =>
          obtain ⟨hid, hsets⟩ := hiff.mp rfl
          rw [bind_ok (t := { s2 with kv := kv }) (a := ()) (by unfold saveInfo; rw [hsave])]
          cases hname : answers.name req.workspaceID req.apiKeyID with
          | none =>
            refine Or.inr ⟨by simp, .internal "failed to get agent name", ?_⟩
            rw [bind_error (t := { s2 with kv := kv })
              (e := .error (.internal "failed to get agent name"))
              (by simp [getAgentName, hs2, newInfo, hname])]
          | some name =>
            refine Or.inl ⟨⟨actionID, rfl, rfl, happ, hid, hsets, rfl⟩,
              ⟨name, req.apiKeyID, feedURL⟩, ?_⟩
            · rw [bind_ok (t := { s2 with kv := kv }) (a := name)
                (by simp [getAgentName, hs2, newInfo, hname])]
              rfl

/-! ## The whole registration -/

/-- The keys or the token fail: `RegisterAgent` does not get past `Initiate`. -/
def FailsEarly (answers : Answers) : Prop :=
  answers.genKeys = none ∨ answers.token.valid = false

/-- A registration that fails early leaves everything but the provider, and its loops, as it was. -/
theorem registerAgent_of_failsEarly (hnil : s.agentInfo = none) (h : FailsEarly answers) :
    ∃ e p, registerAgent std feedURL req answers s = (.error e, { s with provider := p }) ∧
      p.loops = s.provider.loops ∧ e ≠ .error alreadyRegistered := by
  rw [registerAgent_eq, bind_ok (checkUnregistered_ok hnil)]
  cases hkeys : answers.genKeys with
  | none =>
    refine ⟨.error (.internal "failed to generate keys"), s.provider, ?_, rfl,
      by simp [alreadyRegistered]⟩
    rw [bind_error (t := s) (by unfold genKeys; rw [hkeys])]
  | some keys =>
    rw [bind_ok (genKeys_ok hkeys)]
    have htoken : answers.token.valid = false := h.resolve_left (by simp [hkeys])
    obtain ⟨e, p, hrun, hloops, hne⟩ :=
      @initiateProvider_of_not_valid std req answers s htoken
    exact ⟨e, p, bind_error hrun, hloops, hne⟩

/-- Otherwise it goes on with one more loop. -/
theorem registerAgent_of_not_failsEarly (hnil : s.agentInfo = none)
    (hkeys : answers.genKeys = some keys) (htoken : answers.token.valid = true) :
    ∃ p, registerAgent std feedURL req answers s =
        afterInitiate std feedURL req answers keys { s with provider := p } ∧
      p.loops = s.provider.loops + 1 := by
  obtain ⟨p, hrun, hloops, -⟩ := @initiateProvider_of_valid std req answers s htoken
  refine ⟨p, ?_, hloops⟩
  rw [registerAgent_eq, bind_ok (checkUnregistered_ok hnil), bind_ok (genKeys_ok hkeys),
    bind_ok hrun]

/-- An agent without `agentInfo` is not refused as registered. -/
theorem registerAgent_accepts (hnil : s.agentInfo = none) :
    (registerAgent std feedURL req answers s).1 ≠ .error (.error alreadyRegistered) := by
  by_cases h : FailsEarly answers
  · obtain ⟨e, p, hrun, -, hne⟩ :=
      @registerAgent_of_failsEarly std req answers feedURL s hnil h
    rw [hrun]
    intro he
    cases he
    exact hne rfl
  · obtain ⟨hkeys, htoken⟩ := not_or.mp h
    obtain ⟨keys, hkeys⟩ := Option.ne_none_iff_exists'.mp hkeys
    obtain ⟨p, hrun, -⟩ := @registerAgent_of_not_failsEarly std req answers keys feedURL s hnil
      hkeys (by simpa using htoken)
    rw [hrun]
    exact later_afterInitiate.accepts _

/-- A registration that returns an error leaves the agent unregistered: in memory, in the store,
with the loops as they were, and with later registrations accepted. -/
def LeavesUnregistered (std : Std) (feedURL : String) (req : AgentRegisterRequest)
    (answers : Answers) (s : Agent) : Prop :=
  ∀ e s', registerAgent std feedURL req answers s = (.error (.error e), s') →
    s'.agentInfo = none ∧ getAgentInfo std.json s'.kv = getAgentInfo std.json s.kv ∧
    s'.provider.loops = s.provider.loops ∧
    ∀ req' answers', (registerAgent std feedURL req' answers' s').1 ≠
      .error (.error alreadyRegistered)

/-- A failure after `Initiate` leaves one more loop running. -/
theorem register_leaks (hnil : s.agentInfo = none) (hearly : ¬ FailsEarly answers)
    (hlater : ∀ keys, answers.genKeys = some keys → ¬ LaterSucceed std req answers keys) :
    ∃ e s', registerAgent std feedURL req answers s = (.error (.error e), s') ∧
      s'.provider.loops = s.provider.loops + 1 := by
  obtain ⟨hkeys, htoken⟩ := not_or.mp hearly
  obtain ⟨keys, hkeys⟩ := Option.ne_none_iff_exists'.mp hkeys
  obtain ⟨p, hrun, hloops⟩ := @registerAgent_of_not_failsEarly std req answers keys feedURL s hnil
    hkeys (by simpa using htoken)
  rcases @afterInitiate_cases std req answers keys feedURL { s with provider := p } with
    ⟨hsucc, -⟩ | ⟨-, e, he⟩
  · exact absurd hsucc (hlater keys hkeys)
  · refine ⟨e, _, hrun.trans (Prod.ext he rfl), ?_⟩
    rw [later_afterInitiate.provider]
    exact hloops

/-- **When a failed registration leaves the agent unregistered.** From every state without
`agentInfo`: exactly if the keys or the token fail, or if nothing after them does. -/
theorem register_failure_iff (std : Std) (feedURL : String) (req : AgentRegisterRequest)
    (answers : Answers) (s : Agent) (hnil : s.agentInfo = none) :
    LeavesUnregistered std feedURL req answers s ↔
      FailsEarly answers ∨ ∃ keys, answers.genKeys = some keys ∧
        LaterSucceed std req answers keys := by
  constructor
  · intro hleaves
    by_contra hcond
    obtain ⟨hearly, hlater⟩ := not_or.mp hcond
    obtain ⟨e, s', hrun, hloops⟩ := @register_leaks std req answers feedURL s hnil hearly
      fun keys hkeys hsucc => hlater ⟨keys, hkeys, hsucc⟩
    have := (hleaves e s' hrun).2.2.1
    omega
  · rintro (hearly | ⟨keys, hkeys, hsucc⟩) e s' hrun
    · obtain ⟨e', p, hrun', hloops, -⟩ :=
        @registerAgent_of_failsEarly std req answers feedURL s hnil hearly
      obtain ⟨-, rfl⟩ := Prod.mk.inj (hrun'.symm.trans hrun)
      exact ⟨hnil, rfl, hloops, fun req' answers' => registerAgent_accepts hnil⟩
    · by_cases htoken : answers.token.valid = true
      · obtain ⟨p, hrun', -⟩ := @registerAgent_of_not_failsEarly std req answers keys feedURL s
          hnil hkeys htoken
        rcases @afterInitiate_cases std req answers keys feedURL { s with provider := p } with
          ⟨-, r, hr⟩ | ⟨hno, -⟩
        · rw [← hrun', hrun] at hr
          cases hr
        · exact absurd hsucc hno
      · obtain ⟨e', p, hrun', hloops, -⟩ := @registerAgent_of_failsEarly std req answers feedURL s
          hnil (Or.inr (by simpa using htoken))
        obtain ⟨-, rfl⟩ := Prod.mk.inj (hrun'.symm.trans hrun)
        exact ⟨hnil, rfl, hloops, fun req' answers' => registerAgent_accepts hnil⟩

end

/-! ## Samples -/

/-- The keys, request and answers of a registration that succeeds. -/
def sampleKeys : Keys := ⟨"QUI=", "QUJD", "RUM=", "RUNE"⟩

def sampleReq : AgentRegisterRequest := ⟨"key", "c2VjcmV0", "workspace"⟩

def sampleAnswers : Answers where
  genKeys := some sampleKeys
  token := .token "token" 3600000000000
  put := fun _ => some "action"
  approve := fun _ => none
  sets := SetAnswers.ok
  name := fun _ _ => some "agent"

/-- The JSON encoding of the sample's `AgentInfo`. -/
def sampleJson : Bytes :=
  utf8 ("\x7b\"blsPrivateKey\":\"QUJD\",\"ecPrivateKey\":\"RUNE\"," ++
    "\"workspaceID\":\"workspace\",\"APIKeyID\":\"key\",\"APIKeySecret\":\"c2VjcmV0\"\x7d")

/-- The standard library on the strings of the sample. -/
def sampleStd : Std where
  decodeStd := fun s =>
    if s = "QUJD" then some (utf8 "ABC") else if s = "QUJE" then some (utf8 "ABD") else none
  decodeRawURL := fun s => if s = "c2VjcmV0" then utf8 "secret" else []
  json :=
    { marshal := fun info => if info = newInfo sampleReq sampleKeys then sampleJson else []
      unmarshal := fun b => if b = sampleJson then some (newInfo sampleReq sampleKeys) else none }

/-- An agent that nobody has registered. -/
def freshAgent : Agent := ⟨none, ⟨"", [], "", "", 0, 0⟩, [], fun _ => none⟩

/-- `register_failure_iff` where the token server does not answer. -/
theorem register_failure_iff_sample :
    LeavesUnregistered sampleStd "feed" sampleReq
      { sampleAnswers with token := .requestErr "timeout" } freshAgent :=
  (register_failure_iff sampleStd "feed" sampleReq
    { sampleAnswers with token := .requestErr "timeout" } freshAgent rfl).mpr (Or.inl (Or.inr rfl))

/-- **A failed registration that registers.** The GET of the agent name fails: the request gets an
error, the agent is registered in memory and in the store, and a loop is left running. -/
theorem register_name_fails :
    ¬ LeavesUnregistered sampleStd "feed" sampleReq
      { sampleAnswers with name := fun _ _ => none } freshAgent := by
  intro h
  have := (h (.internal "failed to get agent name") _ rfl).1
  cases this

end SigningAgent.Service
