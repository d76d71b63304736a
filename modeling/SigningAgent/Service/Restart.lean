import SigningAgent.Auth.RefreshLoop
import SigningAgent.Service.Registering

/-!
# Crashes and restarts (`cmd/app/main.go`, `initRouter`)

What a registration has stored is read again when the process starts: `initRouter` opens the store,
loads the agent, gives its credentials to the header provider and its key to the signer. Then
`agentSrv.Start` runs the feed hub, if there is an agent. A restart that fails exits.

The machine is up or down. While it is up, requests for registration come one after another, each
makes its calls as in `Registering.lean`, and the refresh loop of the header provider ticks between
them. The process may end at any moment, also between two calls of a request; the content of the
store is all that is left then.

* `Kept`: an agent that is not in memory is not in the store either, and one that is in memory is
  the one in the store, if any. The header provider has its credentials and the signer its key.
* `Settled`: the store has an agent. Then no request gets past its check, whatever it asks for.
* A request for the ID that is the store's own key is left out (`Proper`), and the JSON encoding
  has to give back the data of a request.
* Two requests at once are left out (`idle`): both can pass the check, and the later one then takes
  over. So is the HTTP listener, which a process that is up may not get.

**`registered_for_good`**: once a registration has been answered with success, the store has this
agent after every run: through all crashes, restarts, refreshes and later requests. While the
process is up it serves this agent and refuses every other; while it is down, it comes up again if
the store and the token server answer and the feed hub runs.
-/

namespace SigningAgent.Restart

open Auth Service Store Transition

/-! ## The start of the process -/

/-- What the outside answers when the process starts. -/
structure BootAnswers where
  /-- the error of `kv.Init` -/
  initErr : Option String
  /-- an error of `kv.Get` other than `defs.ErrKVNotFound` -/
  getErr : Option String
  token : TokenAnswer
  /-- what `feedHub.Run` returns -/
  hubRuns : Bool
  deriving DecidableEq, Repr

inductive BootError where
  /-- "Failed to initialise the store" -/
  | store (err : String)
  /-- "Failed to retrieve registered agent info" -/
  | agentInfo
  /-- "Failed to initialise the header provider" -/
  | provider (err : TokenError)
  /-- "Failed to initialise the signer", with "invalid bls key" -/
  | signer
  /-- "Failed to start the agent service, stopping ..." -/
  | service (err : String)
  deriving DecidableEq, Repr

/-- `NewHeaderProvider`. -/
def newHeaderProvider : Provider := ⟨"", [], "", "", 0, 0⟩

/-- `genHeaderProvider`: the provider, and the key of the agent. -/
def genHeaderProvider (std : Std) (agentInfo : Option AgentInfo) (answer : TokenAnswer) :
    Outcome BootError (Provider × String) :=
  match agentInfo with
  | none => .ok (newHeaderProvider, "")
  | some info =>
    match initiate std.decodeRawURL info.workspaceID info.apiKeySecret info.apiKeyID answer
        newHeaderProvider with
    | (.ok (), p) => .ok (p, info.blsPrivateKey)
    | (.error (.error e), _) => .error (.error (.provider e))
    | (.error .panic, _) => .error .panic

/-- `NewSigner`: the key it holds. -/
def newSigner (std : Std) (blsPrivateKey : String) : Option Bytes :=
  if blsPrivateKey = "" then some [] else std.decodeStd blsPrivateKey

/-- `initRouter`, on the content of the store. -/
def initRouter (std : Std) (answers : BootAnswers) (kv : KV) : Outcome BootError Agent :=
  match answers.initErr with
  | some err => .error (.error (.store err))
  | none =>
    match answers.getErr with
    | some _ => .error (.error .agentInfo)
    | none =>
      match getAgentInfo std.json kv with
      | .error _ => .error (.error .agentInfo)
      | .ok agentInfo =>
        match genHeaderProvider std agentInfo answers.token with
        | .error e => .error e
        | .ok (p, agentKey) =>
          match newSigner std agentKey with
          | none => .error (.error .signer)
          | some key => .ok ⟨agentInfo, p, key, kv⟩

/-- `agentSrv.Start`, where `hubRuns` is what `feedHub.Run` returns. -/
def start (hubRuns : Bool) (a : Agent) : Except String Unit :=
  if a.agentInfo.isNone then .ok ()
  else if !hubRuns then .error "failed to start the feed hub"
  else .ok ()

/-- The start command: `initRouter`, and the `agentSrv.Start` of `StartHTTPListener`. -/
def boot (std : Std) (answers : BootAnswers) (kv : KV) : Outcome BootError Agent :=
  match initRouter std answers kv with
  | .error e => .error e
  | .ok a =>
    match start answers.hubRuns a with
    | .error err => .error (.error (.service err))
    | .ok () => .ok a

inductive DetailsError where
  /-- "agent not registered" -/
  | notFound
  /-- "failed to get agent name" -/
  | name
  deriving DecidableEq, Repr

/-- `GetAgentDetails`, whose response is that of a registration. -/
def getAgentDetails (feedURL : String) (name : String → String → Option String) (a : Agent) :
    Except DetailsError AgentRegisterResponse :=
  match a.agentInfo with
  | none => .error .notFound
  | some info =>
    match name info.workspaceID info.apiKeyID with
    | none => .error .name
    | some name => .ok ⟨name, info.apiKeyID, feedURL⟩

/-! ## The machine -/

/-- The running process, with the request that came last. -/
structure Process where
  agent : Agent
  request : Option Request

inductive State where
  | down (kv : KV)
  | up (p : Process)

/-- The content of the store, which outlives the process. -/
def State.kv : State → KV
  | .down kv => kv
  | .up p => p.agent.kv

inductive Label where
  | boot (answers : BootAnswers)
  /-- the process ends -/
  | crash
  /-- a request comes, when the last one has been answered -/
  | start (req : AgentRegisterRequest) (answers : Answers)
  /-- the request makes its next call -/
  | call
  /-- a refresh loop ticks -/
  | tick (now : Int) (refresh : RefreshAnswer) (later : Int) (init : InitAnswer)

/-- The last request has been answered. -/
def Process.idle (p : Process) : Bool :=
  match p.request.map Request.phase with
  | none | some (.returned _) => true
  | _ => false

section

variable (std : Std) (feedURL : String) (dec : Decoders)

/-- A tick of one refresh loop. A panic of its goroutine ends the process. -/
def tickStep (now : Int) (refresh : RefreshAnswer) (later : Int) (init : InitAnswer)
    (p : Process) : State :=
  let t := Auth.tick dec now refresh later init ⟨p.agent.provider, .waiting, false, []⟩
  if t.phase = .panicked then .down p.agent.kv
  else .up { p with agent := { p.agent with provider := t.provider } }

def step : Label → State → Option State
  | .boot answers, .down kv =>
    match boot std answers kv with
    | .ok a => some (.up ⟨a, none⟩)
    | .error _ => some (.down kv)
  | .crash, .up p => some (.down p.agent.kv)
  | .start req answers, .up p =>
    if p.idle then some (.up { p with request := some ⟨req, answers, .check⟩ }) else none
  | .call, .up p => p.request.bind fun c =>
    (Service.call std feedURL c.req c.answers c.phase p.agent).map fun (q, agent) =>
      .up ⟨agent, some { c with phase := q }⟩
  | .tick now refresh later init, .up p =>
    if 0 < p.agent.provider.loops then some (tickStep dec now refresh later init p) else none
  | _, _ => none

/-- All runs of a machine that is down first, with anything in its store. -/
def machine : System State Label where
  init s := ∃ kv, s = .down kv
  step := step std feedURL dec

end

/-- The condition on a request: see the header. -/
def Proper (std : Std) : Label → Prop
  | .start req answers => req.apiKeyID ≠ "AgentID_V2" ∧
      ∀ keys, answers.genKeys = some keys → std.json.RoundTrips (newInfo req keys)
  | _ => True

section

variable {std : Std} {feedURL : String} {dec : Decoders} {info : AgentInfo} {kv : KV} {a a' : Agent}
  {c : Request} {q : Service.Phase} {p : Process} {s s' : State}

/-! ## Memory and store -/

/-- The process serves the agent: in memory, in the header provider and in the signer. -/
structure Serves (std : Std) (info : AgentInfo) (a : Agent) : Prop where
  agentInfo : a.agentInfo = some info
  provider : a.provider.Holds std.decodeRawURL info.workspaceID info.apiKeySecret info.apiKeyID
  signer : std.decodeStd info.blsPrivateKey = some a.blsPrivateKey

/-- Memory and store agree, but for an agent whose ID could not be saved. -/
structure Kept (std : Std) (a : Agent) : Prop where
  absent : a.agentInfo = none → a.kv agentIDString = none
  present : ∀ info, a.agentInfo = some info → Serves std info a ∧
    (a.kv agentIDString = none ∨ getAgentInfo std.json a.kv = .ok (some info))

/-- A store without an ID has no agent. -/
theorem getAgentInfo_none_iff {json : Json} :
    getAgentInfo json kv = .ok none ↔ kv agentIDString = none := by
  unfold getAgentInfo
  cases kv agentIDString with
  | none => simp
  | some id =>
    cases hid : kv id with
    | none => simp [hid]
    | some data => cases hdata : json.unmarshal data <;> simp [hid, hdata]

/-- If the store has an agent, it is the one that the process serves. -/
theorem Kept.serves (hk : Kept std a) (hstore : getAgentInfo std.json a.kv = .ok (some info)) :
    Serves std info a := by
  have hid : a.kv agentIDString ≠ none := by
    intro hnone
    rw [getAgentInfo_none_iff.mpr hnone] at hstore
    cases hstore
  cases ha : a.agentInfo with
  | none => exact absurd (hk.absent ha) hid
  | some info' =>
    obtain ⟨hserves, hor⟩ := hk.present info' ha
    obtain rfl : info' = info := by
      have := (hor.resolve_left hid).symm.trans hstore
      simpa using this
    exact hserves

/-- What the store says after a save, whether it succeeds or not. -/
theorem getAgentInfo_saved {json : Json} {id : String} {sets : SetAnswers}
    (hnone : kv agentIDString = none) (hid : id ≠ "AgentID_V2") (hjson : json.RoundTrips info) :
    (saveAgentInfo json id (some info) sets kv).2 agentIDString = none ∨
      getAgentInfo json (saveAgentInfo json id (some info) sets kv).2 = .ok (some info) := by
  have hkey : agentIDString ≠ utf8 id := fun he => hid (utf8_inj he).symm
  rcases h : saveAgentInfo json id (some info) sets kv with ⟨r, kv'⟩
  cases r with
  | ok u => exact Or.inr (getAgentInfo_saveAgentInfo h hid hjson)
  | error e =>
    have hkv := congrArg Prod.snd h
    refine Or.inl ?_
    unfold saveAgentInfo at h hkv
    by_cases hempty : id = ""
    · rw [if_pos hempty] at hkv
      exact hkv ▸ hnone
    · rw [if_neg hempty] at h hkv
      cases hi : sets.info with
      | some err =>
        simp only [hi] at hkv
        exact hkv ▸ hnone
      | none =>
        cases hs : sets.id with
        | some err =>
          -- the data is saved, the ID is not
          simp only [hi, hs] at hkv
          subst hkv
          exact (Function.update_of_ne hkey ..).trans hnone
        | none => simp [hi, hs] at h

/-- What a call leaves of the agent and the store, if it is not one of the two that set them. -/
theorem Kept.of_unregistered (hk : Kept std a) (hnil : a.agentInfo = none)
    (hnil' : a'.agentInfo = none) (hkv : a'.kv = a.kv) : Kept std a' := by
  refine ⟨fun _ => hkv ▸ hk.absent hnil, fun info hinfo => ?_⟩
  rw [hnil'] at hinfo
  cases hinfo

/-- **Memory and store stay in agreement**, call by call. -/
theorem Kept.call (hk : Kept std a) (hw : Wrote std c a) (hid : c.req.apiKeyID ≠ "AgentID_V2")
    (hjson : ∀ keys, c.answers.genKeys = some keys → std.json.RoundTrips (newInfo c.req keys))
    (hunsaved : ∀ keys, c.phase = .save keys → a.kv agentIDString = none)
    (h : Service.call std feedURL c.req c.answers c.phase a = some (q, a')) : Kept std a' := by
  obtain ⟨req, answers, phase⟩ := c
  simp only at h hid hjson hunsaved
  cases phase with
  | check =>
    obtain ⟨rfl, -⟩ := @call_check std feedURL ⟨req, answers, .check⟩ a a' q rfl h
    exact hk
  | genKeys =>
    simp only [Service.call, andThen, genKeys, Option.some.injEq] at h
    cases hg : answers.genKeys <;> rw [hg] at h <;> cases h <;> exact hk
  | initiate keys =>
    simp only [Service.call, andThen, Option.some.injEq] at h
    by_cases htoken : answers.token.valid = true
    · obtain ⟨r, hrun, -, -⟩ := @initiateProvider_of_valid std req answers a htoken
      rw [hrun] at h
      cases h
      exact hk.of_unregistered hw.2 hw.2 rfl
    · obtain ⟨e, r, hrun, -, -⟩ :=
        @initiateProvider_of_not_valid std req answers a (by simpa using htoken)
      rw [hrun] at h
      cases h
      exact hk.of_unregistered hw.2 hw.2 rfl
  | put keys =>
    simp only [Service.call, andThen, updateAPIKey, Option.some.injEq] at h
    cases hput : answers.put ⟨req.apiKeyID, req.workspaceID, keys.blsKeyPub, keys.ecKeyPub⟩ <;>
      rw [hput] at h <;> cases h <;> exact hk
  | setKey keys actionID =>
    simp only [Service.call, andThen, Service.setKey, Option.some.injEq] at h
    cases hkey : std.decodeStd keys.blsKeyPriv <;> rw [hkey] at h <;> cases h
    · exact hk
    · exact hk.of_unregistered hw.2.1 hw.2.1 rfl
  | approve keys actionID =>
    simp only [Service.call, andThen, actionApprove, Option.some.injEq] at h
    cases happ : answers.approve actionID <;> rw [happ] at h <;> cases h <;> exact hk
  | assign keys =>
    -- the agent is in memory from here on, and not yet in the store
    obtain ⟨-, hnil, hholds, hkey⟩ := hw
    simp only [Service.call, andThen, assignInfo, Option.some.injEq] at h
    cases h
    refine ⟨by simp, fun info hinfo => ?_⟩
    cases hinfo
    exact ⟨⟨rfl, hholds, hkey⟩, Or.inl (hk.absent hnil)⟩
  | save keys =>
    obtain ⟨memory, provider, key, kv⟩ := a
    obtain ⟨hg, rfl, hholds, hkey⟩ := hw
    have hsaved := @getAgentInfo_saved (newInfo req keys) kv std.json req.apiKeyID answers.sets
      (hunsaved keys rfl) hid (hjson keys hg)
    simp only [Service.call, andThen, saveInfo, Option.some.injEq] at h
    rcases hsave : saveAgentInfo std.json req.apiKeyID (some (newInfo req keys)) answers.sets kv
      with ⟨r, kv'⟩
    rw [hsave] at h hsaved
    have hkept : Kept std ⟨some (newInfo req keys), provider, key, kv'⟩ := by
      refine ⟨by simp, fun info hinfo => ?_⟩
      cases hinfo
      exact ⟨⟨rfl, hholds, hkey⟩, hsaved⟩
    cases r <;> cases h <;> exact hkept
  | name keys =>
    simp only [Service.call, andThen, getAgentName, hw.2.agentInfo, Option.some.injEq] at h
    cases hname : answers.name (newInfo req keys).workspaceID (newInfo req keys).apiKeyID <;>
      rw [hname] at h <;> cases h <;> exact hk
  | returned r => cases h

/-! ## A restart -/

/-- The header provider of a restart has the credentials of the stored agent. -/
theorem genHeaderProvider_ok {answer : TokenAnswer} {r : Provider} {key : String}
    (h : genHeaderProvider std (some info) answer = .ok (r, key)) :
    r.Holds std.decodeRawURL info.workspaceID info.apiKeySecret info.apiKeyID ∧
      key = info.blsPrivateKey := by
  unfold genHeaderProvider at h
  by_cases htoken : answer.valid = true
  · obtain ⟨r', hrun, -, hholds⟩ := @initiate_of_valid std.decodeRawURL info.workspaceID
      info.apiKeySecret info.apiKeyID answer newHeaderProvider htoken
    simp only [hrun, Except.ok.injEq, Prod.mk.injEq] at h
    obtain ⟨rfl, rfl⟩ := h
    exact ⟨hholds, rfl⟩
  · have hne := (@initiate_of_not_valid std.decodeRawURL info.workspaceID info.apiKeySecret
      info.apiKeyID answer newHeaderProvider (by simpa using htoken)).1
    rcases hrun : initiate std.decodeRawURL info.workspaceID info.apiKeySecret info.apiKeyID answer
      newHeaderProvider with ⟨o, r'⟩
    rw [hrun] at hne
    cases o with
    | ok u => exact absurd rfl hne
    | error e => cases e <;> simp [hrun] at h

theorem genHeaderProvider_of_valid {answer : TokenAnswer} (h : answer.valid = true) :
    ∃ r, genHeaderProvider std (some info) answer = .ok (r, info.blsPrivateKey) := by
  obtain ⟨r, hrun, -, -⟩ := @initiate_of_valid std.decodeRawURL info.workspaceID
    info.apiKeySecret info.apiKeyID answer newHeaderProvider h
  exact ⟨r, by simp only [genHeaderProvider, hrun]⟩

/-- A signer without a key has what an empty key decodes to. -/
theorem newSigner_eq (hempty : std.decodeStd "" = some []) (key : String) :
    newSigner std key = std.decodeStd key := by
  unfold newSigner
  split
  · rename_i h
    rw [h, hempty]
  · rfl

/-- A restart comes up with what the store has. -/
theorem kept_initRouter {answers : BootAnswers} (hempty : std.decodeStd "" = some [])
    (h : initRouter std answers kv = .ok a) : Kept std a ∧ a.kv = kv := by
  unfold initRouter at h
  cases hi : answers.initErr with
  | some err => simp [hi] at h
  | none =>
    cases hg : answers.getErr with
    | some err => simp [hi, hg] at h
    | none =>
      cases hget : getAgentInfo std.json kv with
      | error e => simp [hi, hg, hget] at h
      | ok agentInfo =>
        simp only [hi, hg, hget] at h
        cases hp : genHeaderProvider std agentInfo answers.token with
        | error e => simp [hp] at h
        | ok r =>
          cases hkey : newSigner std r.2 with
          | none => simp [hp, hkey] at h
          | some key =>
            simp only [hp, hkey, Except.ok.injEq] at h
            subst h
            refine ⟨⟨?_, ?_⟩, rfl⟩
            · rintro rfl
              exact getAgentInfo_none_iff.mp hget
            · rintro info rfl
              obtain ⟨hholds, hr⟩ := genHeaderProvider_ok hp
              rw [newSigner_eq hempty, hr] at hkey
              exact ⟨⟨rfl, hholds, hkey⟩, Or.inr hget⟩

theorem initRouter_of_boot {answers : BootAnswers} (h : boot std answers kv = .ok a) :
    initRouter std answers kv = .ok a := by
  unfold boot at h
  cases hr : initRouter std answers kv with
  | error e => simp [hr] at h
  | ok a' =>
    cases hs : start answers.hubRuns a' with
    | error err => simp [hr, hs] at h
    | ok u => simpa [hr, hs] using h

/-- The store and the token server answer, and the feed hub runs. -/
def BootAnswers.fine (answers : BootAnswers) : Bool :=
  answers.initErr.isNone && answers.getErr.isNone && answers.token.valid && answers.hubRuns

/-- With a usable agent in the store a restart comes up, if it gets its answers. -/
theorem boot_ok {answers : BootAnswers} (hempty : std.decodeStd "" = some [])
    (hstore : getAgentInfo std.json kv = .ok (some info))
    (hkey : (std.decodeStd info.blsPrivateKey).isSome) (hfine : answers.fine = true) :
    ∃ a, boot std answers kv = .ok a := by
  simp only [BootAnswers.fine, Bool.and_eq_true, Option.isNone_iff_eq_none] at hfine
  obtain ⟨⟨⟨hi, hg⟩, htoken⟩, hhub⟩ := hfine
  obtain ⟨r, hp⟩ := @genHeaderProvider_of_valid std info answers.token htoken
  obtain ⟨key, hkey⟩ := Option.isSome_iff_exists.mp hkey
  have hsigner : newSigner std info.blsPrivateKey = some key := (newSigner_eq hempty _).trans hkey
  have hrouter : initRouter std answers kv = .ok ⟨some info, r, key, kv⟩ := by
    simp only [initRouter, hi, hg, hstore, hp, hsigner]
  exact ⟨⟨some info, r, key, kv⟩, by simp [boot, hrouter, start, hhub]⟩

/-! ## A tick -/

/-- A tick leaves the credentials alone. -/
theorem holds_tick {now later : Int} {refresh : RefreshAnswer} {init : InitAnswer} {l : Loop}
    {workspaceID apiKeySecret apiKeyID : String}
    (h : l.provider.Holds std.decodeRawURL workspaceID apiKeySecret apiKeyID) :
    (Auth.tick dec now refresh later init l).provider.Holds std.decodeRawURL workspaceID
      apiKeySecret apiKeyID := by
  have hinit : ∀ {r : Except TokenError Unit} {p : Provider},
      initToken (init.timed dec later) l.provider = (r, p) →
        p.Holds std.decodeRawURL workspaceID apiKeySecret apiKeyID := by
    intro r p hp
    obtain rfl : (initToken (init.timed dec later) l.provider).2 = p := by rw [hp]
    cases init.timed dec later with
    | hmacErr | requestErr => exact h
    | token value ttl =>
      simp only [initToken]
      split <;> exact ⟨h.workspaceID, h.apiKeySecret, h.apiKeyID⟩
  unfold Auth.tick
  split
  · rename_i hrun
    cases refresh with
    | badURL =>
      cases hrun
      exact h
    | requestErr err => cases hrun
    | response token =>
      simp only [refreshToken] at hrun
      split at hrun <;> cases hrun
  · rename_i hrun
    cases refresh with
    | badURL | requestErr => cases hrun
    | response token =>
      simp only [refreshToken] at hrun
      split at hrun <;> cases hrun
      exact ⟨h.workspaceID, h.apiKeySecret, h.apiKeyID⟩
  · -- a refresh that fails leaves the provider to `initToken`
    rename_i p hrun
    obtain rfl : l.provider = p := by
      cases refresh with
      | badURL => cases hrun
      | requestErr err =>
        cases hrun
        rfl
      | response token =>
        simp only [refreshToken] at hrun
        split at hrun <;> cases hrun
        rfl
    split
    · rename_i hp
      have := hinit hp
      exact ⟨this.workspaceID, this.apiKeySecret, this.apiKeyID⟩
    · rename_i hp
      have := hinit hp
      exact ⟨this.workspaceID, this.apiKeySecret, this.apiKeyID⟩

/-- What a request has written does not depend on the token. -/
theorem wrote_of_holds {r : Provider} (hw : Wrote std c a)
    (hr : ∀ workspaceID apiKeySecret apiKeyID,
      a.provider.Holds std.decodeRawURL workspaceID apiKeySecret apiKeyID →
        r.Holds std.decodeRawURL workspaceID apiKeySecret apiKeyID) :
    Wrote std c { a with provider := r } := by
  obtain ⟨req, answers, phase⟩ := c
  have hregistered : ∀ keys, Registered std req keys a →
      Registered std req keys { a with provider := r } :=
    fun keys h => ⟨h.agentInfo, h.signer, hr _ _ _ h.provider, h.store⟩
  cases phase with
  | check | genKeys | initiate => exact hw
  | put | setKey => exact ⟨hw.1, hw.2.1, hr _ _ _ hw.2.2⟩
  | approve | assign => exact ⟨hw.1, hw.2.1, hr _ _ _ hw.2.2.1, hw.2.2.2⟩
  | save keys => exact ⟨hw.1, hw.2.1, hr _ _ _ hw.2.2.1, hw.2.2.2⟩
  | name keys => exact ⟨hw.1, hregistered keys hw.2⟩
  | returned result =>
    cases result with
    | error e => exact hw
    | ok response => exact ⟨hw.choose, hw.choose_spec.1, hregistered _ hw.choose_spec.2⟩

theorem Kept.of_holds {r : Provider} (hk : Kept std a)
    (hr : ∀ workspaceID apiKeySecret apiKeyID,
      a.provider.Holds std.decodeRawURL workspaceID apiKeySecret apiKeyID →
        r.Holds std.decodeRawURL workspaceID apiKeySecret apiKeyID) :
    Kept std { a with provider := r } :=
  ⟨hk.absent, fun info hinfo =>
    let ⟨hserves, hor⟩ := hk.present info hinfo
    ⟨⟨hserves.agentInfo, hr _ _ _ hserves.provider, hserves.signer⟩, hor⟩⟩

/-! ## What a step can do -/

inductive Effect (std : Std) (feedURL : String) (dec : Decoders) : Label → State → State → Prop
  | booted {answers : BootAnswers} {kv : KV} {a : Agent} : boot std answers kv = .ok a →
      Effect std feedURL dec (.boot answers) (.down kv) (.up ⟨a, none⟩)
  | exited {answers : BootAnswers} {kv : KV} :
      Effect std feedURL dec (.boot answers) (.down kv) (.down kv)
  | ended {l : Label} {p : Process} : Effect std feedURL dec l (.up p) (.down p.agent.kv)
  | started {req : AgentRegisterRequest} {answers : Answers} {p : Process} :
      Effect std feedURL dec (.start req answers) (.up p)
        (.up { p with request := some ⟨req, answers, .check⟩ })
  | called {p : Process} {c : Request} {q : Service.Phase} {a : Agent} : p.request = some c →
      Service.call std feedURL c.req c.answers c.phase p.agent = some (q, a) →
      Effect std feedURL dec .call (.up p) (.up ⟨a, some { c with phase := q }⟩)
  | ticked {l : Label} {p : Process} {r : Provider} :
      (∀ workspaceID apiKeySecret apiKeyID,
        p.agent.provider.Holds std.decodeRawURL workspaceID apiKeySecret apiKeyID →
          r.Holds std.decodeRawURL workspaceID apiKeySecret apiKeyID) →
      Effect std feedURL dec l (.up p) (.up { p with agent := { p.agent with provider := r } })

/-- **Inversion.** -/
theorem step_effect {l : Label} (hs : step std feedURL dec l s = some s') :
    Effect std feedURL dec l s s' := by
  cases s with
  | down kv =>
    cases l with
    | boot answers =>
      simp only [step] at hs
      cases ha : boot std answers kv with
      | ok a =>
        rw [ha] at hs
        cases hs
        exact .booted ha
      | error e =>
        rw [ha] at hs
        cases hs
        exact .exited
    | crash | start | call | tick => cases hs
  | up p =>
    cases l with
    | boot answers => cases hs
    | crash =>
      cases hs
      exact .ended
    | start req answers =>
      simp only [step] at hs
      split at hs
      · cases hs
        exact .started
      · cases hs
    | call =>
      obtain ⟨c, hc, hmap⟩ := Option.bind_eq_some_iff.mp hs
      obtain ⟨⟨q, a⟩, hcall, rfl⟩ := Option.map_eq_some_iff.mp hmap
      exact .called hc hcall
    | tick now refresh later init =>
      simp only [step, tickStep] at hs
      split at hs
      · split at hs
        · cases hs
          exact .ended
        · cases hs
          exact .ticked fun _ _ _ h => @holds_tick std dec _ _ _ _ _ _ _ _ h
      · cases hs

/-! ## Runs -/

/-- What holds of a running process. -/
structure Runs (std : Std) (p : Process) : Prop where
  kept : Kept std p.agent
  wrote : ∀ c, p.request = some c → Wrote std c p.agent
  ids : ∀ c, p.request = some c → c.req.apiKeyID ≠ "AgentID_V2"
  json : ∀ c, p.request = some c → ∀ keys, c.answers.genKeys = some keys →
    std.json.RoundTrips (newInfo c.req keys)
  unsaved : ∀ c keys, p.request = some c → c.phase = .save keys → p.agent.kv agentIDString = none

/-- A call leads to a save only if its result says so. -/
theorem andThen_ne_save {α : Type} {x : Reg α} {next : α → Service.Phase} {keys : Keys}
    (hnext : ∀ v, next v ≠ .save keys) : (andThen x next a).1 ≠ .save keys := by
  unfold andThen
  rcases x a with ⟨r, t⟩
  cases r with
  | error e => simp
  | ok v => exact hnext v

/-- A request comes to its save only by the assignment, before which nobody is registered. -/
theorem unsaved_call {keys : Keys} (hk : Kept std a) (hw : Wrote std c a)
    (h : Service.call std feedURL c.req c.answers c.phase a = some (q, a'))
    (hq : q = .save keys) : a'.kv agentIDString = none := by
  subst hq
  obtain ⟨req, answers, phase⟩ := c
  cases phase with
  | assign keys' =>
    simp only [Service.call, andThen, assignInfo, Option.some.injEq] at h
    cases h
    exact hk.absent hw.2.1
  | returned r => cases h
  | check | genKeys | initiate | put | setKey | approve | save | name =>
    exact absurd (congrArg Prod.fst (Option.some.inj h)) (andThen_ne_save (by simp))

/-- The step lemma. -/
theorem Runs.step {l : Label} (hempty : std.decodeStd "" = some [])
    (hi : ∀ p, s = .up p → Runs std p) (hl : Proper std l)
    (hs : step std feedURL dec l s = some s') : ∀ p, s' = .up p → Runs std p := by
  intro p' hp'
  cases step_effect hs with
  | booted ha =>
    cases hp'
    have hkept := (kept_initRouter hempty (initRouter_of_boot ha)).1
    exact ⟨hkept, fun _ h => (nomatch h), fun _ h => (nomatch h), fun _ h => (nomatch h),
      fun _ _ h => (nomatch h)⟩
  | exited | ended => cases hp'
  | @started req answers p =>
    cases hp'
    have hp := hi p rfl
    refine ⟨hp.kept, fun c hc => ?_, fun c hc => ?_, fun c hc => ?_, fun c keys hc hph => ?_⟩ <;>
      obtain rfl := Option.some.inj hc
    · trivial
    · exact hl.1
    · exact hl.2
    · cases hph
  | @called p c q a hc hcall =>
    cases hp'
    have hp := hi p rfl
    have hw := hp.wrote c hc
    refine ⟨hp.kept.call hw (hp.ids c hc) (hp.json c hc) (fun keys => hp.unsaved c keys hc) hcall,
      fun d hd => ?_, fun d hd => ?_, fun d hd => ?_, fun d keys hd hph => ?_⟩ <;>
      obtain rfl := Option.some.inj hd
    · exact hw.call (hp.ids c hc) hcall
    · exact hp.ids c hc
    · exact hp.json c hc
    · exact unsaved_call hp.kept hw hcall hph
  | @ticked _ p r hr =>
    cases hp'
    have hp := hi p rfl
    exact ⟨hp.kept.of_holds hr, fun c hc => wrote_of_holds (hp.wrote c hc) hr, hp.ids, hp.json,
      hp.unsaved⟩

theorem runs_of_reachable (hempty : std.decodeStd "" = some [])
    (hr : (machine std feedURL dec).ReachableBy (fun _ => Proper std) s) :
    ∀ p, s = .up p → Runs std p := by
  refine hr.invariant (I := fun s => ∀ p, s = .up p → Runs std p) ?_
    fun s l s' hi hl hs => Runs.step hempty hi hl hs
  rintro s ⟨kv, rfl⟩ p hp
  cases hp

/-! ## A stored agent -/

/-- The phases of a request that can be going on while an agent is stored. -/
def harmless : Service.Phase → Bool
  | .check | .name _ | .returned _ => true
  | _ => false

/-- The store has the agent, and its key can be read. -/
structure Settled (std : Std) (info : AgentInfo) (s : State) : Prop where
  store : getAgentInfo std.json s.kv = .ok (some info)
  key : (std.decodeStd info.blsPrivateKey).isSome
  serves : ∀ p, s = .up p → Serves std info p.agent
  harmless : ∀ p c, s = .up p → p.request = some c → harmless c.phase = true

/-- A harmless request changes nothing more. -/
theorem call_harmless (hinfo : a.agentInfo = some info) (hh : harmless c.phase = true)
    (h : Service.call std feedURL c.req c.answers c.phase a = some (q, a')) :
    a' = a ∧ harmless q = true := by
  obtain ⟨req, answers, phase⟩ := c
  cases phase with
  | check =>
    simp only [Service.call, andThen, checkUnregistered_refuses (s := a) (by simp [hinfo]),
      Option.some.injEq] at h
    cases h
    exact ⟨rfl, rfl⟩
  | name keys =>
    simp only [Service.call, andThen, getAgentName, hinfo, Option.some.injEq] at h
    cases hname : answers.name info.workspaceID info.apiKeyID <;> rw [hname] at h <;> cases h <;>
      exact ⟨rfl, rfl⟩
  | returned r => cases h
  | genKeys | initiate | put | setKey | approve | assign | save => cases hh

/-- **A stored agent stays**, whatever comes next. -/
theorem Settled.step {l : Label} (hempty : std.decodeStd "" = some []) (hi : Settled std info s)
    (hs : step std feedURL dec l s = some s') : Settled std info s' := by
  cases step_effect hs with
  | @booted answers kv a ha =>
    obtain ⟨hkept, hkv⟩ := kept_initRouter hempty (initRouter_of_boot ha)
    have hstore : getAgentInfo std.json a.kv = .ok (some info) := hkv ▸ hi.store
    refine ⟨hstore, hi.key, fun p hp => ?_, fun p c hp hc => ?_⟩ <;> cases hp
    · exact hkept.serves hstore
    · cases hc
  | exited => exact hi
  | ended => exact ⟨hi.store, hi.key, fun _ h => (nomatch h), fun _ _ h => (nomatch h)⟩
  | @started req answers p =>
    refine ⟨hi.store, hi.key, fun p' hp => ?_, fun p' c hp hc => ?_⟩ <;> cases hp
    · exact hi.serves p rfl
    · cases hc
      rfl
  | @called p c q a hc hcall =>
    have hserves := hi.serves p rfl
    obtain ⟨rfl, hq⟩ := call_harmless hserves.agentInfo (hi.harmless p c rfl hc) hcall
    refine ⟨hi.store, hi.key, fun p' hp => ?_, fun p' d hp hd => ?_⟩ <;> cases hp
    · exact hserves
    · cases hd
      exact hq
  | @ticked _ p r hr =>
    have hserves := hi.serves p rfl
    refine ⟨hi.store, hi.key, fun p' hp => ?_, fun p' c hp hc => ?_⟩ <;> cases hp
    · exact ⟨hserves.agentInfo, hr _ _ _ hserves.provider, hserves.signer⟩
    · exact hi.harmless p c rfl hc

/-- What is settled stays so in every run. -/
theorem Settled.run (hempty : std.decodeStd "" = some []) {ls : List Label}
    (hi : Settled std info s) (hs : (machine std feedURL dec).run ls s = some s') :
    Settled std info s' := by
  induction ls generalizing s with
  | nil =>
    obtain rfl : s = s' := Option.some.inj hs
    exact hi
  | cons l ls ih =>
    obtain ⟨t, ht, hs⟩ := Option.bind_eq_some_iff.mp hs
    exact ih (hi.step hempty ht) hs

/-- A success settles the agent of the request. -/
theorem settled_of_success {keys : Keys} (hp : Runs std p) (hc : p.request = some c)
    (hok : c.phase.succeeded = true) (hkeys : c.answers.genKeys = some keys) :
    Settled std (newInfo c.req keys) (.up p) := by
  have hw := hp.wrote c hc
  unfold Wrote at hw
  cases hph : c.phase with
  | returned r =>
    cases r with
    | error e => simp [hph, Service.Phase.succeeded] at hok
    | ok r =>
      rw [hph] at hw
      obtain ⟨keys', hkeys', hreg⟩ := hw
      obtain rfl : keys' = keys := Option.some.inj (hkeys'.symm.trans hkeys)
      have hstore := hreg.store (hp.json c hc keys' hkeys)
      have hkey : (std.decodeStd keys'.blsKeyPriv).isSome := by
        rw [hreg.signer]
        rfl
      refine ⟨hstore, hkey, fun p' hp' => ?_, fun p' d hp' hd => ?_⟩ <;> cases hp'
      · exact hp.kept.serves hstore
      · obtain rfl : c = d := Option.some.inj (hc.symm.trans hd)
        rw [hph]
        rfl
  | _ => simp [hph, Service.Phase.succeeded] at hok

/-- **Registered for good.** When a request has been answered with success, the store has its agent
after every further run. A process that is up then serves this agent and refuses to register any
other, and one that is down comes up if the store and the token server answer and the feed hub
runs. -/
theorem registered_for_good (hempty : std.decodeStd "" = some []) {keys : Keys} {ls : List Label}
    (hr : (machine std feedURL dec).ReachableBy (fun _ => Proper std) (.up p))
    (hc : p.request = some c) (hok : c.phase.succeeded = true)
    (hkeys : c.answers.genKeys = some keys)
    (hs : (machine std feedURL dec).run ls (.up p) = some s') :
    getAgentInfo std.json s'.kv = .ok (some (newInfo c.req keys)) ∧
      (∀ p', s' = .up p' → Serves std (newInfo c.req keys) p'.agent ∧
        (∀ name, getAgentDetails feedURL name p'.agent =
          match name c.req.workspaceID c.req.apiKeyID with
          | none => .error .name
          | some name => .ok ⟨name, c.req.apiKeyID, feedURL⟩) ∧
        ∀ req answers, registerAgent std feedURL req answers p'.agent =
          (.error (.error alreadyRegistered), p'.agent)) ∧
      ∀ kv, s' = .down kv → ∀ answers : BootAnswers, answers.fine = true →
        ∃ p', step std feedURL dec (.boot answers) (.down kv) = some (.up p') := by
  have hi := Settled.run hempty
    (settled_of_success (runs_of_reachable hempty hr p rfl) hc hok hkeys) hs
  refine ⟨hi.store, fun p' hp' => ?_, ?_⟩
  · have hserves := hi.serves p' hp'
    refine ⟨hserves, fun name => ?_, fun req answers => ?_⟩
    · unfold getAgentDetails
      rw [hserves.agentInfo]
      rfl
    · rw [registerAgent_eq]
      exact bind_error (checkUnregistered_refuses (by simp [hserves.agentInfo]))
  · rintro kv rfl answers hfine
    have hstore : getAgentInfo std.json kv = .ok (some (newInfo c.req keys)) := hi.store
    obtain ⟨a, ha⟩ := boot_ok hempty hstore hi.key hfine
    exact ⟨⟨a, none⟩, by simp only [step, ha]⟩

end

/-! ## Samples -/

/-- The standard library of the sample, which decodes an empty text too. -/
def bootStd : Std :=
  { sampleStd with decodeStd := fun s => if s = "" then some [] else sampleStd.decodeStd s }

/-- The store and the token server answer, and the hub runs. -/
def bootAnswers : BootAnswers := ⟨none, none, .token "token" 3600000000000, true⟩

/-- The machine starts, and the registration of the sample succeeds. -/
def registration : List Label :=
  .boot bootAnswers :: .start sampleReq sampleAnswers :: List.replicate 9 .call

/-- Requests of the witness ask for its agent. -/
def sampleLabel : Label → Bool
  | .start req answers => decide (req = sampleReq) && decide (answers.genKeys = some sampleKeys)
  | _ => true

theorem proper_sampleLabel {l : Label} (hl : sampleLabel l = true) : Proper bootStd l := by
  cases l with
  | start req answers =>
    simp only [sampleLabel, Bool.and_eq_true, decide_eq_true_eq] at hl
    obtain ⟨rfl, hkeys⟩ := hl
    refine ⟨by decide, fun keys hg => ?_⟩
    obtain rfl : sampleKeys = keys := Option.some.inj (hkeys.symm.trans hg)
    unfold Json.RoundTrips
    decide +kernel
  | boot | crash | call | tick => trivial

/-- The request has succeeded, and the run after it is possible. -/
def sampleRegistered : State → Bool
  | .up ⟨a, some c⟩ => c.phase.succeeded && decide (c.req = sampleReq) &&
      decide (c.answers.genKeys = some sampleKeys) &&
      ((machine bootStd "feed" sampleDecoders).run [.crash, .boot bootAnswers,
        .start ⟨"other", "c2VjcmV0", "workspace"⟩ sampleAnswers, .call] (.up ⟨a, some c⟩)).isSome
  | _ => false

/-- The agent is registered; the process ends, comes up again and gets a request for another
agent. -/
theorem registered_for_good_sample :
    ∃ p s', (machine bootStd "feed" sampleDecoders).ReachableBy (fun _ => Proper bootStd) (.up p) ∧
      (machine bootStd "feed" sampleDecoders).run [.crash, .boot bootAnswers,
        .start ⟨"other", "c2VjcmV0", "workspace"⟩ sampleAnswers, .call] (.up p) = some s' ∧
      getAgentInfo bootStd.json s'.kv = .ok (some (newInfo sampleReq sampleKeys)) := by
  obtain ⟨s, hr, hs⟩ := System.exists_reachableBy (M := machine bootStd "feed" sampleDecoders)
    (G := fun _ => Proper bootStd) (s := .down fun _ => none)
    (g := fun _ => sampleLabel) (fun _ l hl => proper_sampleLabel hl)
    ⟨_, rfl⟩ registration sampleRegistered (by decide +kernel)
  rcases s with kv | ⟨a, _ | c⟩
  · cases hs
  · cases hs
  · simp only [sampleRegistered, Bool.and_eq_true, decide_eq_true_eq] at hs
    obtain ⟨⟨⟨hok, hreq⟩, hkeys⟩, hrun⟩ := hs
    obtain ⟨s', hrun⟩ := Option.isSome_iff_exists.mp hrun
    have hgood := registered_for_good rfl hr rfl hok hkeys hrun
    rw [hreq] at hgood
    exact ⟨⟨a, some c⟩, s', hr, hrun, hgood.1⟩

end SigningAgent.Restart
