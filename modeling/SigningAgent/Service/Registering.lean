import SigningAgent.Lib.System
import SigningAgent.Service.RegisterAgent

/-!
# Concurrent registrations

Every HTTP request runs `RegisterAgent` in a goroutine of its own, on one `agentSrv`. A label
starts a request or makes one of its calls, so that the calls of any number of requests interleave
in any order. The answers a request will get are fixed when it starts; each is used once.

`step_registerAgent` connects the two readings: a request that is not interrupted does what
`registerAgent` does.

The check of `agentInfo` is the first call and its assignment the seventh, and no lock covers
them. So two requests can both succeed (`registered_twice`). What holds instead:

* `Alone` is the condition on a step: no request passes the check while another one that passed it
  is still running, and no request registers the ID that is the store's own key.
* **`registered_once`**: in every run whose steps all meet `Alone`, at most one request succeeds,
  and from then on the agent, the signer, the header provider and the store are its.

The invariant gives every request that has passed the check the part of the state it has written
so far (`Wrote`), and says that there is one such request at most, until it has failed.
-/

namespace SigningAgent.Service

open Auth Store Transition

/-- The call a request makes next, with what it has got so far. -/
inductive Phase where
  | check
  | genKeys
  | initiate (keys : Keys)
  | put (keys : Keys)
  | setKey (keys : Keys) (actionID : String)
  | approve (keys : Keys) (actionID : String)
  | assign (keys : Keys)
  | save (keys : Keys)
  | name (keys : Keys)
  | returned (result : Outcome RegisterError AgentRegisterResponse)
  deriving DecidableEq, Repr

/-- The request has passed the check and not returned. -/
def Phase.running : Phase → Bool
  | .check | .returned _ => false
  | _ => true

/-- The request has returned a response. -/
def Phase.succeeded : Phase → Bool
  | .returned (.ok _) => true
  | _ => false

structure Request where
  req : AgentRegisterRequest
  answers : Answers
  phase : Phase

/-- Make a call, and go on if it succeeds. -/
def andThen {α : Type} (x : Reg α) (next : α → Phase) (s : Agent) : Phase × Agent :=
  match x s with
  | (.ok a, s) => (next a, s)
  | (.error e, s) => (.returned (.error e), s)

/-- The next call of a request; `none` if it has returned. -/
def call (std : Std) (feedURL : String) (req : AgentRegisterRequest) (answers : Answers) :
    Phase → Agent → Option (Phase × Agent)
  | .check, s => some (andThen checkUnregistered (fun _ => .genKeys) s)
  | .genKeys, s => some (andThen (genKeys answers) .initiate s)
  | .initiate keys, s => some (andThen (initiateProvider std req answers) (fun _ => .put keys) s)
  | .put keys, s => some (andThen (updateAPIKey req keys answers) (.setKey keys) s)
  | .setKey keys actionID, s =>
    some (andThen (setKey std keys) (fun _ => .approve keys actionID) s)
  | .approve keys actionID, s =>
    some (andThen (actionApprove actionID answers) (fun _ => .assign keys) s)
  | .assign keys, s => some (andThen (assignInfo req keys) (fun _ => .save keys) s)
  | .save keys, s => some (andThen (saveInfo std req answers) (fun _ => .name keys) s)
  | .name _, s => some (andThen (getAgentName answers)
      (fun name => .returned (.ok ⟨name, req.apiKeyID, feedURL⟩)) s)
  | .returned _, _ => none

/-- Make the calls of a request until it returns, `fuel` of them at most. -/
def calls (std : Std) (feedURL : String) (req : AgentRegisterRequest) (answers : Answers) :
    Nat → Phase → Agent → Phase × Agent
  | 0, p, s => (p, s)
  | fuel + 1, p, s =>
    match call std feedURL req answers p s with
    | none => (p, s)
    | some (p, s) => calls std feedURL req answers fuel p s

structure State where
  agent : Agent
  requests : List Request

inductive Label where
  | start (req : AgentRegisterRequest) (answers : Answers)
  | call (h : Nat)

def step (std : Std) (feedURL : String) : Label → State → Option State
  | .start req answers, s => some { s with requests := s.requests ++ [⟨req, answers, .check⟩] }
  | .call h, s => s.requests[h]?.bind fun c =>
    (call std feedURL c.req c.answers c.phase s.agent).map fun (p, agent) =>
      ⟨agent, s.requests.set h { c with phase := p }⟩

/-- All interleavings of requests, on an agent that starts unregistered. -/
def registering (std : Std) (feedURL : String) : System State Label where
  init s := s.agent.agentInfo = none ∧ s.requests = []
  step := step std feedURL

/-! ## A request on its own -/

section

variable {α : Type} {std : Std} {feedURL : String} {req : AgentRegisterRequest}
  {answers : Answers} {keys : Keys}

/-- The result of a call and the rest, as a phase. -/
def finish (r : Outcome RegisterError AgentRegisterResponse × Agent) : Phase × Agent :=
  (.returned r.1, r.2)

theorem calls_returned (fuel : Nat) (r : Outcome RegisterError AgentRegisterResponse) (s : Agent) :
    calls std feedURL req answers fuel (.returned r) s = (.returned r, s) := by
  cases fuel <;> rfl

/-- A call followed by calls that run `f` runs the bind. -/
theorem calls_andThen {x : Reg α} {f : α → Reg AgentRegisterResponse} {next : α → Phase}
    {fuel : Nat} {p : Phase} {s : Agent}
    (hcall : call std feedURL req answers p s = some (andThen x next s))
    (hrest : ∀ a t, calls std feedURL req answers fuel (next a) t = finish (f a t)) :
    calls std feedURL req answers (fuel + 1) p s = finish ((x >>= f) s) := by
  rw [calls, hcall, bind_apply]
  unfold andThen
  rcases x s with ⟨r, t⟩
  cases r with
  | error e => exact calls_returned fuel _ t
  | ok a => exact hrest a t

/-- **A request that is not interrupted** makes nine calls at most and does what `RegisterAgent`
does. -/
theorem step_registerAgent (s : Agent) :
    calls std feedURL req answers 9 .check s =
      finish (registerAgent std feedURL req answers s) :=
  calls_andThen rfl fun _ _ => calls_andThen rfl fun _ _ => calls_andThen rfl fun _ _ =>
    calls_andThen rfl fun _ _ => calls_andThen rfl fun _ _ => calls_andThen rfl fun _ _ =>
      calls_andThen rfl fun _ _ => calls_andThen rfl fun _ _ =>
        calls_andThen (f := fun name => pure ⟨name, req.apiKeyID, feedURL⟩) rfl fun _ _ => rfl

end

/-! ## The invariant -/

/-- The request has passed the check and not failed. -/
def Phase.holds (p : Phase) : Bool := p.running || p.succeeded

/-- The agent is registered for a request: in memory, in the signer, in the header provider and,
if the JSON encoding gives the data back, in the store. -/
structure Registered (std : Std) (req : AgentRegisterRequest) (keys : Keys) (a : Agent) :
    Prop where
  agentInfo : a.agentInfo = some (newInfo req keys)
  signer : std.decodeStd keys.blsKeyPriv = some a.blsPrivateKey
  provider : a.provider.Holds std.decodeRawURL req.workspaceID req.secret req.apiKeyID
  store : std.json.RoundTrips (newInfo req keys) →
    getAgentInfo std.json a.kv = .ok (some (newInfo req keys))

/-- What a request has written before its next call. -/
def Wrote (std : Std) (c : Request) (a : Agent) : Prop :=
  match c.phase with
  | .check | .returned (.error _) => True
  | .genKeys => a.agentInfo = none
  | .initiate keys => c.answers.genKeys = some keys ∧ a.agentInfo = none
  | .put keys | .setKey keys _ => c.answers.genKeys = some keys ∧ a.agentInfo = none ∧
      a.provider.Holds std.decodeRawURL c.req.workspaceID c.req.secret c.req.apiKeyID
  | .approve keys _ | .assign keys => c.answers.genKeys = some keys ∧ a.agentInfo = none ∧
      a.provider.Holds std.decodeRawURL c.req.workspaceID c.req.secret c.req.apiKeyID ∧
      std.decodeStd keys.blsKeyPriv = some a.blsPrivateKey
  | .save keys => c.answers.genKeys = some keys ∧ a.agentInfo = some (newInfo c.req keys) ∧
      a.provider.Holds std.decodeRawURL c.req.workspaceID c.req.secret c.req.apiKeyID ∧
      std.decodeStd keys.blsKeyPriv = some a.blsPrivateKey
  | .name keys => c.answers.genKeys = some keys ∧ Registered std c.req keys a
  | .returned (.ok _) => ∃ keys, c.answers.genKeys = some keys ∧ Registered std c.req keys a

section

variable {std : Std} {feedURL : String} {c : Request} {a a' : Agent} {p : Phase}

/-- A request that has not passed the check, or has failed, claims nothing. -/
theorem wrote_of_not_holds (h : c.phase.holds = false) : Wrote std c a := by
  obtain ⟨req, answers, phase⟩ := c
  cases phase with
  | check => trivial
  | returned r =>
    cases r with
    | error e => trivial
    | ok r => cases h
  | _ => cases h

/-- The check changes nothing, and passes only if nobody is registered. -/
theorem call_check (hp : c.phase = .check)
    (h : call std feedURL c.req c.answers c.phase a = some (p, a')) :
    a' = a ∧ (p.holds = true → p = .genKeys ∧ a.agentInfo = none) := by
  rw [hp] at h
  cases hinfo : a.agentInfo with
  | none =>
    simp only [call, andThen, checkUnregistered_ok hinfo, Option.some.injEq] at h
    cases h
    exact ⟨rfl, fun _ => ⟨rfl, rfl⟩⟩
  | some info =>
    simp only [call, andThen, checkUnregistered_refuses (s := a) (by simp [hinfo]),
      Option.some.injEq] at h
    cases h
    exact ⟨rfl, fun hh => by cases hh⟩

/-- **What a request has written**, one call later. -/
theorem Wrote.call (hw : Wrote std c a) (hid : c.req.apiKeyID ≠ "AgentID_V2")
    (h : call std feedURL c.req c.answers c.phase a = some (p, a')) :
    Wrote std { c with phase := p } a' := by
  obtain ⟨req, answers, phase⟩ := c
  simp only at h hid
  cases phase with
  | check =>
    obtain ⟨rfl, hpass⟩ := @call_check std feedURL ⟨req, answers, .check⟩ a a' p rfl h
    by_cases hp : p.holds = true
    · obtain ⟨rfl, hnil⟩ := hpass hp
      exact hnil
    · exact wrote_of_not_holds (by simpa using hp)
  | genKeys =>
    simp only [Service.call, andThen, genKeys, Option.some.injEq] at h
    cases hk : answers.genKeys <;> rw [hk] at h <;> cases h
    · trivial
    · exact ⟨hk, hw⟩
  | initiate keys =>
    obtain ⟨hk, hnil⟩ := hw
    simp only [Service.call, andThen, Option.some.injEq] at h
    by_cases htoken : answers.token.valid = true
    · obtain ⟨q, hrun, -, hholds⟩ := @initiateProvider_of_valid std req answers a htoken
      rw [hrun] at h
      cases h
      exact ⟨hk, hnil, hholds⟩
    · obtain ⟨e, q, hrun, -, -⟩ :=
        @initiateProvider_of_not_valid std req answers a (by simpa using htoken)
      rw [hrun] at h
      cases h
      trivial
  | put keys =>
    simp only [Service.call, andThen, updateAPIKey, Option.some.injEq] at h
    cases hput : answers.put ⟨req.apiKeyID, req.workspaceID, keys.blsKeyPub, keys.ecKeyPub⟩ <;>
      rw [hput] at h <;> cases h
    · trivial
    · exact hw
  | setKey keys actionID =>
    obtain ⟨hk, hnil, hholds⟩ := hw
    simp only [Service.call, andThen, Service.setKey, Option.some.injEq] at h
    cases hkey : std.decodeStd keys.blsKeyPriv <;> rw [hkey] at h <;> cases h
    · trivial
    · exact ⟨hk, hnil, hholds, hkey⟩
  | approve keys actionID =>
    simp only [Service.call, andThen, actionApprove, Option.some.injEq] at h
    cases happ : answers.approve actionID <;> rw [happ] at h <;> cases h
    · exact hw
    · trivial
  | assign keys =>
    obtain ⟨hk, -, hholds, hkey⟩ := hw
    simp only [Service.call, andThen, assignInfo, Option.some.injEq] at h
    cases h
    exact ⟨hk, rfl, hholds, hkey⟩
  | save keys =>
    obtain ⟨hk, hinfo, hholds, hkey⟩ := hw
    simp only [Service.call, andThen, saveInfo, Option.some.injEq] at h
    rcases hsave : saveAgentInfo std.json req.apiKeyID a.agentInfo answers.sets a.kv with ⟨r, kv⟩
    rw [hsave] at h
    rw [hinfo] at hsave
    cases r with
    | error e =>
      cases h
      trivial
    | ok u =>
      cases h
      exact ⟨hk, hinfo, hkey, hholds, fun hjson => getAgentInfo_saveAgentInfo hsave hid hjson⟩
  | name keys =>
    obtain ⟨hk, hreg⟩ := hw
    simp only [Service.call, andThen, getAgentName, hreg.agentInfo, Option.some.injEq] at h
    cases hname : answers.name (newInfo req keys).workspaceID (newInfo req keys).apiKeyID <;>
      rw [hname] at h <;> cases h
    · trivial
    · exact ⟨keys, hk, hreg⟩
  | returned r => cases h

end

/-- The condition on a step: see the header. -/
def Alone (s : State) : Label → Prop
  | .start req _ => req.apiKeyID ≠ "AgentID_V2"
  | .call h => ∀ c ∈ s.requests[h]?, c.phase = .check → s.agent.agentInfo = none →
      ∀ d ∈ s.requests, d.phase.running = false

instance (s : State) : ∀ a, Decidable (Alone s a)
  | .start .. => by unfold Alone; infer_instance
  | .call _ => by unfold Alone; infer_instance

structure Inv (std : Std) (s : State) : Prop where
  ids : ∀ c ∈ s.requests, c.req.apiKeyID ≠ "AgentID_V2"
  wrote : ∀ c ∈ s.requests, Wrote std c s.agent
  single : ∀ (g h : Nat) (c d : Request), s.requests[g]? = some c → s.requests[h]? = some d →
    c.phase.holds = true → d.phase.holds = true → g = h

section

variable {std : Std} {feedURL : String} {s s' : State}

/-- When a request makes a call that holds afterwards, no other request holds. -/
theorem Inv.others {h : Nat} {c : Request} {p : Phase} {a' : Agent} (hi : Inv std s)
    (hc : s.requests[h]? = some c) (hw : Alone s (.call h))
    (hcall : call std feedURL c.req c.answers c.phase s.agent = some (p, a'))
    (hp : p.holds = true ∨ a' ≠ s.agent) {g : Nat} {d : Request} (hg : g ≠ h)
    (hd : s.requests[g]? = some d) : d.phase.holds = false := by
  by_contra hdh
  have hdh : d.phase.holds = true := by simpa using hdh
  by_cases hcheck : c.phase = .check
  · obtain ⟨rfl, hpass⟩ := call_check hcheck hcall
    obtain ⟨-, hnil⟩ := hpass (hp.resolve_right fun h => h rfl)
    have hrun := hw c hc hcheck hnil d (List.mem_of_getElem? hd)
    have hsucc : d.phase.succeeded = true := by simpa [Phase.holds, hrun] using hdh
    -- a request that has succeeded has set `agentInfo`
    have hdw := hi.wrote d (List.mem_of_getElem? hd)
    unfold Wrote at hdw
    cases hph : d.phase with
    | returned r =>
      cases r with
      | error e => simp [hph, Phase.succeeded] at hsucc
      | ok r =>
        rw [hph] at hdw
        obtain ⟨keys, -, hreg⟩ := hdw
        have hsome := hreg.agentInfo
        rw [hnil] at hsome
        cases hsome
    | _ => simp [hph, Phase.succeeded] at hsucc
  · have hch : c.phase.holds = true := by
      cases hph : c.phase with
      | check => exact absurd hph hcheck
      | returned r =>
        rw [hph] at hcall
        cases hcall
      | _ => rfl
    exact hg (hi.single g h d c hd hc hdh hch)

/-- The step lemma. -/
theorem Inv.step {a : Label} (hi : Inv std s) (hw : Alone s a)
    (hs : step std feedURL a s = some s') : Inv std s' := by
  cases a with
  | start req answers =>
    cases hs
    refine ⟨fun c hc => ?_, fun c hc => ?_, fun g h c d hc hd hch hdh => ?_⟩
    · rcases List.mem_append.mp hc with hc | hc
      · exact hi.ids c hc
      · rw [List.mem_singleton.mp hc]
        exact hw
    · rcases List.mem_append.mp hc with hc | hc
      · exact hi.wrote c hc
      · rw [List.mem_singleton.mp hc]
        trivial
    · have hold : ∀ {g : Nat} {c : Request}, (s.requests ++ [⟨req, answers, .check⟩])[g]? = some c →
          c.phase.holds = true → s.requests[g]? = some c := by
        intro g c hc hch
        by_cases hg : g < s.requests.length
        · rwa [List.getElem?_append_left hg] at hc
        · rw [List.getElem?_append_right (by omega)] at hc
          rw [List.mem_singleton.mp (List.mem_of_getElem? hc)] at hch
          cases hch
      exact hi.single g h c d (hold hc hch) (hold hd hdh) hch hdh
  | call h =>
    obtain ⟨c, hc, hmap⟩ := Option.bind_eq_some_iff.mp hs
    obtain ⟨⟨p, a'⟩, hcall, rfl⟩ := Option.map_eq_some_iff.mp hmap
    have hcm := List.mem_of_getElem? hc
    have hset : ∀ {g : Nat} {d : Request}, (s.requests.set h { c with phase := p })[g]? = some d →
        (g = h ∧ d = { c with phase := p }) ∨ (g ≠ h ∧ s.requests[g]? = some d) :=
      fun hd => getElem?_set_cases hd
    refine ⟨fun d hd => ?_, fun d hd => ?_, fun g g' d d' hd hd' hdh hdh' => ?_⟩
    · obtain ⟨g, hd⟩ := List.mem_iff_getElem?.mp hd
      rcases hset hd with ⟨-, rfl⟩ | ⟨-, hd⟩
      · exact hi.ids c hcm
      · exact hi.ids d (List.mem_of_getElem? hd)
    · obtain ⟨g, hd⟩ := List.mem_iff_getElem?.mp hd
      rcases hset hd with ⟨-, rfl⟩ | ⟨hg, hd⟩
      · exact (hi.wrote c hcm).call (hi.ids c hcm) hcall
      · by_cases ha : a' = s.agent
        · rw [ha]
          exact hi.wrote d (List.mem_of_getElem? hd)
        · exact wrote_of_not_holds (hi.others hc hw hcall (Or.inr ha) hg hd)
    · rcases hset hd with ⟨hg, rfl⟩ | ⟨hg, hd⟩
      · rcases hset hd' with ⟨hg', -⟩ | ⟨hg', hd'⟩
        · exact hg.trans hg'.symm
        · rw [hi.others hc hw hcall (Or.inl hdh) hg' hd'] at hdh'
          cases hdh'
      · rcases hset hd' with ⟨-, rfl⟩ | ⟨-, hd'⟩
        · rw [hi.others hc hw hcall (Or.inl hdh') hg hd] at hdh
          cases hdh
        · exact hi.single g g' d d' hd hd' hdh hdh'

/-- **At most one registration takes effect.** In every run whose steps all meet `Alone`, from an
unregistered agent: two requests that have succeeded are one, and `agentInfo`, the signer's key, the
provider's credentials and what the store returns are those of a request that has succeeded. The
JSON encoding is taken to give back the data of the requests. -/
theorem registered_once (hr : (registering std feedURL).ReachableBy Alone s)
    (hjson : ∀ c ∈ s.requests, ∀ keys, c.answers.genKeys = some keys →
      std.json.RoundTrips (newInfo c.req keys)) :
    (∀ (g h : Nat) (c d : Request), s.requests[g]? = some c → s.requests[h]? = some d →
      c.phase.succeeded = true → d.phase.succeeded = true → g = h) ∧
    ∀ c ∈ s.requests, c.phase.succeeded = true → ∃ keys, c.answers.genKeys = some keys ∧
      s.agent.agentInfo = some (newInfo c.req keys) ∧
      std.decodeStd keys.blsKeyPriv = some s.agent.blsPrivateKey ∧
      s.agent.provider.Holds std.decodeRawURL c.req.workspaceID c.req.secret c.req.apiKeyID ∧
      getAgentInfo std.json s.agent.kv = .ok (some (newInfo c.req keys)) := by
  have hi : Inv std s := by
    refine hr.invariant ?_ fun s a s' hi hw hs => hi.step hw hs
    rintro s ⟨-, hnil⟩
    exact ⟨by simp [hnil], by simp [hnil], by simp [hnil]⟩
  have hholds : ∀ c : Request, c.phase.succeeded = true → c.phase.holds = true := by
    intro c hc
    simp [Phase.holds, hc]
  refine ⟨fun g h c d hc hd hcs hds => hi.single g h c d hc hd (hholds c hcs) (hholds d hds),
    fun c hc hcs => ?_⟩
  have hw := hi.wrote c hc
  unfold Wrote at hw
  cases hph : c.phase with
  | returned r =>
    cases r with
    | error e => simp [hph, Phase.succeeded] at hcs
    | ok r =>
      rw [hph] at hw
      obtain ⟨keys, hkeys, hreg⟩ := hw
      exact ⟨keys, hkeys, hreg.agentInfo, hreg.signer, hreg.provider,
        hreg.store (hjson c hc keys hkeys)⟩
  | _ => simp [hph, Phase.succeeded] at hcs

end

/-! ## Samples -/

/-- All the calls of request `h`. -/
def allCalls (h : Nat) : List Label := List.replicate 9 (.call h)

def sampleStart : State := ⟨freshAgent, []⟩

/-- `registered_once` where a second request comes after the first has been answered. -/
theorem registered_once_sample :
    ∃ s, (registering sampleStd "feed").ReachableBy Alone s ∧ s.requests.length = 2 ∧
      s.agent.agentInfo = some (newInfo sampleReq sampleKeys) ∧
      getAgentInfo sampleStd.json s.agent.kv = .ok (some (newInfo sampleReq sampleKeys)) := by
  obtain ⟨s, hr, hs⟩ := System.exists_reachableBy (M := registering sampleStd "feed") (G := Alone)
    (g := fun s a => decide (Alone s a)) (fun _ _ => of_decide_eq_true) (s := sampleStart)
    ⟨rfl, rfl⟩ (.start sampleReq sampleAnswers :: allCalls 0 ++
      [.start sampleReq sampleAnswers, .call 1])
    (fun s => s.requests.length = 2 && s.requests.all (fun c =>
        c.req = sampleReq && c.answers.genKeys = some sampleKeys) &&
      s.requests.any (fun c => c.phase.succeeded)) (by decide +kernel)
  simp only [Bool.and_eq_true, decide_eq_true_eq, List.all_eq_true, List.any_eq_true] at hs
  obtain ⟨⟨hlen, hall⟩, c, hc, hsucc⟩ := hs
  obtain ⟨keys, hkeys, hinfo, -, -, hstore⟩ := (registered_once hr fun d hd keys hkeys => by
    obtain ⟨hreq, hk⟩ := hall d hd
    rw [hreq, Option.some.inj (hkeys.symm.trans hk)]
    unfold Json.RoundTrips
    decide +kernel).2 c hc hsucc
  obtain ⟨hreq, hk⟩ := hall c hc
  rw [hreq, Option.some.inj (hkeys.symm.trans hk)] at hinfo hstore
  exact ⟨s, hr, hlen, hinfo, hstore⟩

/-- **Registered twice.** Two requests pass the check before either sets `agentInfo`, and both get
a response. -/
theorem registered_twice :
    ¬ ∀ s, (registering sampleStd "feed").Reachable s → ∀ (g h : Nat) (c d : Request),
      s.requests[g]? = some c → s.requests[h]? = some d → c.phase.succeeded = true →
        d.phase.succeeded = true → g = h := by
  intro hall
  obtain ⟨s, hr, hs⟩ := System.exists_reachable (M := registering sampleStd "feed")
    (s := sampleStart) ⟨rfl, rfl⟩
    ([.start sampleReq sampleAnswers,
      .start ⟨"other", "c2VjcmV0", "workspace"⟩
        { sampleAnswers with genKeys := some ⟨"QUM=", "QUJE", "RUQ=", "RUNF"⟩ },
      .call 0, .call 1] ++ (allCalls 0).tail ++ (allCalls 1).tail)
    (fun s => s.requests.length = 2 && s.requests.all (fun c => c.phase.succeeded))
    (by decide +kernel)
  simp only [Bool.and_eq_true, decide_eq_true_eq, List.all_eq_true] at hs
  obtain ⟨hlen, hsucc⟩ := hs
  have h0 : s.requests[0]? = some s.requests[0] := List.getElem?_eq_getElem (by omega)
  have h1 : s.requests[1]? = some s.requests[1] := List.getElem?_eq_getElem (by omega)
  exact absurd (hall s hr 0 1 _ _ h0 h1 (hsucc _ (List.mem_of_getElem? h0))
    (hsucc _ (List.mem_of_getElem? h1))) (by decide)

end SigningAgent.Service
