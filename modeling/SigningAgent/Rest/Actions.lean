import SigningAgent.Action.Posts
import SigningAgent.Rest.Response

/-!
# Approving and rejecting over HTTP (`internal/rest/handler.go`)

A request for `/client/action/{action_id}` goes through the handler, the action service
(`internal/service/action_service.go`) and the signer, and its answer comes back through all of them
as one response.

* `ActionAnswers` is what the request meets outside: the synchronizer, the key of the signer, and
  the backend's answers to the GET and the POST. `Release` and `RemoveMessage` have no part in the
  response.
* A panic of the handler ends the connection; then there is no response.
* The path variable is a `String`, so one that is not valid UTF-8 is left out.

**`action_responses`**: the response, for every request. A 200 says that the backend has accepted
the POST, or that the action was somebody else's; a 400 that there was no ID, or nothing to be
signed. A request that asks for a websocket as well gets an empty 200, unless the handler panics.
The POST carries what `BLSSign` has returned, whose error the signer drops.
-/

namespace SigningAgent.Rest

open Action.Signer Util

/-! ## The action service -/

/-- `unicode.IsSpace`. -/
def isSpace (c : Char) : Bool :=
  [0x09, 0x0a, 0x0b, 0x0c, 0x0d, 0x20, 0x85, 0xa0, 0x1680, 0x2000, 0x2001, 0x2002, 0x2003, 0x2004,
    0x2005, 0x2006, 0x2007, 0x2008, 0x2009, 0x200a, 0x2028, 0x2029, 0x202f, 0x205f,
    0x3000].contains c.toNat

/-- `strings.TrimSpace`. -/
def trimSpace (s : String) : String :=
  String.ofList ((s.toList.dropWhile isSpace).reverse.dropWhile isSpace).reverse

/-- What the synchronizer answers. -/
structure SyncAnswers where
  shouldHandleAction : Bool
  /-- the error of `AcquireLock` -/
  acquireErr : Option String
  deriving DecidableEq, Repr

structure ActionAnswers where
  sync : SyncAnswers
  key : Bytes
  get : Exchange
  post : Exchange
  deriving DecidableEq, Repr

/-- The service and the signer below it; `errorText` is `Error` of what `Client.Request` returns. -/
structure ActionService where
  world : World
  loadBalancingEnabled : Bool
  errorText : RequestError → String

inductive ActError where
  | acquire (err : String)
  | signer (e : SignerError)
  deriving DecidableEq, Repr

structure Acted where
  outcome : Outcome ActError Unit
  posts : List Post

/-- The result of a call of the signer, as `act` returns it. -/
def Acted.ofSigner (r : Result) : Acted :=
  ⟨match r.outcome with
    | .ok () => .ok ()
    | .error .panic => .error .panic
    | .error (.error e) => .error (.error (.signer e)), r.posts⟩

/-- `act`. -/
def act (s : ActionService) (actionID : String) (approve : Bool) (x : ActionAnswers) : Acted :=
  let signed := Acted.ofSigner <|
    if approve then actionApprove s.world x.key actionID x.get x.post
    else actionReject s.world x.key actionID x.get x.post
  if s.loadBalancingEnabled then
    if !x.sync.shouldHandleAction then ⟨.ok (), []⟩
    else
      match x.sync.acquireErr with
      | some err => ⟨.error (.error (.acquire err)), []⟩
      | none => signed
  else signed

/-! ## The handlers -/

/-- `api.ActionResponse`. -/
structure ActionResponse where
  actionID : String
  status : String
  deriving DecidableEq, Repr

/-- The errors of the service as Go has them. Those of the signer that are no `APIError` have a text
only, and so have those of the lock. -/
def ActError.toGo (errorText : RequestError → String) : ActError → GoError
  | .acquire err => .text err
  | .signer .invalidKey => .text "invalid bls key"
  | .signer (.request e) => .text (errorText e)
  | .signer (.badRequest detail) => .api .badRequest detail
  | .signer (.internal detail) => .api .internal detail

/-- What a handler returns, and what was posted meanwhile. -/
structure Handled (α : Type) where
  result : Outcome GoError (Option α)
  posts : List Post

/-- The common body of `ActionApprove` and `ActionReject`, for the path variable `action_id`. -/
def actionHandler (s : ActionService) (approve : Bool) (status : String) (v : String)
    (x : ActionAnswers) : Handled ActionResponse :=
  let actionID := trimSpace v
  if actionID = "" then ⟨.error (.error (.api .badRequest "empty actionID")), []⟩
  else
    let r := act s actionID approve x
    ⟨match r.outcome with
      | .ok () => .ok (some ⟨actionID, status⟩)
      | .error .panic => .error .panic
      | .error (.error e) => .error (.error (e.toGo s.errorText)), r.posts⟩

/-- `Router.ActionApprove`. -/
def approveHandler (s : ActionService) := actionHandler s true "approved"

/-- `Router.ActionReject`. -/
def rejectHandler (s : ActionService) := actionHandler s false "rejected"

/-! ## What a request comes to -/

/-- Another agent, or another request, has taken the action. -/
def Elsewhere (s : ActionService) (x : ActionAnswers) : Prop :=
  s.loadBalancingEnabled = true ∧ x.sync.shouldHandleAction = false

/-- The request gets as far as the signer. -/
def Called (s : ActionService) (actionID : String) (x : ActionAnswers) : Prop :=
  actionID ≠ "" ∧ (s.loadBalancingEnabled = true →
    x.sync.shouldHandleAction = true ∧ x.sync.acquireErr = none)

/-- The signer's call. -/
def signerCall (approve : Bool) (actionID : String) (x : ActionAnswers) : Call :=
  if approve then .actionApprove actionID x.get x.post else .actionReject actionID x.get x.post

/-- The status that it posts. -/
def signerStatus (approve : Bool) : Int := if approve then Action.Signer.approve else reject

section

variable {s : ActionService} {approve : Bool} {status v : String} {x : ActionAnswers}
  {headers : Headers}

theorem Called.not_elsewhere {actionID : String} (h : Called s actionID x) : ¬ Elsewhere s x := by
  rintro ⟨hlb, hno⟩
  rw [(h.2 hlb).1] at hno
  cases hno

/-- The signer's call is that of the model of the signer. -/
theorem exec_signerCall (w : World) (actionID : String) :
    (exec w (signerCall approve actionID x) x.key).1 =
      signFetched w (signerStatus approve) x.key actionID x.get x.post := by
  cases approve <;> rfl

theorem act_called {actionID : String} (h : Called s actionID x) :
    act s actionID approve x = .ofSigner
      (signFetched s.world (signerStatus approve) x.key actionID x.get x.post) := by
  have hsigned : (if approve then actionApprove s.world x.key actionID x.get x.post
      else actionReject s.world x.key actionID x.get x.post) =
        signFetched s.world (signerStatus approve) x.key actionID x.get x.post := by
    cases approve <;> rfl
  unfold act
  by_cases hlb : s.loadBalancingEnabled = true
  · obtain ⟨hshould, hlock⟩ := h.2 hlb
    simp only [hlb, if_true, hshould, Bool.not_true, Bool.false_eq_true, if_false, hlock, hsigned]
  · simp only [hlb, if_false, hsigned, Bool.false_eq_true]

/-- The ends of the handler before the signer. -/
theorem actionHandler_cases (s : ActionService) (approve : Bool) (status v : String)
    (x : ActionAnswers) :
    (trimSpace v = "" ∧ actionHandler s approve status v x =
      ⟨.error (.error (.api .badRequest "empty actionID")), []⟩) ∨
    (trimSpace v ≠ "" ∧ Elsewhere s x ∧ actionHandler s approve status v x =
      ⟨.ok (some ⟨trimSpace v, status⟩), []⟩) ∨
    (trimSpace v ≠ "" ∧ ¬ Elsewhere s x ∧ ¬ Called s (trimSpace v) x ∧
      ∃ err, actionHandler s approve status v x = ⟨.error (.error (.text err)), []⟩) ∨
    (Called s (trimSpace v) x ∧ (actionHandler s approve status v x).posts =
      (signFetched s.world (signerStatus approve) x.key (trimSpace v) x.get x.post).posts) := by
  by_cases hid : trimSpace v = ""
  · exact Or.inl ⟨hid, by unfold actionHandler; rw [if_pos hid]⟩
  · refine Or.inr ?_
    by_cases hcalled : Called s (trimSpace v) x
    · refine Or.inr (Or.inr ⟨hcalled, ?_⟩)
      unfold actionHandler
      rw [if_neg hid, act_called hcalled]
      rfl
    · have hlb : s.loadBalancingEnabled = true := by
        by_contra hlb
        exact hcalled ⟨hid, fun h => absurd h hlb⟩
      cases hshould : x.sync.shouldHandleAction with
      | false =>
        refine Or.inl ⟨hid, ⟨hlb, hshould⟩, ?_⟩
        simp only [actionHandler, if_neg hid, act, hlb, if_true, hshould, Bool.not_false]
      | true =>
        refine Or.inr (Or.inl ⟨hid, by simp [Elsewhere, hshould], hcalled, ?_⟩)
        cases hlock : x.sync.acquireErr with
        | none => exact absurd ⟨hid, fun _ => ⟨hshould, hlock⟩⟩ hcalled
        | some err =>
          refine ⟨err, ?_⟩
          simp only [actionHandler, if_neg hid, act, hlb, if_true, hshould, Bool.not_true,
            Bool.false_eq_true, if_false, hlock, ActError.toGo]

/-! ## After the signer -/

section

variable (h : Called s (trimSpace v) x)
include h

theorem handler_ok (ho : (signFetched s.world (signerStatus approve) x.key (trimSpace v) x.get
      x.post).outcome = .ok ()) :
    (actionHandler s approve status v x).result = .ok (some ⟨trimSpace v, status⟩) := by
  simp only [actionHandler, if_neg h.1, act_called h, Acted.ofSigner, ho]

theorem handler_panics (ho : (signFetched s.world (signerStatus approve) x.key (trimSpace v) x.get
      x.post).outcome = .error .panic) :
    (actionHandler s approve status v x).result = .error .panic := by
  simp only [actionHandler, if_neg h.1, act_called h, Acted.ofSigner, ho]

theorem handler_error {e : SignerError} (ho : (signFetched s.world (signerStatus approve) x.key
      (trimSpace v) x.get x.post).outcome = .error (.error e)) :
    (actionHandler s approve status v x).result =
      .error (.error ((ActError.signer e).toGo s.errorText)) := by
  simp only [actionHandler, if_neg h.1, act_called h, Acted.ofSigner, ho]

end

/-! ## Responses -/

/-- A 400 of the signer is the one error that blames the request. -/
theorem status_toGo (errorText : RequestError → String) (e : SignerError)
    (he : ∀ detail, e ≠ .badRequest detail) :
    (toAPIError ((ActError.signer e).toGo errorText)).code = .internal := by
  cases e with
  | badRequest detail => exact absurd rfl (he detail)
  | invalidKey | request | internal => rfl

/-- What the response to a request for an action says, if there is one. -/
structure Says (s : ActionService) (approve : Bool) (status v : String) (x : ActionAnswers)
    (r : Response ActionResponse) : Prop where
  /-- done, by the backend's word or by someone else -/
  done : r.status = 200 ↔ trimSpace v ≠ "" ∧ (Elsewhere s x ∨
    Called s (trimSpace v) x ∧ Accepted s.world x.key (trimSpace v) x.get x.post)
  names : r.status = 200 → r.body = some (.value ⟨trimSpace v, status⟩)
  /-- the request is to blame -/
  blames : r.status = 400 ↔ trimSpace v = "" ∨
    Called s (trimSpace v) x ∧ NotPending s.world (trimSpace v) x.get
  fails : r.status ≠ 200 → r.status = 400 ∨ r.status = 500

/-- The response where the action is done. -/
theorem says_of_ok {r : Response ActionResponse} (hstatus : r.status = 200)
    (hbody : r.body = some (.value ⟨trimSpace v, status⟩)) (hid : trimSpace v ≠ "")
    (hdone : Elsewhere s x ∨
      Called s (trimSpace v) x ∧ Accepted s.world x.key (trimSpace v) x.get x.post) :
    Says s approve status v x r := by
  refine ⟨⟨fun _ => ⟨hid, hdone⟩, fun _ => hstatus⟩, fun _ => hbody, ⟨fun h => ?_, ?_⟩,
    fun h => absurd hstatus h⟩
  · rw [hstatus] at h
    cases h
  · rintro (h | ⟨hcalled, hpending⟩)
    · exact absurd h hid
    · rcases hdone with helse | ⟨-, -, ⟨_, hm⟩, -⟩
      · exact absurd helse hcalled.not_elsewhere
      · exact absurd hpending hm.not_notPending

/-- The response where the request is to blame. -/
theorem says_of_blame {r : Response ActionResponse} (hstatus : r.status = 400)
    (hblame : trimSpace v = "" ∨
      Called s (trimSpace v) x ∧ NotPending s.world (trimSpace v) x.get) :
    Says s approve status v x r := by
  refine ⟨⟨fun h => ?_, ?_⟩, fun h => ?_, ⟨fun _ => hblame, fun _ => hstatus⟩,
    fun _ => Or.inl hstatus⟩
  · rw [hstatus] at h
    cases h
  · rintro ⟨hid, hdone⟩
    rcases hblame with h | ⟨hcalled, hpending⟩
    · exact absurd h hid
    · rcases hdone with helse | ⟨-, -, ⟨_, hm⟩, -⟩
      · exact absurd helse hcalled.not_elsewhere
      · exact absurd hpending hm.not_notPending
  · rw [hstatus] at h
    cases h

/-- The response where something else has failed. -/
theorem says_of_failure {r : Response ActionResponse} (hstatus : r.status = 500)
    (hid : trimSpace v ≠ "") (hnot : ¬ Elsewhere s x)
    (haccepted : Called s (trimSpace v) x → ¬ Accepted s.world x.key (trimSpace v) x.get x.post ∧
      ¬ NotPending s.world (trimSpace v) x.get) : Says s approve status v x r := by
  refine ⟨⟨fun h => ?_, ?_⟩, fun h => ?_, ⟨fun h => ?_, ?_⟩, fun _ => Or.inr hstatus⟩
  · rw [hstatus] at h
    cases h
  · rintro ⟨-, helse | ⟨hcalled, hdone⟩⟩
    · exact absurd helse hnot
    · exact absurd hdone (haccepted hcalled).1
  · rw [hstatus] at h
    cases h
  · rw [hstatus] at h
    cases h
  · rintro (h | ⟨hcalled, hpending⟩)
    · exact absurd h hid
    · exact absurd hpending (haccepted hcalled).2

/-- The handler panics exactly if the signer does. -/
theorem handler_panics_iff : (actionHandler s approve status v x).result = .error .panic ↔
    Called s (trimSpace v) x ∧ WithoutMessages s.world (trimSpace v) x.get := by
  rcases actionHandler_cases s approve status v x with
    ⟨hid, heq⟩ | ⟨-, helse, heq⟩ | ⟨-, -, hnot, err, heq⟩ | ⟨hcalled, -⟩
  · rw [heq]
    exact ⟨fun h => by simp at h, fun h => absurd hid h.1.1⟩
  · rw [heq]
    exact ⟨fun h => by simp at h, fun h => absurd helse h.1.not_elsewhere⟩
  · rw [heq]
    exact ⟨fun h => by simp at h, fun h => absurd h.1 hnot⟩
  · rcases signFetched_cases s.world (signerStatus approve) x.key (trimSpace v) x.get x.post with
      ⟨⟨-, ⟨_, hm⟩, -⟩, ho⟩ | ⟨hblank, ho⟩ | ⟨hpending, detail, ho⟩ | ⟨-, hblank, -, e, ho, -⟩
    · rw [handler_ok hcalled ho]
      exact ⟨fun h => by simp at h, fun h => absurd h.2 hm.not_withoutMessages⟩
    · exact ⟨fun _ => ⟨hcalled, hblank⟩, fun _ => handler_panics hcalled ho⟩
    · rw [handler_error hcalled ho]
      refine ⟨fun h => by simp at h, ?_⟩
      rintro ⟨-, resp, hf, hp, -⟩
      obtain ⟨resp', hf', hne⟩ := hpending
      obtain rfl := hf.2.unique hf'.2
      exact absurd hp hne
    · rw [handler_error hcalled ho]
      exact ⟨fun h => by simp at h, fun h => absurd h.2 hblank⟩

/-- Where the request does not ask for a websocket, the response says what has happened. -/
theorem says_of_respond {r : Response ActionResponse} (hup : headers.upgrades = false)
    (hr : respond headers (actionHandler s approve status v x).result = some r) :
    Says s approve status v x r := by
  rcases actionHandler_cases s approve status v x with
    ⟨hid, heq⟩ | ⟨hid, helse, heq⟩ | ⟨hid, hnot, hncalled, err, heq⟩ | ⟨hcalled, -⟩
  · obtain ⟨r', hr', hstatus, -⟩ :=
      respond_error (α := ActionResponse) hup (.api .badRequest "empty actionID")
    obtain rfl : r' = r := by simpa [heq, hr'] using hr
    exact says_of_blame hstatus (Or.inl hid)
  · obtain ⟨r', hr', hstatus, hbody⟩ := respond_ok hup (⟨trimSpace v, status⟩ : ActionResponse)
    obtain rfl : r' = r := by simpa [heq, hr'] using hr
    exact says_of_ok hstatus hbody hid (Or.inl helse)
  · obtain ⟨r', hr', hstatus, -⟩ := respond_error (α := ActionResponse) hup (.text err)
    obtain rfl : r' = r := by simpa [heq, hr'] using hr
    exact says_of_failure hstatus hid hnot fun h => absurd h hncalled
  · have hnot := hcalled.not_elsewhere
    rcases signFetched_cases s.world (signerStatus approve) x.key (trimSpace v) x.get x.post with
      ⟨haccepted, ho⟩ | ⟨-, ho⟩ | ⟨hpending, detail, ho⟩ | ⟨haccepted, -, hpending, e, ho, he⟩
    · obtain ⟨r', hr', hstatus, hbody⟩ := respond_ok hup (⟨trimSpace v, status⟩ : ActionResponse)
      rw [handler_ok hcalled ho] at hr
      obtain rfl : r' = r := Option.some.inj (hr'.symm.trans hr)
      exact says_of_ok hstatus hbody hcalled.1 (Or.inr ⟨hcalled, haccepted⟩)
    · rw [handler_panics hcalled ho] at hr
      cases hr
    · rw [handler_error hcalled ho] at hr
      obtain ⟨r', hr', hstatus, -⟩ := respond_error (α := ActionResponse) hup
        ((ActError.signer (.badRequest detail)).toGo s.errorText)
      obtain rfl : r' = r := Option.some.inj (hr'.symm.trans hr)
      exact says_of_blame hstatus (Or.inr ⟨hcalled, hpending⟩)
    · rw [handler_error hcalled ho] at hr
      obtain ⟨r', hr', hstatus, -⟩ := respond_error (α := ActionResponse) hup
        ((ActError.signer e).toGo s.errorText)
      obtain rfl : r' = r := Option.some.inj (hr'.symm.trans hr)
      rw [status_toGo s.errorText e he] at hstatus
      exact says_of_failure hstatus hcalled.1 hnot fun _ => ⟨haccepted, hpending⟩

theorem handler_posts : ∀ p ∈ (actionHandler s approve status v x).posts,
    Carries s.world x.key (signerCall approve (trimSpace v) x) p := by
  rcases actionHandler_cases s approve status v x with
    ⟨-, heq⟩ | ⟨-, -, heq⟩ | ⟨-, -, -, err, heq⟩ | ⟨-, hposts⟩
  · simp [heq]
  · simp [heq]
  · simp [heq]
  · rw [hposts, ← exec_signerCall]
    exact posts_signed s.world x.key _

/-- A 200 for an action that nobody else has taken. -/
theorem handler_accepted (hcalled : Called s (trimSpace v) x)
    (haccepted : Accepted s.world x.key (trimSpace v) x.get x.post) :
    ∃ p ∈ (actionHandler s approve status v x).posts, p.exchange.ok = true := by
  rcases actionHandler_cases s approve status v x with
    ⟨hid, -⟩ | ⟨-, helse, -⟩ | ⟨-, -, hnot, -⟩ | ⟨-, hposts⟩
  · exact absurd hid hcalled.1
  · exact absurd helse hcalled.not_elsewhere
  · exact absurd hcalled hnot
  · rw [hposts, ← exec_signerCall]
    refine posts_accepted (by cases approve <;> simp [signerCall]) ?_
    rw [exec_signerCall]
    rcases signFetched_cases s.world (signerStatus approve) x.key (trimSpace v) x.get x.post with
      ⟨-, ho⟩ | ⟨hblank, -⟩ | ⟨hpending, -⟩ | ⟨hnot, -⟩
    · exact ho
    · obtain ⟨-, ⟨_, hm⟩, -⟩ := haccepted
      exact absurd hblank hm.not_withoutMessages
    · obtain ⟨-, ⟨_, hm⟩, -⟩ := haccepted
      exact absurd hpending hm.not_notPending
    · exact absurd haccepted hnot

/-- **What a request for an action is answered.** The handler panics, and then there is no response,
exactly for a pending action without messages. Otherwise the response says what has happened, unless
the request asks for a websocket: that is a 200 without a body. Whatever is posted carries what
`BLSSign` has returned for the call's message, and where the response says that the action is done
and nobody else did it, the backend has accepted such a POST. -/
theorem action_responses (s : ActionService) (approve : Bool) (status : String) (headers : Headers)
    (v : String) (x : ActionAnswers) :
    (respond headers (actionHandler s approve status v x).result = none ↔
      Called s (trimSpace v) x ∧ WithoutMessages s.world (trimSpace v) x.get) ∧
    (headers.upgrades = true → ∀ r, respond headers (actionHandler s approve status v x).result =
      some r → r.status = 200 ∧ r.body = none) ∧
    (headers.upgrades = false → ∀ r, respond headers (actionHandler s approve status v x).result =
      some r → Says s approve status v x r ∧
        (r.status = 200 → ¬ Elsewhere s x →
          ∃ p ∈ (actionHandler s approve status v x).posts, p.exchange.ok = true)) ∧
    ∀ p ∈ (actionHandler s approve status v x).posts,
      Carries s.world x.key (signerCall approve (trimSpace v) x) p := by
  refine ⟨respond_none_iff.trans handler_panics_iff, fun hup r hr => respond_upgrades hup hr,
    fun hup r hr => ?_, handler_posts⟩
  have hresp := says_of_respond hup hr
  refine ⟨hresp, fun hstatus hnot => ?_⟩
  obtain ⟨-, helse | ⟨hcalled, haccepted⟩⟩ := hresp.done.mp hstatus
  · exact absurd helse hnot
  · exact handler_accepted hcalled haccepted

end

end SigningAgent.Rest
