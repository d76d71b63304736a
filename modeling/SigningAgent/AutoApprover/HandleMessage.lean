import SigningAgent.Defs

/-!
# Handling one feed message (`internal/autoapprover`)

`handleMessage` decodes a message, checks it, takes the lock of the action under load balancing, and
has the signer approve it until that works or the time for it is up. The deferred `Release` runs on
every exit after a successful `AcquireLock`, a panic included.

* `World` is what the outside answers: the JSON decoder, the clock, the synchronizer and the signer
  (`approveErr i` is the answer to the `i`-th call). The clock goes on: `since` passes every
  duration.
* `approveAction` is a loop that the model runs with fuel; `handleMessage_returns` says that enough
  fuel gives its result.
* `Event` records the calls, in order.

Results:
* **`handleMessage_safe_iff`**: a message is handled safely exactly if it is not an accepted action
  without messages.
* `handleMessage_overruns`: for such a message `action.Messages[0]` panics, under the lock.
-/

namespace SigningAgent.AutoApprover

/-- What `handleMessage` reads and writes of an `autoActionApprover`. -/
structure Approver where
  lastError : Option String
  loadBalancingEnabled : Bool
  retryInterval : Int
  retryIntervalMax : Int
  deriving DecidableEq, Repr

/-- What the outside answers while one message is handled. -/
structure World where
  /-- `json.Unmarshal` into an `ActionInfo` -/
  decode : Bytes → Except String ActionInfo
  now : Int
  shouldHandleAction : String → Bool
  acquireLock : Option String
  approveErr : Nat → Option String
  /-- `time.Since(t.start)` after the `i`-th failed call -/
  since : Nat → Int
  passes : ∀ d, ∃ i, d ≤ since i

inductive Event where
  | shouldHandleAction (actionID : String)
  | acquireLock (err : Option String)
  | approveActionMessage (actionID : String) (message : Bytes) (err : Option String)
  | sleep (seconds : Int)
  | release (actionID : String)
  deriving DecidableEq, Repr

/-- `retryTimer`, without its start. -/
structure RetryTimer where
  baseInc : Int
  timeEdge : Int
  retryInterval : Int
  deriving DecidableEq, Repr

/-- `newRetryTimer`. -/
def newRetryTimer (retry retryMax : Int) : RetryTimer := ⟨retry, seconds retryMax, retry⟩

/-- `isTimeOut`, when `since` has passed. -/
def RetryTimer.isTimeOut (since : Int) (t : RetryTimer) : Bool := decide (t.timeEdge ≤ since)

/-- What `retry` leaves behind, after a sleep of `baseInc` seconds. -/
def RetryTimer.retry (t : RetryTimer) : RetryTimer :=
  { t with baseInc := t.baseInc + t.retryInterval }

/-- How `handleMessage` ends, and what it did. -/
structure Handled where
  outcome : Outcome Empty Unit
  events : List Event
  lastError : Option String
  deriving DecidableEq

section

variable (p : Approver) (w : World)

/-- The loop of `approveAction`, from the `i`-th call on. -/
def approveLoop (actionId : String) (message : Bytes) :
    (fuel : Nat) → (i : Nat) → RetryTimer → Option (List Event)
  | 0, _, _ => none
  | fuel + 1, i, timer =>
    let call := .approveActionMessage actionId message (w.approveErr i)
    match w.approveErr i with
    | none => some [call]
    | some _ =>
      if timer.isTimeOut (w.since i) then some [call]
      else (approveLoop actionId message fuel (i + 1) timer.retry).map
        fun events => call :: .sleep timer.baseInc :: events

/-- `approveAction`. -/
def approveAction (fuel : Nat) (actionId : String) (message : Bytes) : Option (List Event) :=
  approveLoop w actionId message fuel 0 (newRetryTimer p.retryInterval p.retryIntervalMax)

/-- `a.approveAction(action.ID, action.Messages[0])`. -/
def approveFirst (fuel : Nat) (action : ActionInfo) : Option (Outcome Empty Unit × List Event) :=
  match (index action.messages 0 : Outcome Empty Bytes) with
  | .ok message =>
    (approveAction p w fuel action.id message).map fun events => (.ok (), events)
  | .error e => some (.error e, [])

/-- `handleAction`. -/
def handleAction (fuel : Nat) (action : ActionInfo) : Option (Outcome Empty Unit × List Event) :=
  if p.loadBalancingEnabled then
    match w.acquireLock with
    | some err => some (.ok (), [.acquireLock (some err)])
    | none => (approveFirst p w fuel action).map fun (outcome, events) =>
      (outcome, .acquireLock none :: events ++ [.release action.id])
  else approveFirst p w fuel action

/-- `handleMessage`. -/
def handleMessage (fuel : Nat) (message : Bytes) : Option Handled :=
  match w.decode message with
  | .error err => some ⟨.ok (), [], some err⟩
  | .ok action =>
    if action.isExpired w.now then some ⟨.ok (), [], p.lastError⟩
    else if action.status = statusPending then
      if p.loadBalancingEnabled then
        if w.shouldHandleAction action.id then
          (handleAction p w fuel action).map fun (outcome, events) =>
            ⟨outcome, .shouldHandleAction action.id :: events, p.lastError⟩
        else some ⟨.ok (), [.shouldHandleAction action.id], p.lastError⟩
      else (handleAction p w fuel action).map fun (outcome, events) =>
        ⟨outcome, events, p.lastError⟩
    else some ⟨.ok (), [], p.lastError⟩

end

/-! ## What the loop does -/

/-- A signer call. -/
def Event.isApprove : Event → Bool
  | .approveActionMessage .. => true
  | _ => false

/-- A call of `Release`. -/
def Event.isRelease : Event → Bool
  | .release _ => true
  | _ => false

/-- `e` is a signer call for this ID and message. -/
def Event.Approves (actionID : String) (message : Bytes) (e : Event) : Prop :=
  ∃ err, e = .approveActionMessage actionID message err

/-- The events of `approveAction`: at least one signer call, each of them for the action and
message, and no call of the synchronizer. -/
structure Approving (actionID : String) (message : Bytes) (events : List Event) : Prop where
  called : ∃ e ∈ events, e.isApprove = true
  own : ∀ e ∈ events, e.isApprove = true → e.Approves actionID message
  noRelease : ∀ e ∈ events, e.isRelease = false
  noLock : ∀ err, .acquireLock err ∉ events

theorem approving_singleton (actionID : String) (message : Bytes) (err : Option String) :
    Approving actionID message [.approveActionMessage actionID message err] where
  called := ⟨_, List.mem_singleton_self _, rfl⟩
  own e he _ := ⟨err, List.mem_singleton.mp he⟩
  noRelease e he := by rw [List.mem_singleton.mp he]; rfl
  noLock err' he := by cases List.mem_singleton.mp he

theorem Approving.cons {actionID : String} {message : Bytes} {events : List Event}
    (h : Approving actionID message events) (err : Option String) (n : Int) :
    Approving actionID message
      (.approveActionMessage actionID message err :: .sleep n :: events) where
  called := ⟨_, List.mem_cons_self, rfl⟩
  own e he ha := by
    rcases List.mem_cons.mp he with rfl | he
    · exact ⟨err, rfl⟩
    · rcases List.mem_cons.mp he with rfl | he
      · cases ha
      · exact h.own e he ha
  noRelease e he := by
    rcases List.mem_cons.mp he with rfl | he
    · rfl
    · rcases List.mem_cons.mp he with rfl | he
      · rfl
      · exact h.noRelease e he
  noLock err' he := by
    simp only [List.mem_cons, reduceCtorEq, false_or] at he
    exact h.noLock err' he

section

variable {p : Approver} {w : World} {actionID : String} {message : Bytes}

/-- What the loop returns, with whatever fuel. -/
theorem approving_of_loop : ∀ {fuel i : Nat} {timer : RetryTimer} {events : List Event},
    approveLoop w actionID message fuel i timer = some events → Approving actionID message events
  | 0, _, _, _, h => by cases h
  | fuel + 1, i, timer, events, h => by
    simp only [approveLoop] at h
    cases herr : w.approveErr i with
    | none =>
      rw [herr] at h
      cases h
      exact approving_singleton actionID message none
    | some err =>
      simp only [herr] at h
      split at h
      · cases h
        exact approving_singleton actionID message (some err)
      · obtain ⟨rest, hrest, rfl⟩ := Option.map_eq_some_iff.mp h
        exact (approving_of_loop hrest).cons (some err) timer.baseInc

/-- Enough fuel: if the loop, started at call `i`, has a call `i + n` at which time is up, then it
needs no more than `n + 1` rounds. -/
theorem exists_approveLoop (edge : Int) : ∀ (n i : Nat) (timer : RetryTimer),
    timer.timeEdge = edge → edge ≤ w.since (i + n) →
    ∃ events, ∀ fuel, n < fuel → approveLoop w actionID message fuel i timer = some events
  | 0, i, timer, hedge, hup => by
    refine ⟨[.approveActionMessage actionID message (w.approveErr i)], fun fuel hfuel => ?_⟩
    obtain ⟨fuel, rfl⟩ := Nat.exists_eq_succ_of_ne_zero (Nat.ne_of_gt hfuel)
    have hout : timer.isTimeOut (w.since i) = true := by
      rw [RetryTimer.isTimeOut, hedge]
      exact decide_eq_true hup
    simp only [approveLoop, hout, if_true]
    cases w.approveErr i <;> rfl
  | n + 1, i, timer, hedge, hup => by
    obtain ⟨events, hevents⟩ := exists_approveLoop edge n (i + 1) timer.retry hedge
      (by rw [show i + 1 + n = i + (n + 1) by omega]; exact hup)
    by_cases hstop : w.approveErr i = none ∨ timer.isTimeOut (w.since i) = true
    · refine ⟨[.approveActionMessage actionID message (w.approveErr i)], fun fuel hfuel => ?_⟩
      obtain ⟨fuel, rfl⟩ := Nat.exists_eq_succ_of_ne_zero (Nat.ne_of_gt (Nat.zero_lt_of_lt hfuel))
      simp only [approveLoop]
      rcases hstop with h | h
      · simp [h]
      · cases w.approveErr i <;> simp [h]
    · obtain ⟨herr, hout⟩ := not_or.mp hstop
      obtain ⟨err, herr⟩ := Option.ne_none_iff_exists'.mp herr
      refine ⟨.approveActionMessage actionID message (some err) :: .sleep timer.baseInc :: events,
        fun fuel hfuel => ?_⟩
      obtain ⟨fuel, rfl⟩ := Nat.exists_eq_succ_of_ne_zero (Nat.ne_of_gt (Nat.zero_lt_of_lt hfuel))
      simp only [approveLoop, herr, hout, Bool.false_eq_true, if_false,
        hevents fuel (by omega), Option.map_some]

/-- `approveAction` returns: its time is up some day. -/
theorem approveAction_returns (p : Approver) (w : World) (actionID : String) (message : Bytes) :
    ∃ events, Approving actionID message events ∧
      ∃ n, ∀ fuel, n < fuel → approveAction p w fuel actionID message = some events := by
  obtain ⟨n, hn⟩ := w.passes (newRetryTimer p.retryInterval p.retryIntervalMax).timeEdge
  have hloop : ∃ events, ∀ fuel, n < fuel → approveAction p w fuel actionID message = some events :=
    exists_approveLoop _ n 0 (newRetryTimer p.retryInterval p.retryIntervalMax) rfl
      (by rw [Nat.zero_add]; exact hn)
  obtain ⟨events, hevents⟩ := hloop
  exact ⟨events, approving_of_loop (hevents (n + 1) (Nat.lt_succ_self n)), n, hevents⟩

/-! ## What the checks do -/

/-- The message is an action that every check accepts; nothing is said of its messages. -/
structure Accepts (p : Approver) (w : World) (message : Bytes) (action : ActionInfo) : Prop where
  decoded : w.decode message = .ok action
  alive : w.now < action.expireTime
  isPending : action.status = statusPending
  locked : p.loadBalancingEnabled = true →
    w.shouldHandleAction action.id = true ∧ w.acquireLock = none

/-- The events around those of `approveAction`. -/
def around (p : Approver) (actionID : String) (events : List Event) : List Event :=
  if p.loadBalancingEnabled then
    .shouldHandleAction actionID :: .acquireLock none :: events ++ [.release actionID]
  else events

/-- An accepted action goes to the signer. -/
theorem handleMessage_of_accepts {action : ActionInfo} (h : Accepts p w message action)
    (fuel : Nat) : handleMessage p w fuel message =
      (approveFirst p w fuel action).map fun (outcome, events) =>
        ⟨outcome, around p action.id events, p.lastError⟩ := by
  obtain ⟨hdec, halive, hpending, hlocked⟩ := h
  have hexp : action.isExpired w.now = false := decide_eq_false (Int.not_le.mpr halive)
  unfold handleMessage handleAction around
  simp only [hdec, hexp, hpending, Bool.false_eq_true, if_false, if_true]
  cases hlb : p.loadBalancingEnabled with
  | false => simp
  | true =>
    obtain ⟨hshould, hlock⟩ := hlocked hlb
    simp only [hshould, hlock, if_true, Option.map_map]
    rfl

/-- Everything else ends without the signer and without a lock. -/
structure Refused (events : List Event) : Prop where
  noApprove : ∀ e ∈ events, e.isApprove = false
  noRelease : ∀ e ∈ events, e.isRelease = false
  noLock : .acquireLock none ∉ events

theorem handleMessage_of_refused (h : ∀ action, ¬ Accepts p w message action) :
    ∃ r, (∀ fuel, handleMessage p w fuel message = some r) ∧ r.outcome = .ok () ∧
      Refused r.events := by
  have hnil : Refused [] := ⟨by simp, by simp, by simp⟩
  unfold handleMessage
  cases hdec : w.decode message with
  | error err => exact ⟨_, fun _ => rfl, rfl, hnil⟩
  | ok action =>
    cases hexp : action.isExpired w.now with
    | true => exact ⟨⟨.ok (), [], p.lastError⟩, fun _ => by simp [hexp], rfl, hnil⟩
    | false =>
      by_cases hpending : action.status = statusPending
      · have halive : w.now < action.expireTime := Int.not_le.mp (of_decide_eq_false hexp)
        have hlb : p.loadBalancingEnabled = true := by
          by_contra hlb
          exact h action ⟨hdec, halive, hpending, fun hlb' => absurd hlb' hlb⟩
        cases hshould : w.shouldHandleAction action.id with
        | false =>
          refine ⟨⟨.ok (), [.shouldHandleAction action.id], p.lastError⟩,
            fun _ => by simp [hexp, hpending, hlb, hshould], rfl, ?_⟩
          constructor <;> simp [Event.isApprove, Event.isRelease]
        | true =>
          cases hlock : w.acquireLock with
          | none => exact absurd ⟨hdec, halive, hpending, fun _ => ⟨hshould, hlock⟩⟩ (h action)
          | some err =>
            refine ⟨⟨.ok (), [.shouldHandleAction action.id, .acquireLock (some err)],
              p.lastError⟩, fun _ => by simp [hexp, hpending, hlb, hshould, hlock, handleAction],
              rfl, ?_⟩
            constructor <;> simp [Event.isApprove, Event.isRelease]
      · exact ⟨⟨.ok (), [], p.lastError⟩, fun _ => by simp [hexp, hpending], rfl, hnil⟩

/-! ## Safety -/

/-- A message is handled safely: no panic; the signer is called exactly for accepted actions with a
message, and for their ID and first message only; and a lock that was taken is released once. -/
structure Safe (p : Approver) (w : World) (message : Bytes) (r : Handled) : Prop where
  noPanic : r.outcome = .ok ()
  called : (∃ e ∈ r.events, e.isApprove = true) ↔
    ∃ action, Accepts p w message action ∧ action.messages ≠ []
  own : ∀ e ∈ r.events, e.isApprove = true → ∃ action m, w.decode message = .ok action ∧
    action.messages[0]? = some m ∧ e.Approves action.id m
  released : r.events.countP Event.isRelease = if .acquireLock none ∈ r.events then 1 else 0
  releasedOwn : ∀ actionID, .release actionID ∈ r.events →
    ∃ action, w.decode message = .ok action ∧ actionID = action.id

/-- `handleMessage` returns `r`, given enough fuel. -/
def Returns (p : Approver) (w : World) (message : Bytes) (r : Handled) : Prop :=
  ∃ n, ∀ fuel, n < fuel → handleMessage p w fuel message = some r

theorem Returns.unique {r r' : Handled} (h : Returns p w message r)
    (h' : Returns p w message r') : r = r' := by
  obtain ⟨n, hn⟩ := h
  obtain ⟨n', hn'⟩ := h'
  have hr := hn (max n n' + 1) (by omega)
  rw [hn' (max n n' + 1) (by omega)] at hr
  exact (Option.some.inj hr).symm

theorem Refused.safe {r : Handled} (h : Refused r.events) (hok : r.outcome = .ok ())
    (hno : ∀ action, ¬ Accepts p w message action) : Safe p w message r where
  noPanic := hok
  called := by
    constructor
    · rintro ⟨e, he, ha⟩
      rw [h.noApprove e he] at ha
      cases ha
    · rintro ⟨action, hacc, -⟩
      exact absurd hacc (hno action)
  own e he ha := by
    rw [h.noApprove e he] at ha
    cases ha
  released := by
    rw [if_neg h.noLock, List.countP_eq_zero]
    intro e he
    rw [h.noRelease e he]
    simp
  releasedOwn actionID he := by
    have := h.noRelease _ he
    cases this

/-- The release and the lock of `around` are the only ones. -/
theorem released_around {events : List Event} (h : ∀ e ∈ events, e.isRelease = false)
    (hlock : .acquireLock none ∉ events) (p : Approver) (actionID : String) :
    (around p actionID events).countP Event.isRelease =
      if .acquireLock none ∈ around p actionID events then 1 else 0 := by
  have hcount : events.countP Event.isRelease = 0 := by
    rw [List.countP_eq_zero]
    intro e he
    rw [h e he]
    simp
  unfold around
  cases p.loadBalancingEnabled with
  | false => simp [hcount, hlock]
  | true => simp [List.countP_cons, List.countP_append, hcount, Event.isRelease]

theorem mem_around {e : Event} {events : List Event} (h : e ∈ around p actionID events) :
    e ∈ events ∨ e = .shouldHandleAction actionID ∨ e = .acquireLock none ∨
      e = .release actionID := by
  unfold around at h
  cases hlb : p.loadBalancingEnabled with
  | false =>
    simp only [hlb, Bool.false_eq_true, if_false] at h
    exact Or.inl h
  | true =>
    simp only [hlb, if_true, List.cons_append, List.mem_cons, List.mem_append,
      List.not_mem_nil, or_false] at h
    tauto

theorem mem_around_of_mem {e : Event} {events : List Event} (h : e ∈ events) :
    e ∈ around p actionID events := by
  unfold around
  split
  · simp [h]
  · exact h

/-- An accepted action with a message is handled safely. -/
theorem safe_of_approving {action : ActionInfo} {m : Bytes} {events : List Event}
    (hacc : Accepts p w message action) (hm : action.messages[0]? = some m)
    (h : Approving action.id m events) :
    Safe p w message ⟨.ok (), around p action.id events, p.lastError⟩ where
  noPanic := rfl
  called := by
    obtain ⟨e, he, ha⟩ := h.called
    refine ⟨fun _ => ⟨action, hacc, ?_⟩, fun _ => ⟨e, mem_around_of_mem he, ha⟩⟩
    rintro hnil
    rw [hnil] at hm
    cases hm
  own e he ha := by
    rcases mem_around he with he | rfl | rfl | rfl
    · exact ⟨action, m, hacc.decoded, hm, h.own e he ha⟩
    all_goals cases ha
  released := released_around h.noRelease (h.noLock none) p action.id
  releasedOwn actionID he := by
    rcases mem_around he with he | he | he | he
    · cases h.noRelease _ he
    · cases he
    · cases he
    · exact ⟨action, hacc.decoded, by cases he; rfl⟩

/-- An accepted action without messages: `action.Messages[0]` panics, after the lock was taken. -/
theorem handleMessage_overruns {action : ActionInfo} (hacc : Accepts p w message action)
    (hnil : action.messages = []) (fuel : Nat) : handleMessage p w fuel message =
      some ⟨.error .panic, around p action.id [], p.lastError⟩ := by
  rw [handleMessage_of_accepts hacc]
  simp [approveFirst, hnil, index]

/-- `handleMessage` returns, and unless it panics as above the message is handled safely. -/
theorem handleMessage_returns (p : Approver) (w : World) (message : Bytes) :
    ∃ r, Returns p w message r ∧
      ((∀ action, Accepts p w message action → action.messages ≠ []) → Safe p w message r) := by
  by_cases hacc : ∃ action, Accepts p w message action
  · obtain ⟨action, hacc⟩ := hacc
    cases hm : action.messages with
    | nil =>
      exact ⟨_, ⟨0, fun fuel _ => handleMessage_overruns hacc hm fuel⟩,
        fun hne => absurd hm (hne action hacc)⟩
    | cons m rest =>
      obtain ⟨events, happ, n, hn⟩ := approveAction_returns p w action.id m
      refine ⟨⟨.ok (), around p action.id events, p.lastError⟩, ⟨n, fun fuel hfuel => ?_⟩,
        fun _ => safe_of_approving hacc (by rw [hm]; rfl) happ⟩
      rw [handleMessage_of_accepts hacc]
      have hidx : (index action.messages 0 : Outcome Empty Bytes) = .ok m :=
        index_ok (k := 0) (by rw [hm]; rfl)
      simp [approveFirst, hidx, hn fuel hfuel]
  · have hno : ∀ action, ¬ Accepts p w message action := fun action h => hacc ⟨action, h⟩
    obtain ⟨r, hr, hok, href⟩ := handleMessage_of_refused hno
    exact ⟨r, ⟨0, fun fuel _ => hr fuel⟩, fun _ => href.safe hok hno⟩

/-- **When a message is handled safely**: exactly if it is not an accepted action without
messages. -/
theorem handleMessage_safe_iff (p : Approver) (w : World) (message : Bytes) :
    (∃ r, Returns p w message r ∧ Safe p w message r) ↔
      ∀ action, Accepts p w message action → action.messages ≠ [] := by
  constructor
  · rintro ⟨r, hr, hsafe⟩ action hacc hnil
    have hpanic : Returns p w message ⟨.error .panic, around p action.id [], p.lastError⟩ :=
      ⟨0, fun fuel _ => handleMessage_overruns hacc hnil fuel⟩
    rw [hr.unique hpanic] at hsafe
    cases hsafe.noPanic
  · intro h
    obtain ⟨r, hr, hsafe⟩ := handleMessage_returns p w message
    exact ⟨r, hr, hsafe h⟩

end

/-! ## Samples -/

/-- The JSON text of a pending action without messages. -/
def sampleMessage : Bytes := utf8 "\x7b\"id\":\"a\",\"status\":1,\"expireTime\":100\x7d"

/-- At second 7 the message comes; the signer would approve. -/
def sampleWorld : World where
  decode b := if b = sampleMessage then .ok ⟨"a", statusPending, [], 100⟩ else .error "syntax"
  now := 7
  shouldHandleAction _ := true
  acquireLock := none
  approveErr _ := none
  since i := i
  passes d := ⟨d.toNat, Int.self_le_toNat d⟩

/-- **A message that kills the agent.** -/
theorem handleMessage_panics :
    ¬ ∀ (p : Approver) (w : World) (message : Bytes),
      ∃ r, Returns p w message r ∧ Safe p w message r := by
  intro hall
  obtain ⟨r, hr, hsafe⟩ := hall ⟨none, true, 5, 300⟩ sampleWorld sampleMessage
  have hpanic : Returns ⟨none, true, 5, 300⟩ sampleWorld sampleMessage
      ⟨.error .panic, [.shouldHandleAction "a", .acquireLock none, .release "a"], none⟩ :=
    ⟨0, fun _ _ => rfl⟩
  rw [hr.unique hpanic] at hsafe
  cases hsafe.noPanic

end SigningAgent.AutoApprover
