import SigningAgent.AutoApprover.HandleMessage
import Mathlib.Tactic.Ring

/-!
# When the signer is called

`handleMessage` looks at the expiry of an action once, when the message comes. The wait for the
distributed lock follows, and then the retry loop, whose pauses grow by `RetryInterval` each; the
loop asks whether its time is up before a pause, never after it.

* `Timing` is one course of the clock: when the message comes, how long the lock takes, and how
  long each call of the signer. Times and durations are in nanoseconds. A pause takes the time it
  asks for, and everything else no time. It takes the place of the readings `now` and `since` of a
  `World`.
* `handleMessageAt` gives the `i`-th call of the signer, if there is one: a stream of attempts
  instead of the fuelled loop, so a loop that never ends is covered. `handleMessage_calls`: the
  untimed run makes just these calls.
* `starts p tm i` and `ends p tm i`, from the settings and durations alone, are where the `i`-th
  call starts and ends if all calls before it are retried (`approveAt_iff`).

Results:
* **`beforeExpiry_iff`**: no call is made after the expiry if and only if the expiry falls neither
  into the wait for the lock, nor between a call that is retried and the next one.
* **`inWindow_iff`**: no call is made after `RetryIntervalMax` if and only if every failed call that
  ends earlier leaves room for the pause behind it.
* `exists_overrun`: whatever the settings, some failing call leaves no room.
-/

namespace SigningAgent.AutoApprover

/-- The course of the clock while one message is handled. -/
structure Timing where
  received : Int
  lockWait : Nat
  duration : Nat → Nat

/-- `Unix()`, of a time in nanoseconds. -/
def unix (t : Int) : Int := t / 1000000000

/-- How long `time.Sleep(time.Duration(n) * time.Second)` takes. -/
def sleepTime (n : Int) : Int := max 0 (seconds n)

/-- A call of the signer: its time, and the retry timer at that time. -/
structure Attempt where
  start : Int
  timer : RetryTimer
  deriving DecidableEq, Repr

section

variable (p : Approver) (w : World) (tm : Timing)

/-! ## The code -/

/-- What follows the `i`-th call in the loop of `approveAction`, whose timer was created at
`began`. -/
def retryAfter (began : Int) (i : Nat) (a : Attempt) : Option Attempt :=
  match w.approveErr i with
  | none => none
  | some _ =>
    let ended := a.start + tm.duration i
    if a.timer.isTimeOut (ended - began) then none
    else some ⟨ended + sleepTime a.timer.baseInc, a.timer.retry⟩

/-- `approveAction`, started at `began`: the `i`-th call. -/
def approveAt (began : Int) : (i : Nat) → Option Attempt
  | 0 => some ⟨began, newRetryTimer p.retryInterval p.retryIntervalMax⟩
  | i + 1 => (approveAt began i).bind (retryAfter w tm began i)

/-- `a.approveAction(action.ID, action.Messages[0])`. -/
def approveFirstAt (began : Int) (action : ActionInfo) (i : Nat) : Option Attempt :=
  match (index action.messages 0 : Outcome Empty Bytes) with
  | .ok _ => approveAt p w tm began i
  | .error _ => none

/-- `handleAction`. -/
def handleActionAt (action : ActionInfo) (i : Nat) : Option Attempt :=
  if p.loadBalancingEnabled then
    match w.acquireLock with
    | some _ => none
    | none => approveFirstAt p w tm (tm.received + tm.lockWait) action i
  else approveFirstAt p w tm tm.received action i

/-- `handleMessage`: the `i`-th call of the signer. -/
def handleMessageAt (message : Bytes) (i : Nat) : Option Attempt :=
  match w.decode message with
  | .error _ => none
  | .ok action =>
    if action.isExpired (unix tm.received) then none
    else if action.status = statusPending then
      if p.loadBalancingEnabled then
        if w.shouldHandleAction action.id then handleActionAt p w tm action i
        else none
      else handleActionAt p w tm action i
    else none

/-! ## The calls in closed form -/

/-- The pause after the `i`-th call. -/
def pause (i : Nat) : Int := sleepTime ((i + 1) * p.retryInterval)

/-- The start of the `i`-th call, since the timer was created. -/
def starts : Nat → Int
  | 0 => 0
  | i + 1 => starts i + tm.duration i + pause p i

/-- The end of the `i`-th call. -/
def ends (i : Nat) : Int := starts p tm i + tm.duration i

/-- The `i`-th call fails before the time is up. -/
def Retried (i : Nat) : Prop :=
  w.approveErr i ≠ none ∧ ends p tm i < seconds p.retryIntervalMax

/-- The creation of the timer, for an action that gets so far. -/
def began : Int := if p.loadBalancingEnabled then tm.received + tm.lockWait else tm.received

/-- The world at the time of the message. -/
def Timing.world : World := { w with now := unix tm.received }

end

variable {p : Approver} {w : World} {tm : Timing}

theorem starts_succ (i : Nat) : starts p tm (i + 1) = ends p tm i + pause p i := rfl

theorem pause_nonneg (i : Nat) : 0 ≤ pause p i := le_max_left _ _

theorem starts_nonneg : ∀ i, 0 ≤ starts p tm i
  | 0 => le_rfl
  | i + 1 => by
    have hprev := starts_nonneg i
    have hpause := pause_nonneg (p := p) i
    rw [starts]
    omega

theorem starts_le_ends (i : Nat) : starts p tm i ≤ ends p tm i := by
  rw [ends]
  omega

/-- A call ends before the next one starts. -/
theorem ends_le_starts (i : Nat) : ends p tm i ≤ starts p tm (i + 1) := by
  have := pause_nonneg (p := p) i
  rw [starts_succ]
  omega

/-- Calls end in their order. -/
theorem ends_mono {j i : Nat} (h : j ≤ i) : ends p tm j ≤ ends p tm i := by
  induction i, h using Nat.le_induction with
  | base => exact le_rfl
  | succ i _ ih =>
    have hnext : ends p tm i ≤ starts p tm (i + 1) := ends_le_starts i
    have hends : ends p tm (i + 1) = starts p tm (i + 1) + tm.duration (i + 1) := rfl
    omega

/-- The attempt in which the `i`-th call is made, if it is. -/
def attempt (p : Approver) (tm : Timing) (began : Int) (i : Nat) : Attempt :=
  ⟨began + starts p tm i, (i + 1) * p.retryInterval, seconds p.retryIntervalMax, p.retryInterval⟩

/-- A retry turns the timer of one attempt into that of the next. -/
theorem retry_attempt (began : Int) (i : Nat) :
    (attempt p tm began i).timer.retry = (attempt p tm began (i + 1)).timer := by
  simp only [attempt, RetryTimer.retry, RetryTimer.mk.injEq, and_true]
  push_cast
  ring

theorem retryAfter_attempt (began : Int) (i : Nat) (a : Attempt) :
    retryAfter w tm began i (attempt p tm began i) = some a ↔
      Retried p w tm i ∧ a = attempt p tm began (i + 1) := by
  have hended : began + starts p tm i + tm.duration i - began = ends p tm i := by
    rw [ends]
    omega
  have hnext : (⟨began + starts p tm i + tm.duration i + pause p i,
      (attempt p tm began i).timer.retry⟩ : Attempt) = attempt p tm began (i + 1) := by
    rw [retry_attempt, attempt, starts, Attempt.mk.injEq]
    exact ⟨by omega, rfl⟩
  unfold retryAfter Retried
  cases herr : w.approveErr i with
  | none => simp
  | some err =>
    show (if (attempt p tm began i).timer.isTimeOut
        (began + starts p tm i + tm.duration i - began) then none
      else some ⟨began + starts p tm i + tm.duration i + pause p i,
        (attempt p tm began i).timer.retry⟩) = some a ↔ _
    rw [hended, hnext, RetryTimer.isTimeOut]
    by_cases hup : seconds p.retryIntervalMax ≤ ends p tm i
    · have htime : (attempt p tm began i).timer.timeEdge ≤ ends p tm i := hup
      simp [htime, hup]
    · have htime : ¬ (attempt p tm began i).timer.timeEdge ≤ ends p tm i := hup
      simp [htime, Int.not_le.mp hup, eq_comm]

theorem retryAfter_of_retried (began : Int) {i : Nat} (h : Retried p w tm i) :
    retryAfter w tm began i (attempt p tm began i) = some (attempt p tm began (i + 1)) :=
  (retryAfter_attempt began i _).mpr ⟨h, rfl⟩

theorem retryAfter_of_not_retried (began : Int) {i : Nat} (h : ¬ Retried p w tm i) :
    retryAfter w tm began i (attempt p tm began i) = none := by
  rw [Option.eq_none_iff_forall_ne_some]
  exact fun a ha => h ((retryAfter_attempt began i a).mp ha).1

theorem attempt_zero (began : Int) : attempt p tm began 0 =
    ⟨began, newRetryTimer p.retryInterval p.retryIntervalMax⟩ := by
  simp [attempt, starts, newRetryTimer]

/-- The first call is always made. -/
theorem approveAt_zero (began : Int) :
    approveAt p w tm began 0 = some (attempt p tm began 0) := by
  rw [attempt_zero]
  rfl

/-- **The `i`-th call** is made just if all calls before it are retried. -/
theorem approveAt_iff (began : Int) (i : Nat) (a : Attempt) :
    approveAt p w tm began i = some a ↔
      (∀ j < i, Retried p w tm j) ∧ a = attempt p tm began i := by
  induction i generalizing a with
  | zero =>
    rw [approveAt_zero]
    simp [eq_comm]
  | succ i ih =>
    rw [approveAt, Option.bind_eq_some_iff]
    constructor
    · rintro ⟨b, hb, hretry⟩
      obtain ⟨hprev, rfl⟩ := (ih b).mp hb
      obtain ⟨hlast, rfl⟩ := (retryAfter_attempt began i a).mp hretry
      refine ⟨fun j hj => ?_, rfl⟩
      rcases Nat.lt_succ_iff_lt_or_eq.mp hj with hj | rfl
      · exact hprev j hj
      · exact hlast
    · rintro ⟨hretried, rfl⟩
      exact ⟨_, (ih _).mpr ⟨fun j hj => hretried j (Nat.lt_succ_of_lt hj), rfl⟩,
        (retryAfter_attempt began i _).mpr ⟨hretried i (Nat.lt_succ_self i), rfl⟩⟩

theorem approveFirstAt_iff {t : Int} {action : ActionInfo} {i : Nat} {a : Attempt} :
    approveFirstAt p w tm t action i = some a ↔
      action.messages ≠ [] ∧ approveAt p w tm t i = some a := by
  unfold approveFirstAt
  cases hm : action.messages with
  | nil => simp [index]
  | cons m rest =>
    rw [show (index (m :: rest) 0 : Outcome Empty Bytes) = .ok m from index_ok (k := 0) rfl]
    simp

/-- A lock that was not taken ends the handling; the wait for one that was taken delays it. -/
theorem handleActionAt_iff {action : ActionInfo} {i : Nat} {a : Attempt} :
    handleActionAt p w tm action i = some a ↔
      (p.loadBalancingEnabled = true → w.acquireLock = none) ∧ action.messages ≠ [] ∧
        approveAt p w tm (began p tm) i = some a := by
  unfold handleActionAt began
  cases p.loadBalancingEnabled with
  | false => simp [approveFirstAt_iff]
  | true => cases w.acquireLock <;> simp [approveFirstAt_iff]

/-- Which messages get a call. -/
theorem handleMessageAt_iff {message : Bytes} {i : Nat} {a : Attempt} :
    handleMessageAt p w tm message i = some a ↔
      ∃ action, Accepts p (tm.world w) message action ∧ action.messages ≠ [] ∧
        approveAt p w tm (began p tm) i = some a := by
  constructor
  · intro h
    unfold handleMessageAt at h
    cases hdec : w.decode message with
    | error e =>
      rw [hdec] at h
      cases h
    | ok action =>
      simp only [hdec] at h
      split_ifs at h with hexp hpending hlb hshould
      · obtain ⟨hlock, hcall⟩ := handleActionAt_iff.mp h
        exact ⟨action, ⟨hdec, Int.not_le.mp fun hle => hexp (decide_eq_true hle), hpending,
          fun hlb => ⟨hshould, hlock hlb⟩⟩, hcall⟩
      · obtain ⟨hlock, hcall⟩ := handleActionAt_iff.mp h
        exact ⟨action, ⟨hdec, Int.not_le.mp fun hle => hexp (decide_eq_true hle), hpending,
          fun hlb' => absurd hlb' hlb⟩, hcall⟩
  · rintro ⟨action, ⟨hdec, halive, hpending, hlocked⟩, hcall⟩
    have hexp : ¬ action.isExpired (unix tm.received) = true := fun h =>
      Int.not_le.mpr halive (of_decide_eq_true h)
    have hact : handleActionAt p w tm action i = some a :=
      handleActionAt_iff.mpr ⟨fun hlb => (hlocked hlb).2, hcall⟩
    have hdec' : w.decode message = .ok action := hdec
    unfold handleMessageAt
    simp only [hdec', if_neg hexp, if_pos hpending]
    split_ifs with hlb hshould
    · exact hact
    · exact absurd (hlocked hlb).1 hshould
    · exact hact

/-! ## The untimed run makes these calls -/

/-- The world answers at the times that the course of the clock says. -/
structure Timing.Agrees (p : Approver) (w : World) (tm : Timing) : Prop where
  now : w.now = unix tm.received
  since : ∀ i, w.since i = ends p tm i

theorem approveAt_none {began : Int} {i j : Nat} (h : approveAt p w tm began i = none)
    (hij : i ≤ j) : approveAt p w tm began j = none := by
  induction j, hij using Nat.le_induction with
  | base => exact h
  | succ j _ ih => rw [approveAt, ih, Option.bind_none]

/-- The loop, from a call that is made: it makes this one and those after it. -/
theorem approveLoop_calls {actionID : String} {message : Bytes} {began : Int}
    (hsince : ∀ i, w.since i = ends p tm i) : ∀ {fuel i : Nat} {events : List Event},
    approveAt p w tm began i = some (attempt p tm began i) →
    approveLoop w actionID message fuel i (attempt p tm began i).timer = some events →
    ∀ j, (approveAt p w tm began (i + j)).isSome = true ↔ j < events.countP Event.isApprove
  | 0, _, _, _, h, _ => by cases h
  | fuel + 1, i, events, hmade, h, j => by
    -- a call after which there is no other
    have hlast : ∀ err, events = [.approveActionMessage actionID message err] →
        approveAt p w tm began (i + 1) = none →
        ((approveAt p w tm began (i + j)).isSome = true ↔ j < events.countP Event.isApprove) := by
      rintro err rfl hnone
      cases j with
      | zero => simp [hmade, Event.isApprove]
      | succ j => simp [approveAt_none hnone (by omega : i + 1 ≤ i + (j + 1)), Event.isApprove]
    have hnext : approveAt p w tm began (i + 1) =
        retryAfter w tm began i (attempt p tm began i) := by
      rw [approveAt, hmade, Option.bind_some]
    simp only [approveLoop] at h
    cases herr : w.approveErr i with
    | none =>
      rw [herr] at h
      refine hlast none (Option.some.inj h).symm ?_
      rw [hnext, retryAfter, herr]
    | some err =>
      simp only [herr] at h
      split_ifs at h with hup
      · refine hlast (some err) (Option.some.inj h).symm ?_
        rw [hsince] at hup
        rw [hnext, retryAfter_of_not_retried]
        exact fun hretried => Int.not_le.mpr hretried.2 (of_decide_eq_true hup)
      · obtain ⟨rest, hrest, rfl⟩ := Option.map_eq_some_iff.mp h
        have hretried : Retried p w tm i := by
          refine ⟨by rw [herr]; exact Option.some_ne_none err, Int.not_le.mp fun hle => hup ?_⟩
          rw [hsince]
          exact decide_eq_true hle
        have hmade' := hnext.trans (retryAfter_of_retried began hretried)
        rw [retry_attempt] at hrest
        have ih := approveLoop_calls hsince hmade' hrest
        cases j with
        | zero => simp [hmade, List.countP_cons, Event.isApprove]
        | succ j =>
          rw [show i + (j + 1) = i + 1 + j by omega, ih j]
          simp [List.countP_cons, Event.isApprove]

theorem countP_around (actionID : String) (events : List Event) :
    (around p actionID events).countP Event.isApprove = events.countP Event.isApprove := by
  unfold around
  cases p.loadBalancingEnabled with
  | false => rfl
  | true => simp [List.countP_append, Event.isApprove]

/-- An accepted action gets the calls of `approveAction` on its first message. -/
theorem isSome_of_accepts {message : Bytes} {action : ActionInfo}
    (hacc : Accepts p (tm.world w) message action) (i : Nat) :
    (handleMessageAt p w tm message i).isSome = true ↔
      action.messages ≠ [] ∧ (approveAt p w tm (began p tm) i).isSome = true := by
  simp only [Option.isSome_iff_exists, handleMessageAt_iff]
  constructor
  · rintro ⟨a, action', hacc', hne, hcall⟩
    obtain rfl : action = action' := Except.ok.inj (hacc.decoded.symm.trans hacc'.decoded)
    exact ⟨hne, a, hcall⟩
  · rintro ⟨hne, a, hcall⟩
    exact ⟨a, action, hacc, hne, hcall⟩

/-- **The timed calls are those of the run.** -/
theorem handleMessage_calls {message : Bytes} {r : Handled} (h : tm.Agrees p w)
    (hret : Returns p w message r) (i : Nat) :
    (handleMessageAt p w tm message i).isSome = true ↔ i < r.events.countP Event.isApprove := by
  have hworld : tm.world w = w := by
    unfold Timing.world
    rw [← h.now]
  obtain ⟨n, hn⟩ := hret
  have hr := hn (n + 1) (Nat.lt_succ_self n)
  by_cases hacc : ∃ action, Accepts p w message action
  · obtain ⟨action, hacc⟩ := hacc
    have hmade := isSome_of_accepts (hworld.symm ▸ hacc) i
    cases hm : action.messages with
    | nil =>
      rw [handleMessage_overruns hacc hm] at hr
      rw [hmade, ← Option.some.inj hr, countP_around, hm]
      simp
    | cons m rest =>
      have hidx : (index action.messages 0 : Outcome Empty Bytes) = .ok m :=
        index_ok (k := 0) (by rw [hm]; rfl)
      rw [handleMessage_of_accepts hacc, approveFirst, hidx] at hr
      obtain ⟨⟨outcome, events⟩, hevents, rfl⟩ := Option.map_eq_some_iff.mp hr
      obtain ⟨events', hloop, heq⟩ := Option.map_eq_some_iff.mp hevents
      obtain rfl : events' = events := congrArg Prod.snd heq
      have hfirst : newRetryTimer p.retryInterval p.retryIntervalMax =
          (attempt p tm (began p tm) 0).timer := by
        simp [attempt, newRetryTimer]
      rw [approveAction, hfirst] at hloop
      have hcalls := approveLoop_calls h.since (approveAt_zero (began p tm)) hloop i
      rw [Nat.zero_add] at hcalls
      rw [hmade, hcalls, countP_around, hm]
      simp
  · have hnone : handleMessageAt p w tm message i = none := by
      rw [Option.eq_none_iff_forall_ne_some]
      intro a ha
      obtain ⟨action, hacc', -⟩ := handleMessageAt_iff.mp ha
      exact hacc ⟨action, hworld ▸ hacc'⟩
    obtain ⟨r', hr', -, href⟩ := handleMessage_of_refused fun action h => hacc ⟨action, h⟩
    obtain rfl : r = r' := Option.some.inj (hr.symm.trans (hr' (n + 1)))
    have hzero : r.events.countP Event.isApprove = 0 := by
      rw [List.countP_eq_zero]
      intro e he
      rw [href.noApprove e he]
      exact Bool.false_ne_true
    rw [hnone, hzero]
    simp

/-! ## Expiry -/

/-- The time of expiry, in nanoseconds. -/
def expiry (action : ActionInfo) : Int := action.expireTime * 1000000000

/-- Every call is made before the action expires. -/
def BeforeExpiry (p : Approver) (w : World) (tm : Timing) (message : Bytes) : Prop :=
  ∀ action, w.decode message = .ok action → ∀ i a, handleMessageAt p w tm message i = some a →
    a.start < expiry action

/-- The time `e` comes between `t` and `t'`. -/
def FallsInto (e t t' : Int) : Prop := t < e ∧ e ≤ t'

/-- An action whose expiry falls neither into the wait for the lock nor between a call that is
retried and the next one. -/
structure Undisturbed (p : Approver) (w : World) (tm : Timing) (e : Int) : Prop where
  lock : ¬ FallsInto e tm.received (began p tm)
  retry : ∀ i, (∀ j ≤ i, Retried p w tm j) →
    ¬ FallsInto e (began p tm + starts p tm i) (began p tm + starts p tm (i + 1))

/-- An action that has not expired when its message comes, in Unix seconds, has time left in
nanoseconds. -/
theorem received_lt_expiry {action : ActionInfo} {t : Int} (h : unix t < action.expireTime) :
    t < expiry action := by
  unfold unix at h
  unfold expiry
  omega

/-- What passes the checks starts in time, and each retry keeps it so. -/
theorem Undisturbed.start_lt {e : Int} (h : Undisturbed p w tm e) (hrec : tm.received < e)
    {i : Nat} (hretried : ∀ j < i, Retried p w tm j) : began p tm + starts p tm i < e := by
  induction i with
  | zero =>
    rw [starts, add_zero]
    exact Int.not_le.mp fun hle => h.lock ⟨hrec, hle⟩
  | succ i ih =>
    have hstart := ih fun j hj => hretried j (Nat.lt_succ_of_lt hj)
    exact Int.not_le.mp fun hle =>
      h.retry i (fun j hj => hretried j (Nat.lt_succ_of_le hj)) ⟨hstart, hle⟩

/-- **Every call is made before the action expires** if and only if the message is no accepted
action with a message, or the expiry disturbs neither the wait for the lock nor a retry. -/
theorem beforeExpiry_iff (p : Approver) (w : World) (tm : Timing) (message : Bytes) :
    BeforeExpiry p w tm message ↔ ∀ action, Accepts p (tm.world w) message action →
      action.messages ≠ [] → Undisturbed p w tm (expiry action) := by
  constructor
  · intro hbefore action hacc hne
    have hcall : ∀ i, (∀ j < i, Retried p w tm j) →
        began p tm + starts p tm i < expiry action := fun i hretried =>
      hbefore action hacc.decoded i _ (handleMessageAt_iff.mpr
        ⟨action, hacc, hne, (approveAt_iff _ i _).mpr ⟨hretried, rfl⟩⟩)
    refine ⟨fun ⟨_, hle⟩ => ?_, fun i hretried ⟨_, hle⟩ => ?_⟩
    · have := hcall 0 fun j hj => absurd hj (Nat.not_lt_zero j)
      rw [starts, add_zero] at this
      omega
    · have := hcall (i + 1) fun j hj => hretried j (Nat.le_of_lt_succ hj)
      omega
  · intro hund action hdec i a ha
    obtain ⟨action', hacc, hne, hcall⟩ := handleMessageAt_iff.mp ha
    obtain rfl : action = action' := Except.ok.inj (hdec.symm.trans hacc.decoded)
    obtain ⟨hretried, rfl⟩ := (approveAt_iff _ i a).mp hcall
    exact (hund action hacc hne).start_lt (received_lt_expiry hacc.alive) hretried

/-- The JSON text of a pending action with one message. -/
def pendingMessage : Bytes :=
  utf8 "\x7b\"id\":\"a\",\"status\":1,\"messages\":[\"AQ==\"],\"expireTime\":100\x7d"

/-- The signer never approves. -/
def failingWorld : World := { sampleWorld with
  decode := fun b =>
    if b = pendingMessage then .ok ⟨"a", statusPending, [[1]], 100⟩ else .error "syntax"
  approveErr := fun _ => some "unavailable" }

/-- **A retry after the expiry.** With the default intervals, a message that comes three seconds
before its action expires gets a second call, after a pause of five seconds. -/
theorem retry_after_expiry :
    ¬ ∀ (p : Approver) (w : World) (tm : Timing) (message : Bytes),
      BeforeExpiry p w tm message := by
  intro hall
  have hbefore := hall ⟨none, false, 5, 300⟩ failingWorld ⟨97000000000, 0, fun _ => 0⟩
    pendingMessage
  exact absurd (hbefore ⟨"a", statusPending, [[1]], 100⟩ (by decide +kernel) 1
    ⟨102000000000, 10, 300000000000, 5⟩ (by decide +kernel)) (by decide +kernel)

/-! ## The window -/

/-- Every call is made within `RetryIntervalMax` seconds from the creation of the timer. -/
def InWindow (p : Approver) (w : World) (tm : Timing) (began : Int) : Prop :=
  ∀ i a, approveAt p w tm began i = some a → a.start - began ≤ p.retryIntervalMax * 1000000000

/-- A failed call that ends in time leaves room for the pause behind it. -/
theorem InWindow.room (hfits : FitsDuration p.retryIntervalMax) {began : Int}
    (hwindow : InWindow p w tm began) {i : Nat} (hfail : ∀ j ≤ i, w.approveErr j ≠ none)
    (hends : ends p tm i < p.retryIntervalMax * 1000000000) :
    ends p tm i + pause p i ≤ p.retryIntervalMax * 1000000000 := by
  have hretried : ∀ j < i + 1, Retried p w tm j := by
    intro j hj
    have hmono : ends p tm j ≤ ends p tm i := ends_mono (Nat.le_of_lt_succ hj)
    exact ⟨hfail j (Nat.le_of_lt_succ hj), by rw [seconds_eq hfits]; omega⟩
  have hstart := hwindow (i + 1) _ ((approveAt_iff began (i + 1) _).mpr ⟨hretried, rfl⟩)
  rw [← starts_succ]
  simp only [attempt] at hstart
  omega

/-- **No call is made after `RetryIntervalMax`** if and only if, whenever all calls so far failed
and the last one ends within it, so does the pause behind that call. -/
theorem inWindow_iff (hpos : 1 ≤ p.retryIntervalMax) (hfits : FitsDuration p.retryIntervalMax)
    (began : Int) : InWindow p w tm began ↔
      ∀ i, (∀ j ≤ i, w.approveErr j ≠ none) → ends p tm i < p.retryIntervalMax * 1000000000 →
        ends p tm i + pause p i ≤ p.retryIntervalMax * 1000000000 := by
  constructor
  · intro hwindow i hfail hends
    exact hwindow.room hfits hfail hends
  · intro hroom i a ha
    obtain ⟨hretried, rfl⟩ := (approveAt_iff began i a).mp ha
    show began + starts p tm i - began ≤ _
    cases i with
    | zero =>
      rw [starts]
      omega
    | succ i =>
      have hlast := (hretried i (Nat.lt_succ_self i)).2
      rw [seconds_eq hfits] at hlast
      have := hroom i (fun j hj => (hretried j (Nat.lt_succ_of_le hj)).1) hlast
      rw [starts_succ]
      omega

/-- One failed call, retried in time. -/
theorem inWindow_sample : InWindow ⟨none, false, 5, 300⟩
    { sampleWorld with approveErr := fun i => if i = 0 then some "unavailable" else none }
    ⟨0, 0, fun _ => 0⟩ 0 := by
  refine (@inWindow_iff ⟨none, false, 5, 300⟩ _ _ (by decide) (by decide +kernel) 0).mpr ?_
  intro i hfail _
  cases i with
  | zero => decide +kernel
  | succ i => exact absurd rfl (hfail (i + 1) le_rfl)

/-- Whatever the settings: a failing call that ends just before the time is up is followed by a
pause that ends after it. -/
theorem exists_overrun (w : World) (began : Int) (hretry : 1 ≤ p.retryInterval)
    (hfits : FitsDuration p.retryInterval) (hpos : 1 ≤ p.retryIntervalMax)
    (hfitsMax : FitsDuration p.retryIntervalMax) (hfail : w.approveErr 0 ≠ none) :
    ∃ tm : Timing, ¬ InWindow p w tm began := by
  refine ⟨⟨0, 0, fun _ => (p.retryIntervalMax * 1000000000 - 1).toNat⟩, fun hwindow => ?_⟩
  have hpause : pause p 0 = p.retryInterval * 1000000000 := by
    rw [pause, sleepTime, Nat.cast_zero, zero_add, one_mul, seconds_eq hfits]
    omega
  have hends : ends p ⟨0, 0, fun _ => (p.retryIntervalMax * 1000000000 - 1).toNat⟩ 0 =
      p.retryIntervalMax * 1000000000 - 1 := by
    simp only [ends, starts]
    omega
  have hroom := hwindow.room hfitsMax (i := 0) (fun j hj => by rwa [Nat.le_zero.mp hj]) (by omega)
  rw [hpause, hends] at hroom
  omega

/-- **A retry outside the window.** With an interval of five seconds and a maximum of six, calls
that fail at once are made after 0, 5 and 15 seconds. -/
theorem retry_outside_window :
    ¬ ∀ (p : Approver) (w : World) (tm : Timing) (began : Int), 1 ≤ p.retryInterval →
      1 ≤ p.retryIntervalMax → FitsDuration p.retryInterval → FitsDuration p.retryIntervalMax →
      InWindow p w tm began := by
  intro hall
  have hwindow := hall ⟨none, false, 5, 6⟩ failingWorld ⟨0, 0, fun _ => 0⟩ 0 (by decide)
    (by decide) (by decide +kernel) (by decide +kernel)
  exact absurd (hwindow 2 ⟨15000000000, 15, 6000000000, 5⟩ (by decide +kernel))
    (by decide +kernel)

end SigningAgent.AutoApprover
