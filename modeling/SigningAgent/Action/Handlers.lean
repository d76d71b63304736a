import SigningAgent.Action.Syncronizer
import SigningAgent.Lib.System

/-!
# Action handlers under load balancing

`actionSrv.act` (`internal/service/action_service.go`, called by `Approve` and `Reject`) and
`autoActionApprover.handleMessage` (`internal/autoapprover/auto_approver.go`) handle an action in
the same steps, on the `syncronize` object of their agent and the Redis of all agents:

1. `ShouldHandleAction`; on false, `act` returns nil and `handleMessage` returns;
2. `AcquireLock`: `a.mutex` is read (`acquire`), then `Lock` waits (`lock`);
3. the signer call: `ActionApprove`, `ActionReject` or `ApproveActionMessage`;
4. the deferred `Release`, whatever the signer answered: `Unlock` (`unlock`), then the marker
   (`mark`), and the return.

The conventions:

* A label names a handler and its step, so any interleaving of any number of handlers on any
  number of agents is a list of labels. Handlers are numbered in the order they start.
* The signer's answer is in the label. `handleMessage` may repeat a failed call (`retry`); `act`
  may not. `act` removes the cached message in the step of a successful call.
* `Lock` waits while the key is taken and may give up meanwhile. A lock that somebody holds does
  not expire; a marker, or a lock whose `Unlock` missed it, may.
* A handler of kind `message` starts where the message has been decoded and found pending and not
  expired.
* `log` records, newest first, the answers of the signer, the expiries and the returns.
-/

namespace SigningAgent.Action

open Transition

/-- Who handles an action: `actionSrv.Approve`, `actionSrv.Reject` or `handleMessage`. -/
inductive Caller where
  | approve
  | reject
  | message
  deriving DecidableEq, Repr

/-- How far a handler is: the step it takes next, and what it holds for it. -/
inductive Phase where
  /-- before `ShouldHandleAction` -/
  | entered
  /-- before `AcquireLock` -/
  | passed
  /-- in `Lock` of the mutex object `m` -/
  | waiting (m : Nat)
  /-- before a signer call -/
  | locked
  /-- before `Unlock`; the last signer call succeeded or failed -/
  | signed (ok : Bool)
  /-- before the marker -/
  | unlocked (ok : Bool)
  /-- returned, with a nil error or not -/
  | returned (ok : Bool)
  deriving DecidableEq, Repr

/-- The check is passed and the signer call is yet to come. -/
def Phase.pending : Phase → Bool
  | .passed | .waiting _ | .locked => true
  | _ => false

/-- The signer call succeeded and the marker is yet to come. -/
def Phase.succeeded : Phase → Bool
  | .signed ok | .unlocked ok => ok
  | _ => false

structure Handler where
  agent : Nat
  caller : Caller
  actionID : String
  phase : Phase
  deriving DecidableEq, Repr

inductive Event where
  /-- the signer answered handler `h` -/
  | signed (h : Nat) (caller : Caller) (actionID : String) (ok : Bool)
  /-- a Redis key expired -/
  | expired (key : String)
  /-- handler `h` returned -/
  | returned (h : Nat) (caller : Caller) (actionID : String) (ok : Bool)
  deriving DecidableEq, Repr

/-- `LoadBalancing.Enable`, and whether the action service has a message cache. -/
structure Config where
  loadBalancingEnabled : Bool
  messageCache : Bool
  deriving DecidableEq, Repr

structure State where
  sync : Sync
  handlers : List Handler
  log : List Event

/-- The signer's answer; `retry` is a failure after which `approveAction` calls again. -/
inductive Answer where
  | ok
  | failed
  | retry
  deriving DecidableEq, Repr

inductive Move where
  | check
  | acquire
  | lock (ok : Bool)
  | sign (answer : Answer)
  | unlock
  | mark
  deriving DecidableEq, Repr

inductive Label where
  | enter (agent : Nat) (caller : Caller) (actionID : String)
  | move (h : Nat) (m : Move)
  | expire (key : String)
  deriving DecidableEq, Repr

namespace State

/-- Handler `h`, so far `c`, goes on to phase `p`. -/
def goto (h : Nat) (c : Handler) (p : Phase) (s : State) : State :=
  { s with handlers := s.handlers.set h { c with phase := p } }

def emit (e : Event) (s : State) : State := { s with log := e :: s.log }

/-- Handler `h`, so far `c`, returns. -/
def ret (h : Nat) (c : Handler) (ok : Bool) (s : State) : State :=
  (s.goto h c (.returned ok)).emit (.returned h c.caller c.actionID ok)

/-- The key may go away: it holds a marker, or a lock that its handler is no longer under. -/
def canExpire (key : String) (s : State) : Bool :=
  match s.sync.redis key with
  | none => false
  | some .handled => true
  | some (.lock v) =>
    match s.handlers[v]?.map Handler.phase with
    | some .locked | some (.signed _) => false
    | _ => true

end State

/-- `if a.messageCache != nil { a.messageCache.RemoveMessage(actionID) }`, in `act` only. -/
def removeCached (cfg : Config) (c : Handler) (y : Sync) : Sync :=
  if cfg.messageCache && c.caller != .message then y.removeMessage c.actionID else y

/-- One step of handler `h`, so far `c`. -/
def exec (cfg : Config) (h : Nat) (c : Handler) (s : State) : Move → Option State
  | .check =>
    match c.phase with
    | .entered =>
      if cfg.loadBalancingEnabled then
        match s.sync.shouldHandleAction c.agent c.actionID with
        | (false, _) => some (s.ret h c true)
        | (true, y) => some { s.goto h c .passed with sync := y }
      else some (s.goto h c .locked)
    | _ => none
  | .acquire =>
    match c.phase with
    | .passed => (s.sync.mutex c.agent).map fun m => s.goto h c (.waiting m)
    | _ => none
  | .lock true =>
    match c.phase with
    | .waiting m => (s.sync.lock m h).map fun y => { s.goto h c .locked with sync := y }
    | _ => none
  | .lock false =>
    match c.phase with
    | .waiting m => if s.sync.lockFails m then some (s.ret h c false) else none
    | _ => none
  | .sign answer =>
    match c.phase, answer with
    | .locked, .ok => some { (s.goto h c (.signed true)).emit
        (.signed h c.caller c.actionID true) with sync := removeCached cfg c s.sync }
    | .locked, .failed => some ((s.goto h c (.signed false)).emit
        (.signed h c.caller c.actionID false))
    | .locked, .retry =>
      if c.caller = .message then some ((s.goto h c .locked).emit
        (.signed h c.caller c.actionID false))
      else none
    | _, _ => none
  | .unlock =>
    match c.phase with
    | .signed ok =>
      if cfg.loadBalancingEnabled then
        some { s.goto h c (.unlocked ok) with sync := s.sync.unlock c.agent }
      else some (s.ret h c ok)
    | _ => none
  | .mark =>
    match c.phase with
    | .unlocked ok => some { s.ret h c ok with sync := s.sync.setHandled c.actionID }
    | _ => none

def step (cfg : Config) : Label → State → Option State
  | .enter agent caller actionID, s =>
    some { s with handlers := s.handlers ++ [⟨agent, caller, actionID, .entered⟩] }
  | .move h m, s => s.handlers[h]?.bind fun c => exec cfg h c s m
  | .expire key, s =>
    if s.canExpire key then some { s.emit (.expired key) with sync := s.sync.expire key }
    else none

/-- Nobody has started: an empty Redis, no mutex, no handler. -/
def start : State := ⟨⟨fun _ => none, [], fun _ => none⟩, [], []⟩

/-- All interleavings of handlers, agents and expiries. -/
def handling (cfg : Config) : System State Label where
  init s := s = start
  step := step cfg

/-! ## What a step of a handler can do -/

/-- The steps of handler `h`, so far `c`, under load balancing. -/
inductive Effect (cfg : Config) (h : Nat) (c : Handler) (s : State) : Move → State → Prop
  | handled : c.phase = .entered → s.sync.redis (getKey c.actionID) ≠ none →
      Effect cfg h c s .check (s.ret h c true)
  | passed : c.phase = .entered → s.sync.redis (getKey c.actionID) = none →
      Effect cfg h c s .check { s.goto h c .passed with
        sync := (s.sync.shouldHandleAction c.agent c.actionID).2 }
  | acquired {m : Nat} : c.phase = .passed → Effect cfg h c s .acquire (s.goto h c (.waiting m))
  | locked {m : Nat} {y : Sync} : c.phase = .waiting m → s.sync.lock m h = some y →
      Effect cfg h c s (.lock true) { s.goto h c .locked with sync := y }
  | gaveUp {m : Nat} : c.phase = .waiting m → Effect cfg h c s (.lock false) (s.ret h c false)
  | succeeded : c.phase = .locked → Effect cfg h c s (.sign .ok)
      { (s.goto h c (.signed true)).emit (.signed h c.caller c.actionID true) with
        sync := removeCached cfg c s.sync }
  | failed : c.phase = .locked → Effect cfg h c s (.sign .failed)
      ((s.goto h c (.signed false)).emit (.signed h c.caller c.actionID false))
  | retried : c.phase = .locked → c.caller = .message → Effect cfg h c s (.sign .retry)
      ((s.goto h c .locked).emit (.signed h c.caller c.actionID false))
  | unlocked {ok : Bool} : c.phase = .signed ok → Effect cfg h c s .unlock
      { s.goto h c (.unlocked ok) with sync := s.sync.unlock c.agent }
  | marked {ok : Bool} : c.phase = .unlocked ok → Effect cfg h c s .mark
      { s.ret h c ok with sync := s.sync.setHandled c.actionID }

/-- **Inversion.** A handler's step under load balancing is one of these. -/
theorem exec_effect {cfg : Config} {h : Nat} {c : Handler} {s s' : State} {m : Move}
    (hlb : cfg.loadBalancingEnabled = true) (he : exec cfg h c s m = some s') :
    Effect cfg h c s m s' := by
  unfold exec at he
  split at he
  · -- `check`
    split at he
    · rename_i hp
      rw [if_pos hlb] at he
      cases hk : s.sync.redis (getKey c.actionID) with
      | some e =>
        simp only [Sync.shouldHandleAction, hk, Option.some.injEq] at he
        subst he
        exact .handled hp (by simp [hk])
      | none =>
        have hstep := @Effect.passed cfg h c s hp hk
        simp only [Sync.shouldHandleAction, hk, Option.some.injEq] at he hstep
        subst he
        exact hstep
    · cases he
  · -- `acquire`
    split at he
    · rename_i hp
      obtain ⟨m, -, rfl⟩ := Option.map_eq_some_iff.mp he
      exact .acquired hp
    · cases he
  · -- `lock true`
    split at he
    · rename_i m hp
      obtain ⟨y, hy, rfl⟩ := Option.map_eq_some_iff.mp he
      exact .locked hp hy
    · cases he
  · -- `lock false`
    split at he
    · rename_i m hp
      split at he
      · cases he
        exact .gaveUp hp
      · cases he
    · cases he
  · -- `sign`
    split at he
    · rename_i hp
      cases he
      exact .succeeded hp
    · rename_i hp
      cases he
      exact .failed hp
    · rename_i hp
      split at he
      · rename_i hc
        cases he
        exact .retried hp hc
      · cases he
    · cases he
  · -- `unlock`
    split at he
    · rename_i ok hp
      rw [if_pos hlb] at he
      cases he
      exact .unlocked hp
    · cases he
  · -- `mark`
    split at he
    · rename_i ok hp
      cases he
      exact .marked hp
    · cases he

/-- The steps of the system under load balancing. -/
theorem step_cases {cfg : Config} {a : Label} {s s' : State}
    (hlb : cfg.loadBalancingEnabled = true) (hs : step cfg a s = some s') :
    (∃ agent caller actionID, a = .enter agent caller actionID ∧
      s' = { s with handlers := s.handlers ++ [⟨agent, caller, actionID, .entered⟩] }) ∨
    (∃ h m c, a = .move h m ∧ s.handlers[h]? = some c ∧ Effect cfg h c s m s') ∨
    (∃ key, a = .expire key ∧
      s' = { s.emit (.expired key) with sync := s.sync.expire key }) := by
  cases a with
  | enter agent caller actionID =>
    cases hs
    exact Or.inl ⟨agent, caller, actionID, rfl, rfl⟩
  | move h m =>
    obtain ⟨c, hc, he⟩ := Option.bind_eq_some_iff.mp hs
    exact Or.inr (Or.inl ⟨h, m, c, rfl, hc, exec_effect hlb he⟩)
  | expire key =>
    simp only [step] at hs
    split at hs
    · cases hs
      exact Or.inr (Or.inr ⟨key, rfl, rfl⟩)
    · cases hs

/-- Events stay, and a new success is that of a handler at its signer call. -/
theorem step_log {cfg : Config} {a : Label} {s s' : State}
    (hlb : cfg.loadBalancingEnabled = true) (hs : step cfg a s = some s') :
    ∃ new, s'.log = new ++ s.log ∧ ∀ h caller actionID, .signed h caller actionID true ∈ new →
      a = .move h (.sign .ok) ∧
        ∃ c, s.handlers[h]? = some c ∧ c.caller = caller ∧ c.actionID = actionID := by
  rcases step_cases hlb hs with ⟨agent, caller, id, rfl, rfl⟩ | ⟨h, m, c, rfl, hc, he⟩ |
    ⟨key, rfl, rfl⟩
  · exact ⟨[], rfl, by simp⟩
  · cases he with
    | succeeded hp =>
      refine ⟨[.signed h c.caller c.actionID true], rfl, fun g caller id hmem => ?_⟩
      obtain ⟨rfl, rfl, rfl, -⟩ := Event.signed.inj (List.mem_singleton.mp hmem)
      exact ⟨rfl, c, hc, rfl, rfl⟩
    | handled | gaveUp | marked => exact ⟨[.returned ..], rfl, by simp⟩
    | failed | retried => exact ⟨[.signed ..], rfl, by simp⟩
    | passed | acquired | locked | unlocked => exact ⟨[], rfl, by simp⟩
  · exact ⟨[.expired key], rfl, by simp⟩

end SigningAgent.Action
