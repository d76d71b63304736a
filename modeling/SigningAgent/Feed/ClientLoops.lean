import SigningAgent.Lib.System

/-!
# The two loops of a client feed (`internal/feed/client.go`)

`Start` pings the websocket and closes it in the end; `Listen` writes to it what the hub sends. When
the hub has closed its `Feed`, `Listen` tests `readyState` and, if that is `Open`, sends on the
unbuffered `closeConn`, which `Start` receives in its `select`. When a ping fails, `Start` sets
`readyState` to `Closed`, calls `UnregisterClient` and returns, without another look at `closeConn`.

* One label is one step of `Start`, of `Listen` or of the hub, so any interleaving is a list of
  labels. Reads and writes of `readyState` are steps of their own.
* The hub closes the `Feed` of a client that is registered, in `cleanUp` or in `UnregisterClient`,
  under its lock and once. Registering is a step, since `Start` may call `UnregisterClient` before.
* `handOver` is the send on `closeConn` and its receipt.
* The deferred calls of `Start` are `closeConnection` and `finish`. What only the log or the
  deadlines of the connection see is left out, and so are the messages.

`Timely` is the condition on a step: no ping fails while `Listen` waits to send, and `Listen` does
not test `readyState` between a failed ping and the assignment.

**`never_stranded`**: in every run whose steps are all `Timely` no state is stranded (`Start` has
returned, and `Listen` waits to send), and `conn.Close` has been called once when `Start` has
returned; and a step that is not `Timely` leads to a stranded state. `stranded_forever`: that is not
left any more.
-/

namespace SigningAgent.ClientLoops

open Transition

/-- Where `Start` is. -/
inductive Start where
  /-- before the `select` -/
  | starting
  | selecting
  /-- `WriteControl` of a ping has failed -/
  | pingFailed
  /-- before `UnregisterClient` -/
  | notReady
  /-- it has received from `closeConn` -/
  | closing
  /-- before the deferred calls -/
  | leaving
  /-- after `conn.Close` -/
  | connClosed
  | returned
  deriving DecidableEq, Repr

/-- Where `Listen` is. -/
inductive Listen where
  | receiving
  /-- `Feed` was found closed -/
  | feedClosed
  /-- at the send on `closeConn` -/
  | sending
  | returned
  deriving DecidableEq, Repr

/-- What the hub has done with the `Feed`. -/
inductive Feed where
  | unregistered
  | registered
  | closed
  deriving DecidableEq, Repr

/-- `ConnectionState`, as far as the client goes. -/
inductive ReadyState where
  | isOpen
  | closed
  deriving DecidableEq, Repr

structure State where
  start : Start
  listen : Listen
  feed : Feed
  readyState : ReadyState
  /-- the calls of `conn.Close` -/
  closes : Nat
  deriving DecidableEq, Repr

inductive Label where
  /-- `wg.Done` in `Start` -/
  | ready
  /-- `RegisterClient` -/
  | register
  /-- `cleanUp`, or an `UnregisterClient` from elsewhere -/
  | hubCloses
  /-- the ticker fires; the ping is written or not -/
  | ping (ok : Bool)
  | setClosed
  | unregister
  | writeClose
  | closeConnection
  | finish
  /-- `Listen` finds the `Feed` closed -/
  | seeClosed
  | testReady
  | handOver
  deriving DecidableEq, Repr

/-- The step can be taken. -/
def enabled (s : State) : Label → Bool
  | .ready => s.start == .starting
  | .register => s.feed == .unregistered
  | .hubCloses => s.feed == .registered
  | .ping _ => s.start == .selecting
  | .setClosed => s.start == .pingFailed
  | .unregister => s.start == .notReady
  | .writeClose => s.start == .closing
  | .closeConnection => s.start == .leaving
  | .finish => s.start == .connClosed
  | .seeClosed => s.listen == .receiving && s.feed == .closed
  | .testReady => s.listen == .feedClosed
  | .handOver => s.listen == .sending && s.start == .selecting

/-- What the step makes of the state. -/
def effect (s : State) : Label → State
  | .ready => { s with start := .selecting }
  | .register => { s with feed := .registered }
  | .hubCloses => { s with feed := .closed }
  | .ping true => s
  | .ping false => { s with start := .pingFailed }
  | .setClosed => { s with start := .notReady, readyState := .closed }
  | .unregister => { s with
      start := .leaving
      feed := if s.feed = .registered then .closed else s.feed }
  | .writeClose => { s with start := .leaving }
  | .closeConnection => { s with start := .connClosed, closes := s.closes + 1 }
  | .finish => { s with start := .returned, readyState := .closed }
  | .seeClosed => { s with listen := .feedClosed }
  | .testReady => { s with listen := if s.readyState = .isOpen then .sending else .returned }
  | .handOver => { s with start := .closing, listen := .returned }

def step (a : Label) (s : State) : Option State :=
  if enabled s a then some (effect s a) else none

/-- `NewClientFeed`, and both loops called. -/
def newClientFeed : State := ⟨.starting, .receiving, .unregistered, .isOpen, 0⟩

/-- All interleavings of both loops and the hub. -/
def clientFeed : System State Label where
  init s := s = newClientFeed
  step := step

/-- `Start` has returned, and `Listen` waits to send on `closeConn`. -/
def Stranded (s : State) : Prop := s.start = .returned ∧ s.listen = .sending

instance (s : State) : Decidable (Stranded s) := inferInstanceAs (Decidable (_ ∧ _))

/-- The condition on a step: see the header. -/
def Timely (s : State) : Label → Prop
  | .ping false => s.listen ≠ .sending
  | .testReady => s.start ≠ .pingFailed
  | _ => True

instance (s : State) : ∀ a, Decidable (Timely s a)
  | .ping false | .testReady => by unfold Timely; infer_instance
  | .ping true | .ready | .register | .hubCloses | .setClosed | .unregister | .writeClose
    | .closeConnection | .finish | .seeClosed | .handOver => isTrue trivial

variable {s s' : State} {a : Label}

theorem step_eq_some : step a s = some s' ↔ enabled s a = true ∧ effect s a = s' := by
  unfold step
  split_ifs with h <;> simp [h]

/-! ## What holds in every run -/

/-- `Start` has not come to its deferred calls. -/
def Start.connOpen : Start → Bool
  | .connClosed | .returned => false
  | _ => true

/-- `Start` has not left the `select`, or not told it yet. -/
def Start.looping : Start → Bool
  | .starting | .selecting | .pingFailed => true
  | _ => false

/-- The connection is closed once, and `readyState` is `Open` as long as `Start` loops. -/
structure Basic (s : State) : Prop where
  closes : s.closes = if s.start.connOpen then 0 else 1
  isOpen : s.start.looping = true → s.readyState = .isOpen

theorem Basic.step (h : Basic s) (hs : step a s = some s') : Basic s' := by
  obtain ⟨hen, rfl⟩ := step_eq_some.mp hs
  obtain ⟨hcloses, hopen⟩ := h
  cases a with
  | register | hubCloses | seeClosed | testReady => exact ⟨hcloses, hopen⟩
  | ready | setClosed | unregister | writeClose | closeConnection | finish =>
    have hstart := beq_iff_eq.mp hen
    rw [hstart] at hcloses hopen
    exact ⟨by simp [effect, hcloses, Start.connOpen], by simp_all [effect, Start.looping]⟩
  | ping ok =>
    have hstart := beq_iff_eq.mp hen
    rw [hstart] at hcloses hopen
    cases ok with
    | true => exact ⟨by rw [effect, hstart]; exact hcloses, fun _ => hopen rfl⟩
    | false => exact ⟨hcloses, fun _ => hopen rfl⟩
  | handOver =>
    have hstart := beq_iff_eq.mp (Bool.and_eq_true_iff.mp hen).2
    rw [hstart] at hcloses
    exact ⟨hcloses, fun hloop => by cases hloop⟩

theorem basic_of_reachable {G : State → Label → Prop} (h : clientFeed.ReachableBy G s) :
    Basic s :=
  h.invariant (fun s hs => by subst hs; exact ⟨rfl, fun _ => rfl⟩) fun _ _ _ hi _ => hi.step

/-! ## What holds in a timely run -/

/-- A `Listen` that waits is heard, and one that may still come to that finds `readyState` as it
should be. -/
structure Heard (s : State) : Prop where
  sending : s.listen = .sending → s.start = .starting ∨ s.start = .selecting
  toTest : s.readyState = .isOpen → s.listen ≠ .returned → s.start.looping = true

theorem Heard.step (h : Heard s) (ht : Timely s a) (hs : step a s = some s') : Heard s' := by
  obtain ⟨hen, rfl⟩ := step_eq_some.mp hs
  obtain ⟨hsending, htest⟩ := h
  cases a with
  | register | hubCloses => exact ⟨hsending, htest⟩
  | ready => exact ⟨fun _ => .inr rfl, fun _ _ => rfl⟩
  | ping ok =>
    cases ok with
    | true => exact ⟨hsending, htest⟩
    | false => exact ⟨fun hl => absurd hl ht, fun _ _ => rfl⟩
  | setClosed | finish =>
    rw [beq_iff_eq.mp hen] at hsending
    exact ⟨fun hl => by simpa using hsending hl, fun ho => by cases ho⟩
  | unregister | writeClose | closeConnection =>
    rw [beq_iff_eq.mp hen] at hsending htest
    exact ⟨fun hl => by simpa using hsending hl, fun ho hl => by cases htest ho hl⟩
  | seeClosed =>
    refine ⟨fun hl => (by cases hl), fun ho _ => htest ho ?_⟩
    rw [beq_iff_eq.mp (Bool.and_eq_true_iff.mp hen).1]
    decide
  | testReady =>
    have hlisten := beq_iff_eq.mp hen
    cases hready : s.readyState with
    | closed => exact ⟨fun hl => by simp [effect, hready] at hl,
        fun ho => by simp [effect, hready] at ho⟩
    | isOpen =>
      have hloop : s.start.looping = true := htest hready (by rw [hlisten]; decide)
      have hstart : s.start = .starting ∨ s.start = .selecting := by
        cases hs : s.start <;> simp_all [Start.looping, Timely]
      exact ⟨fun _ => hstart, fun _ _ => hloop⟩
  | handOver => exact ⟨fun hl => (by cases hl), fun _ hl => absurd rfl hl⟩

theorem heard_of_timely (h : clientFeed.ReachableBy Timely s) : Heard s :=
  h.invariant (fun s hs => by subst hs; exact ⟨fun hl => (by cases hl), fun _ _ => rfl⟩)
    fun _ _ _ hi ht => hi.step ht

/-! ## What follows a step that is not timely -/

/-- What `Start` has left to do after a failed ping. -/
def giveUp : List Label := [.setClosed, .unregister, .closeConnection, .finish]

theorem stranded_of_pingFailed (hstart : s.start = .pingFailed) (hlisten : s.listen = .sending) :
    ∃ t, clientFeed.run giveUp s = some t ∧ Stranded t := by
  obtain ⟨start, listen, feed, readyState, closes⟩ := s
  cases hstart
  cases hlisten
  exact ⟨_, rfl, rfl, rfl⟩

/-- A step that is not timely is one after which `Listen` waits for a `Start` that is leaving. -/
theorem pingFailed_of_not_timely (hb : Basic s) (hs : step a s = some s') (ht : ¬ Timely s a) :
    s'.start = .pingFailed ∧ s'.listen = .sending := by
  obtain ⟨-, rfl⟩ := step_eq_some.mp hs
  cases a with
  | ping ok =>
    cases ok with
    | true => exact absurd trivial ht
    | false => exact ⟨rfl, not_not.mp ht⟩
  | testReady =>
    have hstart : s.start = .pingFailed := not_not.mp ht
    have hopen : s.readyState = .isOpen := hb.isOpen (by rw [hstart]; rfl)
    exact ⟨hstart, if_pos hopen⟩
  | _ => exact absurd trivial ht

/-- Nothing ends the wait. -/
theorem stranded_forever (h : Stranded s) (hs : step a s = some s') : Stranded s' := by
  obtain ⟨hen, rfl⟩ := step_eq_some.mp hs
  obtain ⟨hstart, hlisten⟩ := h
  cases a with
  | register | hubCloses => exact ⟨hstart, hlisten⟩
  | ping ok =>
    rw [enabled, hstart] at hen
    cases hen
  | _ => simp [enabled, hstart, hlisten] at hen

/-- **Neither loop strands the other** in a run whose steps are all timely; and a step that is not
timely strands `Listen`. -/
theorem never_stranded (h : clientFeed.ReachableBy Timely s) :
    ¬ Stranded s ∧ (s.start = .returned → s.closes = 1) ∧
      ∀ a s', step a s = some s' → ¬ Timely s a →
        ∃ t, clientFeed.run giveUp s' = some t ∧ Stranded t := by
  have hb := basic_of_reachable h
  refine ⟨fun ⟨hstart, hlisten⟩ => ?_, fun hstart => ?_, fun a s' hs ht => ?_⟩
  · have hwait := (heard_of_timely h).sending hlisten
    rw [hstart] at hwait
    simp at hwait
  · rw [hb.closes, hstart]
    rfl
  · obtain ⟨hstart, hlisten⟩ := pingFailed_of_not_timely hb hs ht
    exact stranded_of_pingFailed hstart hlisten

/-- The hub closes the `Feed`, and `Start` hears of it. -/
def closed : List Label := [.ready, .register, .hubCloses, .seeClosed, .testReady, .handOver,
  .writeClose, .closeConnection, .finish]

theorem never_stranded_sample : ∃ s, clientFeed.ReachableBy Timely s ∧ s.start = .returned ∧
    ¬ Stranded s ∧ s.closes = 1 := by
  obtain ⟨s, hs, hret⟩ := System.exists_reachableBy
    (fun s a => of_decide_eq_true (p := Timely s a)) (M := clientFeed) rfl closed
    (fun s => decide (s.start = .returned)) (by decide +kernel)
  have hsafe := never_stranded hs
  have hstart : s.start = .returned := of_decide_eq_true hret
  exact ⟨s, hs, hstart, hsafe.1, hsafe.2.1 hstart⟩

/-- **Stranded.** The hub closes the `Feed`, `Listen` finds `readyState` open, and a ping fails. -/
theorem listen_stranded : ¬ ∀ s, clientFeed.Reachable s → ¬ Stranded s := by
  intro hall
  obtain ⟨s, hs, hstranded⟩ := @System.exists_reachable _ _ clientFeed newClientFeed rfl
    ([.ready, .register, .hubCloses, .seeClosed, .testReady, .ping false] ++ giveUp)
    (fun s => decide (Stranded s)) (by decide +kernel)
  exact hall s hs (of_decide_eq_true hstranded)

end SigningAgent.ClientLoops
