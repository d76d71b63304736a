import SigningAgent.Go
import SigningAgent.Lib.System
import Mathlib.Data.Finset.Basic

/-!
# The feed pipeline (`internal/hub/feed_source.go`, `internal/hub/feed_hub.go`)

One `websocketSource.Listen` reads messages from the connection and puts them into the channel
`rxMessages`, which holds one. The hub loop `startHub` takes them out and sends each to the `Feed`
of every registered client. Clients come and go by `RegisterClient` and `UnregisterClient`.

* A label is one step of one party, so any interleaving of the loops and of any number of calls
  is a list of labels. Clients are numbered.
* What the outside does is in the label: the message read, whether a read error is answered by a
  reconnection (`readError false` is an error after `Disconnect`, or one with a `Connect` that
  gives up), and the messages the cache replays to a new client (none without a cache).
* `rxMessages` is `buffer` and `rxClosed`. A `Feed` has no buffer: sending to it is a step that
  needs the receiver, which runs until its `Feed` is closed.
* `w.lock` is held by the hub while it sends or cleans up, and by the `RegisterClient` in
  `registering`; the other sections under it do not wait for anything and are one step.
* Sending on a closed channel and closing one again set `panicked`.
* `read`, `taken` and `broadcast` record the messages read from the connection, those the hub took
  from `rxMessages`, and those for which it got the lock; a client records what it received, and
  how far the last two were when it was registered.
-/

namespace SigningAgent.Hub

open Transition

/-- Where `Listen` is. -/
inductive Source where
  /-- in `ReadMessage`, or reconnecting -/
  | reading
  /-- in `w.rxMessages <- message` -/
  | sending (m : Bytes)
  /-- before the deferred `close(w.rxMessages)` -/
  | closing
  | done
  deriving DecidableEq

/-- Where `startHub` is. -/
inductive Loop where
  /-- in `<-w.broadcast` -/
  | receiving
  /-- before `w.lock.Lock()` -/
  | holding (m : Bytes)
  /-- sending to the clients in `todo`, under the lock -/
  | sending (m : Bytes) (todo : Finset Nat)
  /-- before the `Lock` of `cleanUp` -/
  | ended
  /-- in the loop of `cleanUp`, under the lock -/
  | cleaning
  | stopped
  deriving DecidableEq

/-- A client and its receiver. -/
structure Client where
  /-- `RegisterClient` has been called -/
  called : Bool
  /-- its `Feed` is closed -/
  closed : Bool
  /-- its receiver has returned -/
  stopped : Bool
  replayed : List Bytes
  received : List Bytes
  /-- how many broadcasts had begun when it was registered -/
  joined : Nat
  /-- how many messages the hub had taken when it was registered -/
  joinedTaken : Nat
  deriving DecidableEq

structure State where
  source : Source
  buffer : Option Bytes
  rxClosed : Bool
  loop : Loop
  registering : Option (Nat × List Bytes)
  clients : Finset Nat
  client : Nat → Client
  panicked : Bool
  read : List Bytes
  taken : List Bytes
  broadcast : List Bytes

inductive Label where
  | readMessage (m : Bytes)
  | readError (reconnected : Bool)
  | push
  | closeRx
  | take
  | lockHub
  | send (c : Nat)
  | unlockHub
  | closeFeed (c : Nat)
  | register (c : Nat) (messages : List Bytes)
  | replay
  | join
  | unregister (c : Nat)
  | stopReceiver (c : Nat)
  deriving DecidableEq

namespace Client

def call (x : Client) : Client := { x with called := true }

def close (x : Client) : Client := { x with closed := true }

def stop (x : Client) : Client := { x with stopped := true }

def replay (m : Bytes) (x : Client) : Client := { x with replayed := x.replayed ++ [m] }

def receive (m : Bytes) (x : Client) : Client := { x with received := x.received ++ [m] }

def join (s : State) (x : Client) : Client :=
  { x with joined := s.broadcast.length, joinedTaken := s.taken.length }

end Client

/-- The hub loop holds the lock. -/
def Loop.locks : Loop → Bool
  | .sending .. | .cleaning => true
  | _ => false

namespace State

/-- Nobody holds `w.lock`. -/
def lockFree (s : State) : Bool := s.registering.isNone && !s.loop.locks

def panic (s : State) : State := { s with panicked := true }

/-- The clients, after `f` happened to client `c`. -/
def update (c : Nat) (f : Client → Client) (s : State) : Nat → Client :=
  Function.update s.client c (f (s.client c))

/-- `close(client.Feed); delete(w.clients, client)`. -/
def dropClient (c : Nat) (s : State) : State :=
  if (s.client c).closed then s.panic
  else { s with
    client := s.update c Client.close
    clients := s.clients.erase c }

end State

def step : Label → State → Option State
  | .readMessage m, s =>
    match s.source with
    | .reading => some { s with source := .sending m, read := s.read ++ [m] }
    | _ => none
  | .readError reconnected, s =>
    match s.source with
    | .reading => some { s with source := if reconnected then .reading else .closing }
    | _ => none
  | .push, s =>
    match s.source with
    | .sending m =>
      if s.rxClosed then some s.panic
      else match s.buffer with
        | none => some { s with source := .reading, buffer := some m }
        | some _ => none
    | _ => none
  | .closeRx, s =>
    match s.source with
    | .closing =>
      if s.rxClosed then some s.panic else some { s with source := .done, rxClosed := true }
    | _ => none
  | .take, s =>
    match s.loop, s.buffer with
    | .receiving, some m =>
      some { s with loop := .holding m, buffer := none, taken := s.taken ++ [m] }
    | .receiving, none => if s.rxClosed then some { s with loop := .ended } else none
    | _, _ => none
  | .lockHub, s =>
    match s.loop with
    | .holding m =>
      if s.lockFree then
        some { s with loop := .sending m s.clients, broadcast := s.broadcast ++ [m] }
      else none
    | .ended => if s.lockFree then some { s with loop := .cleaning } else none
    | _ => none
  | .send c, s =>
    match s.loop with
    | .sending m todo =>
      if c ∈ todo then
        if (s.client c).closed then some s.panic
        else if (s.client c).stopped then none
        else some { s with
          client := s.update c (Client.receive m)
          loop := .sending m (todo.erase c) }
      else none
    | _ => none
  | .unlockHub, s =>
    match s.loop with
    | .sending _ todo => if todo = ∅ then some { s with loop := .receiving } else none
    | .cleaning => if s.clients = ∅ then some { s with loop := .stopped } else none
    | _ => none
  | .closeFeed c, s =>
    match s.loop with
    | .cleaning => if c ∈ s.clients then some (s.dropClient c) else none
    | _ => none
  | .register c messages, s =>
    if s.lockFree && !(s.client c).called then
      some { s with
        client := s.update c Client.call
        registering := some (c, messages) }
    else none
  | .replay, s =>
    match s.registering with
    | some (c, m :: messages) =>
      if (s.client c).closed then some s.panic
      else if (s.client c).stopped then none
      else some { s with
        client := s.update c (Client.replay m)
        registering := some (c, messages) }
    | _ => none
  | .join, s =>
    match s.registering with
    | some (c, []) =>
      some { s with
        client := s.update c (Client.join s)
        registering := none
        clients := insert c s.clients }
    | _ => none
  | .unregister c, s =>
    if s.lockFree then some (if c ∈ s.clients then s.dropClient c else s) else none
  | .stopReceiver c, s =>
    if (s.client c).closed && !(s.client c).stopped then
      some { s with client := s.update c Client.stop }
    else none

/-- `Run` has started both loops; nobody is registered. -/
def start : State where
  source := .reading
  buffer := none
  rxClosed := false
  loop := .receiving
  registering := none
  clients := ∅
  client := fun _ => ⟨false, false, false, [], [], 0, 0⟩
  panicked := false
  read := []
  taken := []
  broadcast := []

/-- All interleavings of the source, the hub, the clients and the calls. -/
def pipeline : System State Label where
  init s := s = start
  step := step

/-! ## What a step can do -/

/-- The step would send on a closed channel, or close one again. -/
def Panics (s : State) : Label → Prop
  | .push => (∃ m, s.source = .sending m) ∧ s.rxClosed = true
  | .closeRx => s.source = .closing ∧ s.rxClosed = true
  | .send c => ∃ m todo, s.loop = .sending m todo ∧ c ∈ todo ∧ (s.client c).closed = true
  | .replay => ∃ c messages, s.registering = some (c, messages) ∧ (s.client c).closed = true
  | .closeFeed c | .unregister c => c ∈ s.clients ∧ (s.client c).closed = true
  | _ => False

/-- The steps of the pipeline. -/
inductive Effect (s : State) : Label → State → Prop
  | panics {a : Label} : Panics s a → Effect s a s.panic
  | readMessage {m : Bytes} : s.source = .reading →
      Effect s (.readMessage m) { s with source := .sending m, read := s.read ++ [m] }
  | reconnected : s.source = .reading → Effect s (.readError true) s
  | gaveUp : s.source = .reading → Effect s (.readError false) { s with source := .closing }
  | pushed {m : Bytes} : s.source = .sending m → s.buffer = none →
      Effect s .push { s with source := .reading, buffer := some m }
  | rxClosed : s.source = .closing →
      Effect s .closeRx { s with source := .done, rxClosed := true }
  | took {m : Bytes} : s.loop = .receiving → s.buffer = some m →
      Effect s .take { s with loop := .holding m, buffer := none, taken := s.taken ++ [m] }
  | ended : s.loop = .receiving → s.buffer = none → s.rxClosed = true →
      Effect s .take { s with loop := .ended }
  | locked {m : Bytes} : s.loop = .holding m → s.registering = none →
      Effect s .lockHub
        { s with loop := .sending m s.clients, broadcast := s.broadcast ++ [m] }
  | cleaning : s.loop = .ended → s.registering = none →
      Effect s .lockHub { s with loop := .cleaning }
  | sent {m : Bytes} {todo : Finset Nat} {c : Nat} : s.loop = .sending m todo → c ∈ todo →
      Effect s (.send c) { s with
        client := s.update c (Client.receive m)
        loop := .sending m (todo.erase c) }
  | unlocked {m : Bytes} : s.loop = .sending m ∅ →
      Effect s .unlockHub { s with loop := .receiving }
  | stopped : s.loop = .cleaning → Effect s .unlockHub { s with loop := .stopped }
  | dropped {a : Label} {c : Nat} : c ∈ s.clients → s.registering = none ∨ s.loop = .cleaning →
      (∀ m todo, s.loop ≠ .sending m todo) →
      Effect s a { s with
        client := s.update c Client.close
        clients := s.clients.erase c }
  | registering {c : Nat} {messages : List Bytes} : s.lockFree = true →
      (s.client c).called = false → Effect s (.register c messages) { s with
        client := s.update c Client.call
        registering := some (c, messages) }
  | replayed {c : Nat} {m : Bytes} {messages : List Bytes} :
      s.registering = some (c, m :: messages) → Effect s .replay { s with
        client := s.update c (Client.replay m)
        registering := some (c, messages) }
  | joined {c : Nat} : s.registering = some (c, []) → Effect s .join { s with
        client := s.update c (Client.join s)
        registering := none
        clients := insert c s.clients }
  | unknown {c : Nat} : c ∉ s.clients → Effect s (.unregister c) s
  | receiverStopped {c : Nat} : (s.client c).closed = true →
      Effect s (.stopReceiver c)
        { s with client := s.update c Client.stop }

theorem lockFree_iff {s : State} :
    s.lockFree = true ↔ s.registering = none ∧ s.loop.locks = false := by
  simp [State.lockFree]

theorem not_sending_of_not_locks {l : Loop} (h : l.locks = false) :
    ∀ m todo, l ≠ .sending m todo := by
  rintro m todo rfl
  cases h

/-- **Inversion.** -/
theorem step_effect {a : Label} {s s' : State} (hs : step a s = some s') : Effect s a s' := by
  unfold step at hs
  split at hs
  · -- `readMessage`
    split at hs
    · rename_i h
      cases hs
      exact .readMessage h
    · cases hs
  · -- `readError`
    split at hs
    · rename_i reconnected _ h
      cases hs
      cases reconnected with
      | true =>
        have : ({ s with source := .reading } : State) = s := by rw [← h]
        simp only [if_true, this]
        exact .reconnected h
      | false => exact .gaveUp h
    · cases hs
  · -- `push`
    split at hs
    · rename_i m h
      split at hs
      · rename_i hrx
        cases hs
        exact .panics ⟨⟨m, h⟩, hrx⟩
      · split at hs
        · rename_i hb
          cases hs
          exact .pushed h hb
        · cases hs
    · cases hs
  · -- `closeRx`
    split at hs
    · rename_i h
      split at hs
      · rename_i hrx
        cases hs
        exact .panics ⟨h, hrx⟩
      · cases hs
        exact .rxClosed h
    · cases hs
  · -- `take`
    split at hs
    · rename_i m h hb
      cases hs
      exact .took h hb
    · rename_i h hb
      split at hs
      · rename_i hrx
        cases hs
        exact .ended h hb hrx
      · cases hs
    · cases hs
  · -- `lockHub`
    split at hs
    · rename_i m h
      split at hs
      · rename_i hfree
        cases hs
        exact .locked h (lockFree_iff.mp hfree).1
      · cases hs
    · rename_i h
      split at hs
      · rename_i hfree
        cases hs
        exact .cleaning h (lockFree_iff.mp hfree).1
      · cases hs
    · cases hs
  · -- `send`
    split at hs
    · rename_i m todo h
      split at hs
      · rename_i hc
        split at hs
        · rename_i hclosed
          cases hs
          exact .panics ⟨m, todo, h, hc, hclosed⟩
        · split at hs
          · cases hs
          · cases hs
            exact .sent h hc
      · cases hs
    · cases hs
  · -- `unlockHub`
    split at hs
    · rename_i m todo h
      split at hs
      · rename_i htodo
        cases hs
        subst htodo
        exact .unlocked h
      · cases hs
    · rename_i h
      split at hs
      · cases hs
        exact .stopped h
      · cases hs
    · cases hs
  · -- `closeFeed`
    split at hs
    · rename_i c _ h
      split at hs
      · rename_i hc
        cases hs
        unfold State.dropClient
        split
        · rename_i hclosed
          exact .panics ⟨hc, hclosed⟩
        · exact .dropped hc (Or.inr h) (by simp [h])
      · cases hs
    · cases hs
  · -- `register`
    split at hs
    · rename_i h
      rw [Bool.and_eq_true, Bool.not_eq_true'] at h
      cases hs
      exact .registering h.1 h.2
    · cases hs
  · -- `replay`
    split at hs
    · rename_i c m messages h
      split at hs
      · rename_i hclosed
        cases hs
        exact .panics ⟨c, _, h, hclosed⟩
      · split at hs
        · cases hs
        · cases hs
          exact .replayed h
    · cases hs
  · -- `join`
    split at hs
    · rename_i c h
      cases hs
      exact .joined h
    · cases hs
  · -- `unregister`
    split at hs
    · rename_i c _ hfree
      obtain ⟨hreg, hlocks⟩ := lockFree_iff.mp hfree
      cases hs
      split
      · rename_i hc
        unfold State.dropClient
        split
        · rename_i hclosed
          exact .panics ⟨hc, hclosed⟩
        · exact .dropped hc (Or.inl hreg) (not_sending_of_not_locks hlocks)
      · rename_i hc
        exact .unknown hc
    · cases hs
  · -- `stopReceiver`
    split at hs
    · rename_i h
      rw [Bool.and_eq_true] at h
      cases hs
      exact .receiverStopped h.1
    · cases hs

end SigningAgent.Hub
