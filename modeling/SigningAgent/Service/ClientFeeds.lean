import SigningAgent.Hub.Membership

/-!
# Are the registered clients live?

The hub of `Feed.lean` with the calls of `agentSrv.RegisterClientFeed` and the loops of
`clientFeedImpl.Start` that they start.

* `RegisterClientFeed` looks at `IsRunning` (`call`), upgrades the connection and starts the two
  goroutines of the client (`upgrade`), and then calls `RegisterClient` (`register`, and the
  `replay` and `join` of the hub). The clients are numbered in the order of the calls.
* `Start` ends in one of two ways: a ping fails, it calls `UnregisterClient` and returns
  (`pingFails`, `unregister`, `leave`); or its `Feed` is closed, which `Listen` tells it
  (`closeConn`).
* The client of the auto-approver is internal: it has no `Start` loop (`internal`).
* `isRunning` is false from when the hub loop has seen `rxMessages` closed.

`UnregisterClient` of a client that is not registered does nothing, and a `RegisterClient` after
`cleanUp` registers with a hub that is gone. `Timely` is the condition on a step: `RegisterClient`
gets the lock before the `UnregisterClient` of its client does, and before `cleanUp` is over.

**`registered_live`**: in every run whose steps all meet `Timely`, in every state, the `Start` loop
of every registered external client is running or about to unregister it; and when the hub loop has
ended nobody is registered, and every `Feed` is closed. Without it, not even the states in which no
call is in progress are safe (`registered_dead`).
-/

namespace SigningAgent.ClientFeeds

open Transition

/-- Where the call that registers a client is. -/
inductive Call where
  /-- `IsRunning` was true -/
  | checked
  /-- before `RegisterClient` -/
  | started
  /-- in `RegisterClient` -/
  | registering
  | returned
  deriving DecidableEq, Repr

/-- Where the `Start` loop of a client is. -/
inductive Start where
  | notStarted
  | running
  /-- before the `UnregisterClient` after a failed ping -/
  | pingFailed
  /-- before it returns -/
  | unregistered
  | returned
  deriving DecidableEq, Repr

/-- `Start` has returned, or has nothing left to do. -/
def Start.ended : Start → Bool
  | .unregistered | .returned => true
  | _ => false

structure Feed where
  call : Call
  start : Start
  deriving DecidableEq, Repr

/-- The client has a `Start` loop. -/
def Feed.isExternal (f : Feed) : Bool := f.start != .notStarted

/-- The call and the loop have done what they began. -/
def Feed.quiet (f : Feed) : Bool := f.call == .returned && f.start != .pingFailed

structure State where
  hub : Hub.State
  feeds : List Feed

inductive Label where
  | hub (a : Hub.Label)
  /-- `RegisterClientFeed` is called, for the next client -/
  | call
  /-- the client of the auto-approver is about to be registered -/
  | internal
  | upgrade (c : Nat) (ok : Bool)
  | register (c : Nat) (messages : List Bytes)
  | pingFails (c : Nat)
  | unregister (c : Nat)
  | closeConn (c : Nat)
  | leave (c : Nat)
  deriving DecidableEq

/-- `IsRunning`. -/
def isRunning (h : Hub.State) : Bool := !h.loop.sawClosed

/-- The calls after a step of the hub: `RegisterClient` returns when it has added the client. -/
def afterHub (a : Hub.Label) (s : State) : List Feed :=
  match a, s.hub.registering with
  | .join, some (c, _) =>
    match s.feeds[c]? with
    | some f => s.feeds.set c { f with call := .returned }
    | none => s.feeds
  | _, _ => s.feeds

/-- A step of client `c`, so far `f`: the label of the hub, if it is one of its steps, and what the
client is then. -/
def feedStep (s : State) (c : Nat) (f : Feed) : Label → Option (Option Hub.Label × Feed)
  | .upgrade _ ok =>
    match f.call with
    | .checked => some (none, if ok then ⟨.started, .running⟩ else { f with call := .returned })
    | _ => none
  | .register _ messages =>
    match f.call with
    | .started => some (some (.register c messages), { f with call := .registering })
    | _ => none
  | .pingFails _ =>
    match f.start with
    | .running => some (none, { f with start := .pingFailed })
    | _ => none
  | .unregister _ =>
    match f.start with
    | .pingFailed => some (some (.unregister c), { f with start := .unregistered })
    | _ => none
  | .closeConn _ =>
    match f.start with
    | .running =>
      if (s.hub.client c).closed then some (none, { f with start := .returned }) else none
    | _ => none
  | .leave _ =>
    match f.start with
    | .unregistered => some (none, { f with start := .returned })
    | _ => none
  | _ => none

/-- The client whose step it is. -/
def Label.client? : Label → Option Nat
  | .upgrade c _ | .register c _ | .pingFails c | .unregister c | .closeConn c | .leave c => some c
  | .hub _ | .call | .internal => none

/-- A step of the hub, if there is one. -/
def hubStep (h : Hub.State) : Option Hub.Label → Option Hub.State
  | some a => Hub.step a h
  | none => some h

def step (a : Label) (s : State) : Option State :=
  match a with
  | .hub (.register ..) | .hub (.unregister _) => none
  | .hub b => (Hub.step b s.hub).map fun h => { hub := h, feeds := afterHub b s }
  | .call => some { s with
      feeds := s.feeds ++ [⟨if isRunning s.hub then .checked else .returned, .notStarted⟩] }
  | .internal => some { s with feeds := s.feeds ++ [⟨.started, .notStarted⟩] }
  | a =>
    a.client?.bind fun c => s.feeds[c]?.bind fun f => (feedStep s c f a).bind fun x =>
      (hubStep s.hub x.1).map fun h => { hub := h, feeds := s.feeds.set c x.2 }

/-- All interleavings of the hub, the calls and the `Start` loops. -/
def feeding : System State Label where
  init s := s = ⟨Hub.start, []⟩
  step := step

/-- No call is in the middle of `RegisterClientFeed`, `UnregisterClient` or `cleanUp`. -/
def Quiescent (s : State) : Prop :=
  (∀ f ∈ s.feeds, f.quiet = true) ∧ s.hub.loop ≠ .ended ∧ s.hub.loop ≠ .cleaning

instance (s : State) : Decidable (Quiescent s) := inferInstanceAs (Decidable (_ ∧ _))

/-- Every registered external client has a `Start` loop that has not returned; when the hub loop
has ended, nobody is registered and every `Feed` is closed. -/
structure Live (s : State) : Prop where
  running : ∀ (c : Nat) (f : Feed), s.feeds[c]? = some f → f.isExternal = true →
    c ∈ s.hub.clients → f.start.ended = false
  empty : s.hub.loop = .stopped → s.hub.clients = ∅
  closed : s.hub.loop = .stopped → ∀ c, (s.hub.client c).called = true →
    (s.hub.client c).closed = true

/-- The condition on a step: see the header. -/
def Timely (s : State) : Label → Prop
  | .register .. => s.hub.loop ≠ .stopped
  | .unregister c => (s.hub.client c).called = true
  | _ => True

instance (s : State) : ∀ a, Decidable (Timely s a)
  | .register .. | .unregister _ => by unfold Timely; infer_instance
  | .hub _ | .call | .internal | .upgrade .. | .pingFails _ | .closeConn _ | .leave _ =>
    isTrue trivial

/-! ## The invariant -/

structure Inv (s : State) : Prop where
  hub : Hub.pipeline.Reachable s.hub
  gone : ∀ (c : Nat) (f : Feed), s.feeds[c]? = some f → f.start.ended = true → Hub.Gone s.hub c
  accounted : Hub.Accounted s.hub
  stopped : Hub.Stopped s.hub

theorem Inv.live {s : State} (hi : Inv s) : Live s := by
  refine ⟨fun c f hf _ hmem => ?_, fun hstop => (hi.stopped hstop).1, fun hstop c hcalled => ?_⟩
  · cases he : f.start.ended with
    | false => rfl
    | true => exact absurd hmem (hi.gone c f hf he).2.1
  · obtain ⟨hempty, hreg⟩ := hi.stopped hstop
    rcases hi.accounted c hcalled with hmem | ⟨messages, hr⟩ | hclosed
    · rw [hempty] at hmem
      exact absurd hmem (Finset.notMem_empty c)
    · rw [hreg] at hr
      cases hr
    · exact hclosed

section

variable {s s' : State}

/-- A step of the hub, with the clients as they are or one of them changed. -/
theorem Inv.of_hub (hi : Inv s) {b : Hub.Label} {h : Hub.State} {feeds : List Feed}
    (hs : Hub.step b s.hub = some h)
    (hreg : ∀ c messages, b = .register c messages → s.hub.loop ≠ .stopped)
    (hfeeds : ∀ (c : Nat) (f : Feed), feeds[c]? = some f → f.start.ended = true →
      Hub.Gone s.hub c ∨ Hub.Gone h c) : Inv ⟨h, feeds⟩ := by
  obtain ⟨-, -, hc⟩ := Hub.reachable_inv hi.hub
  have he := Hub.step_effect hs
  refine ⟨.step hi.hub trivial hs, fun c f hf hend => ?_, hi.accounted.effect hc he,
    hi.stopped.step hc hs hreg⟩
  exact (hfeeds c f hf hend).elim (fun hgone => hgone.effect he) id

/-- A step of the hub itself. -/
theorem Inv.hubOnly (hi : Inv s) {b : Hub.Label} {h : Hub.State}
    (hs : Hub.step b s.hub = some h)
    (hreg : ∀ c messages, b ≠ .register c messages) : Inv ⟨h, afterHub b s⟩ := by
  refine hi.of_hub hs (fun c messages he => absurd he (hreg c messages)) fun d g hd hend =>
    Or.inl ?_
  unfold afterHub at hd
  split at hd
  · rename_i c _ _
    split at hd
    · rename_i f hf
      rcases getElem?_set_cases hd with ⟨rfl, rfl⟩ | ⟨-, hd⟩
      · exact hi.gone d f hf hend
      · exact hi.gone d g hd hend
    · exact hi.gone d g hd hend
  · exact hi.gone d g hd hend

/-- A step of a client that is none of the hub. -/
theorem Inv.feedOnly (hi : Inv s) {c : Nat} {f : Feed}
    (hf : f.start.ended = true → Hub.Gone s.hub c) :
    Inv { s with feeds := s.feeds.set c f } := by
  refine ⟨hi.hub, fun d g hd hend => ?_, hi.accounted, hi.stopped⟩
  rcases getElem?_set_cases hd with ⟨rfl, rfl⟩ | ⟨-, hd⟩
  · exact hf hend
  · exact hi.gone d g hd hend

/-- A call begins. -/
theorem Inv.append (hi : Inv s) {f : Feed} (hf : f.start.ended = false) :
    Inv { s with feeds := s.feeds ++ [f] } := by
  refine ⟨hi.hub, fun d g hd hend => ?_, hi.accounted, hi.stopped⟩
  by_cases hlt : d < s.feeds.length
  · rw [List.getElem?_append_left hlt] at hd
    exact hi.gone d g hd hend
  · rw [List.getElem?_append_right (by omega)] at hd
    rw [List.mem_singleton.mp (List.mem_of_getElem? hd), hf] at hend
    cases hend

/-- The step lemma for the steps of a client. -/
theorem Inv.feedStep (hi : Inv s) {a : Label} {c : Nat} {f : Feed} {x : Option Hub.Label × Feed}
    {h : Hub.State} (ha : a.client? = some c) (hf : s.feeds[c]? = some f) (ht : Timely s a)
    (hx : feedStep s c f a = some x) (hh : hubStep s.hub x.1 = some h) :
    Inv ⟨h, s.feeds.set c x.2⟩ := by
  obtain ⟨-, -, hfeeds⟩ := Hub.reachable_inv hi.hub
  have hold := hi.gone c f hf
  cases a with
  | hub b => cases ha
  | call => cases ha
  | internal => cases ha
  | upgrade d ok =>
    simp only [ClientFeeds.feedStep] at hx
    split at hx
    · cases hx
      cases hh
      cases ok with
      | true => exact hi.feedOnly nofun
      | false => exact hi.feedOnly hold
    · cases hx
  | register d messages =>
    simp only [ClientFeeds.feedStep] at hx
    split at hx
    · cases hx
      have hh : Hub.step (.register c messages) s.hub = some h := hh
      refine hi.of_hub hh (fun _ _ _ => ht) fun e g he hend => Or.inl ?_
      rcases getElem?_set_cases he with ⟨rfl, rfl⟩ | ⟨-, he⟩
      · exact hold hend
      · exact hi.gone e g he hend
    · cases hx
  | pingFails d =>
    simp only [ClientFeeds.feedStep] at hx
    split at hx
    · cases hx
      cases hh
      exact hi.feedOnly nofun
    · cases hx
  | unregister d =>
    obtain rfl : d = c := Option.some.inj ha
    simp only [ClientFeeds.feedStep] at hx
    split at hx
    · cases hx
      have hh : Hub.step (.unregister d) s.hub = some h := hh
      refine hi.of_hub hh (fun _ _ he => by cases he) fun e g he hend => ?_
      rcases getElem?_set_cases he with ⟨rfl, rfl⟩ | ⟨-, he⟩
      · exact Or.inr (Hub.gone_of_unregister hfeeds ht hh)
      · exact Or.inl (hi.gone e g he hend)
    · cases hx
  | closeConn d =>
    simp only [ClientFeeds.feedStep] at hx
    split at hx
    · split at hx
      · rename_i hclosed
        cases hx
        cases hh
        exact hi.feedOnly fun _ => hfeeds.gone hclosed
      · cases hx
    · cases hx
  | leave d =>
    simp only [ClientFeeds.feedStep] at hx
    split at hx
    · rename_i hstart
      cases hx
      cases hh
      exact hi.feedOnly fun _ => hold (by rw [hstart]; rfl)
    · cases hx

/-- The step lemma. -/
theorem Inv.step (hi : Inv s) {a : Label} (ht : Timely s a) (hs : step a s = some s') :
    Inv s' := by
  unfold ClientFeeds.step at hs
  split at hs
  · cases hs
  · cases hs
  · rename_i b hregister hunregister
    obtain ⟨h, hb, rfl⟩ := Option.map_eq_some_iff.mp hs
    exact hi.hubOnly hb fun c messages he => hregister c messages he
  · cases hs
    exact hi.append rfl
  · cases hs
    exact hi.append rfl
  · obtain ⟨c, hc, hs⟩ := Option.bind_eq_some_iff.mp hs
    obtain ⟨f, hf, hs⟩ := Option.bind_eq_some_iff.mp hs
    obtain ⟨x, hx, hs⟩ := Option.bind_eq_some_iff.mp hs
    obtain ⟨h, hh, rfl⟩ := Option.map_eq_some_iff.mp hs
    exact hi.feedStep hc hf ht hx hh

end

/-- **Registered clients are live** in every run whose steps all meet `Timely`. -/
theorem registered_live {s : State} (hr : feeding.ReachableBy Timely s) : Live s := by
  have hi : Inv s := by
    refine hr.invariant ?_ fun s a s' hi ht hs => hi.step ht hs
    rintro s rfl
    refine ⟨.init rfl, fun c f hf => by simp at hf, fun c hc => ?_, nofun⟩
    cases hc
  exact hi.live

/-- Three clients: a ping of the first one fails after its registration, the second one is closed
by the shutdown, and the third one comes too late. -/
theorem registered_live_sample :
    ∃ s, feeding.ReachableBy Timely s ∧ Live s ∧ s.hub.loop = .stopped ∧
      s.feeds = [⟨.returned, .returned⟩, ⟨.returned, .returned⟩, ⟨.returned, .notStarted⟩] := by
  obtain ⟨s, hr, hs⟩ := System.exists_reachableBy (M := feeding) (G := Timely)
    (g := fun s a => decide (Timely s a)) (fun _ _ => of_decide_eq_true)
    (s := ⟨Hub.start, []⟩) rfl
    [.call, .upgrade 0 true, .register 0 [], .hub .join, .pingFails 0, .call, .upgrade 1 true,
      .unregister 0, .leave 0, .register 1 [], .hub .join, .hub (.readError false),
      .hub .closeRx, .hub .take, .call, .hub .lockHub, .hub (.closeFeed 1), .hub .unlockHub,
      .closeConn 1]
    (fun s => decide (s.hub.loop = .stopped) && decide (s.feeds =
      [⟨.returned, .returned⟩, ⟨.returned, .returned⟩, ⟨.returned, .notStarted⟩]))
    (by decide +kernel)
  simp only [Bool.and_eq_true, decide_eq_true_eq] at hs
  exact ⟨s, hr, registered_live hr, hs.1, hs.2⟩

/-- **Registered after the end.** A ping fails before `RegisterClient`: `UnregisterClient` finds
nothing to do and `Start` returns; then the client is registered, and stays so. -/
theorem registered_dead :
    ¬ ∀ s, feeding.Reachable s → Quiescent s → Live s := by
  intro hall
  obtain ⟨s, hr, hs⟩ := System.exists_reachable (M := feeding) (s := ⟨Hub.start, []⟩) rfl
    [.call, .upgrade 0 true, .pingFails 0, .unregister 0, .leave 0, .register 0 [], .hub .join]
    (fun s => decide (Quiescent s) && decide (s.feeds = [⟨.returned, .returned⟩]) &&
      decide (0 ∈ s.hub.clients)) (by decide +kernel)
  simp only [Bool.and_eq_true, decide_eq_true_eq] at hs
  obtain ⟨⟨hquiescent, hfeeds⟩, hmem⟩ := hs
  have h := (hall s hr hquiescent).running 0 ⟨.returned, .returned⟩ (by simp [hfeeds]) rfl hmem
  cases h

end SigningAgent.ClientFeeds
