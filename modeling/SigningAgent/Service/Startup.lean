import SigningAgent.Hub.Membership

/-!
# The auto-approver at start-up

The hub of `Feed.lean` with `agentSrv.Start`, for a service with an auto-approver, which is client
`0`. Other clients come and go as they like.

* `Start` looks at `agentInfo` (`checkAgentInfo`), waits until the auto-approver listens (`listen`),
  calls `Run`, and then `RegisterClient` (`register`, and the `join` of the hub). The `Stop` of the
  auto-approver when `Run` fails is left out: no hub ever sends to it.
* `Run` connects and starts the two loops (`connect`), which take their steps from then on, and
  waits for both to have begun (`runReturns`).
* With auto-approval enabled `initRouter` leaves `messageCache` nil, and then `RegisterClient`
  replays nothing (`replays`).

`Prompt` is the condition on a step: when the hub gets the lock for a message, the auto-approver has
been added. Nothing in `Start` sees to it.

**`misses_no_message`**: in every run whose steps all meet `Prompt`, while the hub loop goes on, the
auto-approver has received all that the hub has taken, but for the message that the hub is still
sending it or is waiting for the lock with; and a step that does not meet `Prompt` loses a message.
`message_lost` is such a run.
-/

namespace SigningAgent.Startup

open Transition

/-- `messageCache` in `initRouter`, where `newCacher` is what `NewCacher` returns. -/
def messageCache {α : Type*} (autoApprove : Bool) (newCacher : α) : Option α :=
  if !autoApprove then some newCacher else none

/-- What `RegisterClient` sends first, where `messages` is what a cache would return. -/
def replays (autoApprove : Bool) (messages : List Bytes) : List Bytes :=
  (messageCache autoApprove messages).getD []

/-- Where `Start` is. -/
inductive Start where
  /-- before it looks at `agentInfo` -/
  | called
  /-- before `go a.autoApprover.Listen` -/
  | configured
  /-- before `Run` -/
  | listening
  /-- in `Run`, both loops have been started -/
  | running
  /-- before `RegisterClient` -/
  | ran
  | registering
  | returned
  /-- returned without a hub -/
  | noHub
  deriving DecidableEq, Repr

def Start.hubRuns : Start → Bool
  | .running | .ran | .registering | .returned => true
  | _ => false

structure State where
  hub : Hub.State
  start : Start

inductive Label where
  | hub (a : Hub.Label)
  | checkAgentInfo (configured : Bool)
  | listen
  | connect (ok : Bool)
  | runReturns
  | register (messages : List Bytes)
  deriving DecidableEq

/-- A step of the hub that is none of `Start`: nobody else registers the auto-approver, and nobody
unregisters it. -/
def ofOthers : Hub.Label → Bool
  | .register c _ | .unregister c => c != 0
  | _ => true

/-- The hub without a cache. -/
def noCache : Hub.Label → Hub.Label
  | .register c messages => .register c (replays true messages)
  | a => a

/-- `Start` after a step of the hub: `RegisterClient` returns when it has added the client. -/
def afterHub (a : Hub.Label) (s : State) : Start :=
  match a, s.hub.registering with
  | .join, some (0, _) => .returned
  | _, _ => s.start

def step : Label → State → Option State
  | .hub a, s =>
    if s.start.hubRuns && ofOthers a then
      (Hub.step (noCache a) s.hub).map fun h => { hub := h, start := afterHub a s }
    else none
  | .checkAgentInfo configured, s =>
    match s.start with
    | .called => some { s with start := if configured then .configured else .noHub }
    | _ => none
  | .listen, s =>
    match s.start with
    | .configured => some { s with start := .listening }
    | _ => none
  | .connect ok, s =>
    match s.start with
    | .listening => some { s with start := if ok then .running else .noHub }
    | _ => none
  | .runReturns, s =>
    match s.start with
    | .running => some { s with start := .ran }
    | _ => none
  | .register messages, s =>
    match s.start with
    | .ran => (Hub.step (.register 0 (replays true messages)) s.hub).map fun h =>
        { hub := h, start := .registering }
    | _ => none

/-- All interleavings of `Start`, the source, the hub and the other clients. -/
def starting : System State Label where
  init s := s = ⟨Hub.start, .called⟩
  step := step

/-- The auto-approver has received what the hub has taken. -/
structure Delivered (s : State) : Prop where
  /-- but for the message that it is being sent, or that waits for the lock -/
  received : s.hub.loop.sawClosed = false →
    (s.hub.client 0).received ++ s.hub.loop.pending 0 ++ s.hub.loop.hand = s.hub.taken
  /-- the auto-approver is ready for the message that it is being sent -/
  sends : s.hub.loop.pending 0 ≠ [] → ∃ h, Hub.step (.send 0) s.hub = some h
  /-- the hub can get the lock, or the `RegisterClient` that holds it can return -/
  locks : s.hub.loop.hand ≠ [] →
    (∃ h, Hub.step .lockHub s.hub = some h) ∨ ∃ h, Hub.step .join s.hub = some h

/-- The condition on a step: see the header. -/
def Prompt (s : State) : Label → Prop
  | .hub .lockHub => s.hub.loop.hand ≠ [] → 0 ∈ s.hub.clients
  | _ => True

instance (s : State) : ∀ a, Decidable (Prompt s a)
  | .hub .lockHub => by unfold Prompt; infer_instance
  | .hub (.readMessage _) | .hub (.readError _) | .hub .push | .hub .closeRx | .hub .take
  | .hub (.send _) | .hub .unlockHub | .hub (.closeFeed _) | .hub (.register ..) | .hub .replay
  | .hub .join | .hub (.unregister _) | .hub (.stopReceiver _) | .checkAgentInfo _ | .listen
  | .connect _ | .runReturns | .register _ => isTrue trivial

/-! ## The invariant -/

/-- The auto-approver has not been added yet. -/
def Waiting (h : Hub.State) : Prop :=
  (h.client 0).called = false ∨ ∃ messages, h.registering = some (0, messages)

/-- The hub, as far as the auto-approver is concerned. -/
structure HubInv (h : Hub.State) : Prop where
  reachable : Hub.pipeline.Reachable h
  accounted : Hub.Accounted h
  /-- nothing was broadcast before the auto-approver was added -/
  waiting : Waiting h → h.broadcast = []
  joined : 0 ∈ h.clients → (h.client 0).joined = 0
  closed : (h.client 0).closed = true → h.loop.sawClosed = true
  noReplay : ∀ c messages, h.registering = some (c, messages) → messages = []

section

variable {h h' : Hub.State} {a : Hub.Label}

/-- Who has been added is so for good. -/
theorem waiting_of_effect (he : Hub.Effect h a h') (hw : Waiting h') : Waiting h := by
  have hcalled : ∀ (c : Nat) (f : Hub.Client → Hub.Client), h'.client = h.update c f →
      (∀ x, x.called = true → (f x).called = true) → (h'.client 0).called = false →
      (h.client 0).called = false := by
    intro c f hclient hf hc
    rw [hclient] at hc
    cases hx : (h.client 0).called with
    | false => rfl
    | true => exact absurd (hc.symm.trans (Hub.called_update hf hx)) (by simp)
  cases he with
  | panics | readMessage | reconnected | gaveUp | pushed | rxClosed | took | ended | locked
    | cleaning | unlocked | stopped | unknown => exact hw
  | sent | dropped | receiverStopped => exact hw.imp_left (hcalled _ _ rfl fun _ => id)
  | @registering c messages _ hnew =>
    rcases hw with hw | ⟨messages, hr⟩
    · exact Or.inl (hcalled _ _ rfl (fun _ _ => rfl) hw)
    · cases hr
      exact Or.inl hnew
  | @replayed c m messages hreg =>
    rcases hw with hw | ⟨messages, hr⟩
    · exact Or.inl (hcalled _ _ rfl (fun _ => id) hw)
    · cases hr
      exact Or.inr ⟨_, hreg⟩
  | joined =>
    rcases hw with hw | ⟨messages, hr⟩
    · exact Or.inl (hcalled _ _ rfl (fun _ => id) hw)
    · cases hr

/-- The hub loop does not begin again. -/
theorem sawClosed_of_effect (he : Hub.Effect h a h') (hs : h.loop.sawClosed = true) :
    h'.loop.sawClosed = true := by
  cases he with
  | took hloop | ended hloop | locked hloop | sent hloop | unlocked hloop =>
    rw [hloop] at hs
    cases hs
  | cleaning | stopped => rfl
  | _ => exact hs

theorem HubInv.not_waiting (hi : HubInv h) (hmem : 0 ∈ h.clients) : ¬ Waiting h := by
  obtain ⟨-, -, hc⟩ := Hub.reachable_inv hi.reachable
  obtain ⟨-, hcalled⟩ := (hc.clients 0).registered hmem
  rintro (hw | hr)
  · exact absurd (hw.symm.trans hcalled) (by simp)
  · exact ((hc.clients 0).registering hr).1 hmem

/-- The auto-approver is added before the first broadcast. -/
theorem HubInv.joined_of_effect (hi : HubInv h) (he : Hub.Effect h a h') (hmem : 0 ∈ h'.clients) :
    (h'.client 0).joined = 0 := by
  have hkeep : ∀ (c : Nat) (f : Hub.Client → Hub.Client), h'.client = h.update c f →
      (∀ x, (f x).joined = x.joined) → (h'.client 0).joined = (h.client 0).joined := by
    intro c f hclient hf
    rw [hclient]
    exact Hub.update_rel (fun x y => y.joined = x.joined) (fun _ => rfl) hf 0
  cases he with
  | sent | registering | replayed | receiverStopped =>
    exact (hkeep _ _ rfl fun _ => rfl).trans (hi.joined hmem)
  | dropped =>
    exact (hkeep _ _ rfl fun _ => rfl).trans (hi.joined (Finset.mem_of_mem_erase hmem))
  | @joined c hr =>
    show (h.update c _ 0).joined = 0
    by_cases h0 : 0 = c
    · subst h0
      rw [Hub.update_self]
      show h.broadcast.length = 0
      rw [hi.waiting (Or.inr ⟨[], hr⟩), List.length_nil]
    · rw [Hub.update_of_ne h0]
      exact hi.joined ((Finset.mem_insert.mp hmem).resolve_left h0)
  | _ => exact hi.joined hmem

/-- The step lemma for the hub. -/
theorem HubInv.step (hi : HubInv h) (hs : Hub.step a h = some h')
    (hlock : a = .lockHub → h.loop.hand ≠ [] → 0 ∈ h.clients) (hun : a ≠ .unregister 0)
    (hreg : ∀ c messages, a = .register c messages → messages = []) : HubInv h' := by
  obtain ⟨-, -, hc⟩ := Hub.reachable_inv hi.reachable
  have he := Hub.step_effect hs
  refine ⟨.step hi.reachable trivial hs, hi.accounted.effect hc he, fun hw => ?_,
    hi.joined_of_effect he, fun hclosed => sawClosed_of_effect he ?_, fun c messages hr => ?_⟩
  · -- a broadcast needs the auto-approver added, so it is no longer waited for
    have hold := waiting_of_effect he hw
    cases he with
    | @locked m hloop =>
      exact absurd hold (hi.not_waiting (hlock rfl (by rw [hloop]; simp [Hub.Loop.hand])))
    | _ => exact hi.waiting hold
  · rcases Hub.closed_of_step hs hclosed with hold | hold | hold
    · exact hi.closed hold
    · exact absurd hold hun
    · rw [hold]
      rfl
  · cases he with
    | registering =>
      cases hr
      exact hreg _ _ rfl
    | replayed hold => exact absurd (hi.noReplay _ _ hold) (List.cons_ne_nil _ _)
    | joined => cases hr
    | _ => exact hi.noReplay c messages hr

/-- The auto-approver has received every broadcast but the one that it is being sent. -/
theorem HubInv.received (hi : HubInv h) (hrun : h.loop.sawClosed = false) :
    (h.client 0).received ++ h.loop.pending 0 = h.broadcast := by
  obtain ⟨-, -, hc⟩ := Hub.reachable_inv hi.reachable
  have hx := hc.clients 0
  cases hcalled : (h.client 0).called with
  | false =>
    have hmem : 0 ∉ h.clients := fun hmem => hi.not_waiting hmem (Or.inl hcalled)
    rw [(hx.fresh hcalled).2, hc.pending_of_notMem hmem, hi.waiting (Or.inl hcalled),
      List.nil_append]
  | true =>
    rcases hi.accounted 0 hcalled with hmem | hr | hclosed
    · rw [(hx.history hmem).2, hi.joined hmem, List.drop_zero]
    · obtain ⟨hmem, -, -, hnil⟩ := hx.registering hr
      rw [hnil, hc.pending_of_notMem hmem, hi.waiting (Or.inr hr), List.nil_append]
    · exact absurd (hrun.symm.trans (hi.closed hclosed)) (by simp)

theorem HubInv.delivered (hi : HubInv h) (start : Start) : Delivered ⟨h, start⟩ := by
  obtain ⟨-, hf, hc⟩ := Hub.reachable_inv hi.reachable
  refine ⟨fun hrun => ?_, fun hpending => ?_, fun hhand => ?_⟩
  · rw [hi.received hrun, hf.taken]
  · show ∃ h', Hub.step (.send 0) h = some h'
    cases hl : h.loop with
    | sending m todo =>
      have h0 : 0 ∈ todo := by
        by_contra h0
        exact hpending ((congrArg (Hub.Loop.pending 0) hl).trans (if_neg h0))
      obtain ⟨hopen, -⟩ := (hc.clients 0).registered (hc.todo m todo hl h0)
      have hruns := (hc.clients 0).running hopen
      simp [Hub.step, hl, h0, hopen, hruns]
    | _ => exact absurd (congrArg (Hub.Loop.pending 0) hl) hpending
  · show (∃ h', Hub.step .lockHub h = some h') ∨ ∃ h', Hub.step .join h = some h'
    cases hl : h.loop with
    | holding m =>
      cases hr : h.registering with
      | none =>
        left
        simp [Hub.step, hl, Hub.State.lockFree, hr, Hub.Loop.locks]
      | some x =>
        obtain ⟨c, messages⟩ := x
        obtain rfl := hi.noReplay c messages hr
        right
        simp [Hub.step, hr]
    | _ => exact absurd (congrArg Hub.Loop.hand hl) hhand

end

/-! ## Runs -/

/-- The step lemma. -/
theorem hubInv_step {s s' : State} {a : Label} (hi : HubInv s.hub) (hp : Prompt s a)
    (hs : step a s = some s') : HubInv s'.hub := by
  cases a with
  | hub b =>
    simp only [step] at hs
    split at hs
    · rename_i hothers
      rw [Bool.and_eq_true] at hothers
      obtain ⟨h, hh, rfl⟩ := Option.map_eq_some_iff.mp hs
      refine hi.step hh ?_ ?_ ?_
      · intro hb
        cases b with
        | lockHub => exact hp
        | _ => cases hb
      · intro hb
        cases b with
        | unregister c =>
          cases hb
          exact absurd hothers.2 (by decide)
        | _ => cases hb
      · intro c messages hb
        cases b with
        | register d ms =>
          cases hb
          rfl
        | _ => cases hb
    · cases hs
  | register messages =>
    simp only [step] at hs
    split at hs
    · obtain ⟨h, hh, rfl⟩ := Option.map_eq_some_iff.mp hs
      refine hi.step hh nofun nofun fun c ms hb => ?_
      cases hb
      rfl
    · cases hs
  | checkAgentInfo | listen | connect | runReturns =>
    simp only [step] at hs
    split at hs
    · cases hs
      exact hi
    · cases hs

theorem hubInv_of_reachableBy {s : State} (hr : starting.ReachableBy Prompt s) : HubInv s.hub := by
  refine hr.invariant (I := fun s => HubInv s.hub) ?_ fun s a s' hi hp hs => hubInv_step hi hp hs
  rintro s rfl
  exact ⟨.init rfl, nofun, fun _ => rfl, nofun, nofun, nofun⟩

/-- The message for which the hub gets the lock too early is lost. -/
theorem not_delivered_of_not_prompt {s s' : State} {a : Label} (hd : Delivered s)
    (hp : ¬ Prompt s a) (hs : step a s = some s') : ¬ Delivered s' := by
  intro hd'
  unfold Prompt at hp
  split at hp
  · rw [Classical.not_imp] at hp
    obtain ⟨hhand, hmem⟩ := hp
    simp only [step] at hs
    split at hs
    · obtain ⟨h, hh, rfl⟩ := Option.map_eq_some_iff.mp hs
      simp only [noCache, Hub.step] at hh
      split at hh
      · rename_i m hloop
        split at hh
        · cases hh
          have hbefore := hd.received (by rw [hloop]; rfl)
          have hafter : (s.hub.client 0).received ++
              (Hub.Loop.sending m s.hub.clients).pending 0 ++ [] = s.hub.taken := hd'.received rfl
          have hnot : (Hub.Loop.sending m s.hub.clients).pending 0 = [] := if_neg hmem
          rw [hnot, ← hbefore, hloop] at hafter
          simp [Hub.Loop.pending, Hub.Loop.hand] at hafter
        · cases hh
      · rename_i hloop
        exact hhand (by rw [hloop]; rfl)
      · cases hh
    · cases hs
  · exact hp trivial

/-- **The auto-approver misses no message** in a run whose steps all meet `Prompt`, and it does with
the first step that does not. -/
theorem misses_no_message {s : State} (hr : starting.ReachableBy Prompt s) :
    Delivered s ∧ ∀ a s', step a s = some s' → (Delivered s' ↔ Prompt s a) := by
  have hd : Delivered s := (hubInv_of_reachableBy hr).delivered s.start
  refine ⟨hd, fun a s' hs => ⟨fun hd' => ?_, fun hp => ?_⟩⟩
  · by_contra hp
    exact not_delivered_of_not_prompt hd hp hs hd'
  · exact (hubInv_of_reachableBy (.step hr hp hs)).delivered s'.start

/-- A message is taken before the auto-approver is added, and broadcast after. -/
theorem misses_no_message_sample :
    ∃ s, starting.ReachableBy Prompt s ∧ Delivered s ∧ s.hub.taken = [[1]] ∧
      (s.hub.client 0).received = [[1]] := by
  obtain ⟨s, hr, hs⟩ := System.exists_reachableBy (M := starting) (G := Prompt)
    (g := fun s a => decide (Prompt s a)) (fun _ _ => of_decide_eq_true)
    (s := ⟨Hub.start, .called⟩) rfl
    [.checkAgentInfo true, .listen, .connect true, .hub (.readMessage [1]), .hub .push, .hub .take,
      .runReturns, .register [[7]], .hub .join, .hub .lockHub, .hub (.send 0), .hub .unlockHub]
    (fun s => decide (s.hub.taken = [[1]]) && decide ((s.hub.client 0).received = [[1]]))
    (by decide +kernel)
  simp only [Bool.and_eq_true, decide_eq_true_eq] at hs
  exact ⟨s, hr, (misses_no_message hr).1, hs.1, hs.2⟩

/-- **A message is lost.** The hub takes a message and broadcasts it, to nobody, while `Start` is
still in `Run`; then the auto-approver is registered, and nothing is replayed. -/
theorem message_lost : ¬ ∀ s, starting.Reachable s → Delivered s := by
  intro hall
  obtain ⟨s, hr, hs⟩ := System.exists_reachable (M := starting) (s := ⟨Hub.start, .called⟩) rfl
    [.checkAgentInfo true, .listen, .connect true, .hub (.readMessage [1]), .hub .push, .hub .take,
      .hub .lockHub, .hub .unlockHub, .runReturns, .register [[1]], .hub .join]
    (fun s => decide (s.hub.loop = .receiving) && decide (s.hub.taken = [[1]]) &&
      decide ((s.hub.client 0).received = [])) (by decide +kernel)
  simp only [Bool.and_eq_true, decide_eq_true_eq] at hs
  obtain ⟨⟨hloop, htaken⟩, hreceived⟩ := hs
  have h := (hall s hr).received (by rw [hloop]; rfl)
  rw [hloop, htaken, hreceived] at h
  exact absurd h (by decide)

end SigningAgent.Startup
