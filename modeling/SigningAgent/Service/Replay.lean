import SigningAgent.Action.Handlers
import SigningAgent.Message.Cache

/-!
# Is a handled action replayed?

Agents with load balancing and without auto-approval share one `distributedCache`. Each agent's hub
broadcasts every message of the feed once, at its own time, and adds it to the cache; a successful
`Approve` or `Reject` removes it, on whatever agent; a `RegisterClient` on any agent sends the new
client what is in the cache.

* `feed` is what the backend sends to all agents, `position agent` how much of it the agent has
  broadcast.
* The handlers are those of `Handlers.lean`, with the `RemoveMessage` in the step of the successful
  signer call. Mutexes and messages share the key space: a cached message takes its key (`blocked`,
  `giveUp`), and `AddMessage` overwrites what is under it.
* `RegisterClient` holds the lock of its agent's hub; its SCAN and the reads after it are separate
  steps (`get`), of any keys in any order. A client records the log of when it was called.

Between a `RemoveMessage` on one agent and the `AddMessage` of the same message on another there is
no order, and `AddMessage` does not look whether the action has been handled, so the message may
come back (`replayed_after_return`). `Ordered` is the condition on a step: nothing is added for an
action whose message has been removed.

**`not_replayed`**: in every run whose steps all meet `Ordered`, no client receives a cached message
of an action that was handled before it registered.
-/

namespace SigningAgent.Replay

open Transition
open SigningAgent.Action SigningAgent.Message

/-- Load balancing, with a message cache. -/
def config : Config := ⟨true, true⟩

/-- A client, which registers or has registered with an agent. -/
structure Client where
  agent : Nat
  /-- the log of the handlers when `RegisterClient` got the lock -/
  since : List Event
  /-- the cached messages -/
  received : List Bytes
  deriving DecidableEq

structure State where
  now : Nat
  feed : List Bytes
  position : Nat → Nat
  act : Action.State
  store : KVStore
  clients : List Client
  /-- the client whose `RegisterClient` holds the lock of the agent's hub -/
  registering : Nat → Option Nat

inductive Label where
  | publish (m : Bytes)
  | broadcast (agent : Nat)
  | register (agent : Nat)
  | get (c : Nat) (key : String)
  | finish (c : Nat)
  | act (a : Action.Label)
  | giveUp (h : Nat)
  | advance (seconds : Nat)
  deriving DecidableEq

/-- The name of the mutex that handler `h` waits for is the key of a cached message. -/
def blocked (h : Nat) (s : State) : Bool :=
  match s.act.handlers[h]?.map Handler.phase with
  | some (.waiting m) =>
    s.act.sync.mutexes[m]?.any fun x => (Expiring.get (instant s.now) x.name s.store).isSome
  | _ => false

/-- The entry under the key of a message that is stored goes. -/
def overwrite (j : Json) (now : Nat) (m : Bytes) (s : Action.State) : Action.State :=
  match j.info m with
  | none => s
  | some i =>
    if 0 < i.getExpiration now then { s with sync := s.sync.removeMessage i.id } else s

/-- The cache after a step of a handler: `act` removes the message after a successful call. -/
def afterAct (a : Action.Label) (s : State) : KVStore :=
  match a with
  | .move h (.sign .ok) =>
    match s.act.handlers[h]? with
    | some c => if c.caller != .message then s.store.removeMessage c.actionID else s.store
    | none => s.store
  | _ => s.store

def step (j : Json) : Label → State → Option State
  | .publish m, s => some { s with feed := s.feed ++ [m] }
  | .broadcast agent, s =>
    match s.registering agent, s.feed[s.position agent]? with
    | none, some m => some { s with
        position := Function.update s.position agent (s.position agent + 1)
        act := overwrite j s.now m s.act
        store := s.store.addMessage j s.now m }
    | _, _ => none
  | .register agent, s =>
    match s.registering agent with
    | none => some { s with
        clients := s.clients ++ [⟨agent, s.act.log, []⟩]
        registering := Function.update s.registering agent (some s.clients.length) }
    | some _ => none
  | .get c key, s =>
    match s.clients[c]? with
    | some x =>
      if s.registering x.agent = some c then
        let read := (Expiring.get (instant s.now) key s.store).toList
        some { s with clients := s.clients.set c { x with received := x.received ++ read } }
      else none
    | none => none
  | .finish c, s =>
    match s.clients[c]? with
    | some x =>
      if s.registering x.agent = some c then
        some { s with registering := Function.update s.registering x.agent none }
      else none
    | none => none
  | .act (.move h (.lock true)), s =>
    if blocked h s then none
    else (Action.step config (.move h (.lock true)) s.act).map fun y => { s with act := y }
  | .act a, s =>
    (Action.step config a s.act).map fun y => { s with act := y, store := afterAct a s }
  | .giveUp h, s =>
    match s.act.handlers[h]? with
    | some c => if blocked h s then some { s with act := s.act.ret h c false } else none
    | none => none
  | .advance n, s => some { s with now := s.now + n }

/-- All interleavings of the agents' hubs, registrations and handlers. -/
def sharing (j : Json) : System State Label where
  init s := s.feed = [] ∧ s.position = (fun _ => 0) ∧ s.act = start ∧ s.store = ∅ ∧
    s.clients = [] ∧ s.registering = fun _ => none
  step := step j

/-- The event of a successful `Approve` or `Reject`, which removes the message. -/
def removes (actionID : String) : Event → Bool
  | .signed _ caller x ok => caller != .message && x == actionID && ok
  | _ => false

/-- The message of the action has been removed. -/
def Removed (actionID : String) (log : List Event) : Prop := log.any (removes actionID) = true

instance (actionID : String) (log : List Event) : Decidable (Removed actionID log) :=
  inferInstanceAs (Decidable (_ = true))

/-- An `Approve` or `Reject` of the action has returned nil after its signer call succeeded. -/
def Handled (actionID : String) (log : List Event) : Prop :=
  ∃ h caller, caller ≠ .message ∧ .signed h caller actionID true ∈ log ∧
    .returned h caller actionID true ∈ log

/-- The condition on a step: see the header. -/
def Ordered (j : Json) (s : State) : Label → Prop
  | .broadcast agent => ∀ m ∈ s.feed[s.position agent]?, ∀ i ∈ j.info m,
      0 < i.getExpiration s.now → ¬ Removed i.id s.act.log
  | _ => True

instance (j : Json) (s : State) : ∀ a, Decidable (Ordered j s a)
  | .broadcast _ => by unfold Ordered; infer_instance
  | .publish _ | .register _ | .get .. | .finish _ | .act _ | .giveUp _ | .advance _ =>
    isTrue trivial

theorem Handled.removed {actionID : String} {log : List Event} (h : Handled actionID log) :
    Removed actionID log := by
  obtain ⟨g, caller, hcaller, hsigned, -⟩ := h
  refine List.any_eq_true.mpr ⟨_, hsigned, ?_⟩
  simpa [removes] using hcaller

theorem Removed.of_suffix {actionID : String} {log log' : List Event} (h : Removed actionID log)
    (hs : log <:+ log') : Removed actionID log' := by
  obtain ⟨e, he, hr⟩ := List.any_eq_true.mp h
  exact List.any_eq_true.mpr ⟨e, hs.subset he, hr⟩

/-! ## The invariant -/

/-- A cached message is under the key of its ID, nothing is cached whose message has been removed,
and what a client has received had not been removed when it registered. -/
structure Inv (j : Json) (s : State) : Prop where
  keyed : ∀ k x, s.store.lookup k = some x → ∃ i, j.info x.1 = some i ∧ k = messageKey i.id
  gone : ∀ actionID, Removed actionID s.act.log → messageKey actionID ∉ s.store
  clients : ∀ x ∈ s.clients, x.since <:+ s.act.log ∧
    ∀ m ∈ x.received, ∃ i, j.info m = some i ∧ ¬ Removed i.id x.since

section

variable {j : Json} {s s' : State} {store : KVStore} {y : Action.State}

/-- The handlers go on, and the cache loses what they have removed. -/
theorem Inv.of_act (hi : Inv j s) (hlog : s.act.log <:+ y.log)
    (hstore : ∀ k x, store.lookup k = some x → s.store.lookup k = some x)
    (hgone : ∀ actionID, Removed actionID y.log →
      Removed actionID s.act.log ∨ messageKey actionID ∉ store) :
    Inv j { s with act := y, store := store } := by
  refine ⟨fun k x hx => hi.keyed k x (hstore k x hx), fun actionID hr => ?_, fun x hx => ?_⟩
  · rcases hgone actionID hr with hr | hnot
    · intro hmem
      obtain ⟨x, hx⟩ := Finmap.mem_iff.mp hmem
      exact hi.gone actionID hr (Finmap.mem_of_lookup_eq_some (hstore _ x hx))
    · exact hnot
  · obtain ⟨hsince, hreceived⟩ := hi.clients x hx
    exact ⟨hsince.trans hlog, hreceived⟩

/-- `afterAct` deletes, if anything. -/
theorem lookup_afterAct {a : Action.Label} {k : String} {x : Bytes × Int}
    (hx : (afterAct a s).lookup k = some x) : s.store.lookup k = some x := by
  unfold afterAct at hx
  split at hx
  · split at hx
    · rename_i c _
      split at hx
      · by_cases hk : k = messageKey c.actionID
        · subst hk
          simp [KVStore.removeMessage, Expiring.del] at hx
        · exact (Finmap.lookup_erase_ne hk).symm.trans hx
      · exact hx
    · exact hx
  · exact hx

/-- A step of a handler, with the `RemoveMessage` of a successful call. -/
theorem Inv.act (hi : Inv j s) {a : Action.Label} (hs : Action.step config a s.act = some y) :
    Inv j { s with act := y, store := afterAct a s } := by
  obtain ⟨new, hlog, hnew⟩ := step_log rfl hs
  refine hi.of_act (hlog ▸ List.suffix_append ..) (fun k x hx => lookup_afterAct hx)
    fun actionID hr => ?_
  rw [hlog, Removed, List.any_append, Bool.or_eq_true] at hr
  rcases hr with hr | hr
  · -- the success is that of this step, which deletes the message
    obtain ⟨e, he, hremoves⟩ := List.any_eq_true.mp hr
    cases e with
    | signed h caller x ok =>
      simp only [removes, Bool.and_eq_true, bne_iff_ne, beq_iff_eq] at hremoves
      obtain ⟨⟨hcaller, rfl⟩, rfl⟩ := hremoves
      obtain ⟨rfl, c, hc, rfl, rfl⟩ := hnew h caller _ he
      refine Or.inr ?_
      simp [afterAct, hc, hcaller, KVStore.removeMessage, Expiring.del]
    | expired key => cases hremoves
    | returned h caller x ok => cases hremoves
  · exact Or.inl hr

/-- `Lock` takes no message away. -/
theorem Inv.lock (hi : Inv j s) {h : Nat}
    (hs : Action.step config (.move h (.lock true)) s.act = some y) :
    Inv j { s with act := y } := hi.act hs

/-- A broadcast of a message that has not been removed. -/
theorem Inv.broadcast (hi : Inv j s) {agent : Nat} {m : Bytes}
    (hm : s.feed[s.position agent]? = some m) (hg : Ordered j s (.broadcast agent))
    (position : Nat → Nat) :
    Inv j { s with
      position := position
      act := overwrite j s.now m s.act
      store := s.store.addMessage j s.now m } := by
  have hlog : (overwrite j s.now m s.act).log = s.act.log := by
    unfold overwrite
    split
    · rfl
    · split <;> rfl
  have hclients : ∀ x ∈ s.clients, x.since <:+ (overwrite j s.now m s.act).log ∧
      ∀ m ∈ x.received, ∃ i, j.info m = some i ∧ ¬ Removed i.id x.since := by
    rw [hlog]
    exact hi.clients
  unfold KVStore.addMessage
  cases hinfo : j.info m with
  | none => exact ⟨hi.keyed, fun x hr => hi.gone x (hlog ▸ hr), hclients⟩
  | some i =>
    by_cases hpos : 0 < i.getExpiration s.now
    · simp only [hpos, if_true]
      refine ⟨fun k x hx => ?_, fun actionID hr hmem => ?_, hclients⟩
      · by_cases hk : k = messageKey i.id
        · subst hk
          simp only [Expiring.set, Finmap.lookup_insert, Option.some.injEq] at hx
          subst hx
          exact ⟨i, hinfo, rfl⟩
        · exact hi.keyed k x ((Finmap.lookup_insert_of_ne _ hk).symm.trans hx)
      · rcases Finmap.mem_insert.mp hmem with hk | hmem
        · obtain rfl := messageKey_inj hk
          exact hg m hm i hinfo hpos (hlog ▸ hr)
        · exact hi.gone actionID (hlog ▸ hr) hmem
    · simp only [hpos, if_false]
      exact ⟨hi.keyed, fun x hr => hi.gone x (hlog ▸ hr), hclients⟩

/-- A client reads a key. -/
theorem Inv.get (hi : Inv j s) {c : Nat} {x : Client} (hx : s.clients[c]? = some x)
    (key : String) :
    Inv j { s with clients := s.clients.set c { x with
      received := x.received ++ (Expiring.get (instant s.now) key s.store).toList } } := by
  refine ⟨hi.keyed, hi.gone, fun y hy => ?_⟩
  rcases List.mem_or_eq_of_mem_set hy with hy | rfl
  · exact hi.clients y hy
  · obtain ⟨hsince, hreceived⟩ := hi.clients x (List.mem_of_getElem? hx)
    refine ⟨hsince, fun m hm => ?_⟩
    rcases List.mem_append.mp hm with hm | hm
    · exact hreceived m hm
    · obtain ⟨d, hlookup, -⟩ := Expiring.get_eq_some.mp (Option.mem_toList.mp hm)
      obtain ⟨i, hinfo, rfl⟩ := hi.keyed key _ hlookup
      exact ⟨i, hinfo, fun hr =>
        hi.gone i.id (hr.of_suffix hsince) (Finmap.mem_of_lookup_eq_some hlookup)⟩

/-- The step lemma. -/
theorem Inv.step (hi : Inv j s) {a : Label} (hg : Ordered j s a) (hs : step j a s = some s') :
    Inv j s' := by
  unfold Replay.step at hs
  split at hs
  · cases hs
    exact ⟨hi.keyed, hi.gone, hi.clients⟩
  · split at hs
    · rename_i m _ hm
      cases hs
      exact hi.broadcast hm hg _
    · cases hs
  · split at hs
    · cases hs
      refine ⟨hi.keyed, hi.gone, fun x hx => ?_⟩
      rcases List.mem_append.mp hx with hx | hx
      · exact hi.clients x hx
      · rw [List.mem_singleton.mp hx]
        exact ⟨List.suffix_refl _, by simp⟩
    · cases hs
  · split at hs
    · rename_i x hx
      split at hs
      · cases hs
        exact hi.get hx _
      · cases hs
    · cases hs
  · split at hs
    · split at hs
      · cases hs
        exact ⟨hi.keyed, hi.gone, hi.clients⟩
      · cases hs
    · cases hs
  · split at hs
    · cases hs
    · obtain ⟨y, hy, rfl⟩ := Option.map_eq_some_iff.mp hs
      exact hi.lock hy
  · obtain ⟨y, hy, rfl⟩ := Option.map_eq_some_iff.mp hs
    exact hi.act hy
  · split at hs
    · rename_i c _
      split at hs
      · cases hs
        refine hi.of_act (List.suffix_cons ..) (fun _ _ hx => hx) fun actionID hr => Or.inl ?_
        simpa [Removed, State.ret, State.emit, State.goto, removes] using hr
      · cases hs
    · cases hs
  · cases hs
    exact ⟨hi.keyed, hi.gone, hi.clients⟩

end

/-- **A handled action is not replayed**, in every run whose steps all meet `Ordered`. -/
theorem not_replayed {j : Json} {s : State} (hr : (sharing j).ReachableBy (Ordered j) s) :
    ∀ x ∈ s.clients, ∀ m ∈ x.received, ∀ i ∈ j.info m, ¬ Handled i.id x.since := by
  have hi : Inv j s := by
    refine hr.invariant ?_ fun s a s' hi hg hs => hi.step hg hs
    rintro s ⟨-, -, hact, hstore, hclients, -⟩
    refine ⟨fun k x hx => ?_, fun actionID hr => ?_, fun x hx => ?_⟩
    · simp [hstore] at hx
    · rw [hact] at hr
      cases hr
    · rw [hclients] at hx
      cases hx
  intro x hx m hm i hinfo hhandled
  obtain ⟨i', hinfo', hnot⟩ := (hi.clients x hx).2 m hm
  rw [hinfo'] at hinfo
  cases hinfo
  exact hnot hhandled.removed

/-- An `Approve` of `"a"` by agent `agent`, which is handler 0, until it has returned nil. -/
def approveA (agent : Nat) : List Label :=
  [.act (.enter agent .approve "a"), .act (.move 0 .check), .act (.move 0 .acquire),
    .act (.move 0 (.lock true)), .act (.move 0 (.sign .ok)), .act (.move 0 .unlock),
    .act (.move 0 .mark)]

/-- Two agents broadcast two actions, one handles `"a"`; a client of the other one gets `"b"`. -/
theorem not_replayed_sample :
    ∃ s, (sharing sampleJson).ReachableBy (Ordered sampleJson) s ∧
      ∃ x ∈ s.clients, x.received = [sampleB] ∧ Handled "a" x.since ∧
        ∀ m ∈ x.received, ∀ i ∈ sampleJson.info m, ¬ Handled i.id x.since := by
  obtain ⟨s, hr, hs⟩ := System.exists_reachableBy (M := sharing sampleJson)
    (G := Ordered sampleJson) (g := fun s a => decide (Ordered sampleJson s a))
    (fun _ _ => of_decide_eq_true)
    (s := ⟨7, [], fun _ => 0, start, ∅, [], fun _ => none⟩) ⟨rfl, rfl, rfl, rfl, rfl, rfl⟩
    ([.publish sampleA, .publish sampleB, .broadcast 0, .broadcast 1, .broadcast 1] ++
      approveA 1 ++ [.broadcast 0, .register 0, .get 0 "transaction:a", .get 0 "transaction:b"])
    (fun s => decide (s.clients = [⟨0, [.returned 0 .approve "a" true,
      .signed 0 .approve "a" true], [sampleB]⟩])) (by decide +kernel)
  have hall := not_replayed hr
  rw [of_decide_eq_true hs] at hall
  refine ⟨s, hr, _, by rw [of_decide_eq_true hs]; exact List.mem_singleton_self _, rfl, ?_,
    hall _ (List.mem_singleton_self _)⟩
  exact ⟨0, .approve, by decide, by simp, by simp⟩

/-- **Replayed.** Agent 1 broadcasts the action and handles it; then agent 0 broadcasts it, and a
client that registers with agent 0 gets it from the cache. -/
theorem replayed_after_return :
    ¬ ∀ (j : Json) (s : State), (sharing j).Reachable s →
      ∀ x ∈ s.clients, ∀ m ∈ x.received, ∀ i ∈ j.info m, ¬ Handled i.id x.since := by
  intro hall
  obtain ⟨s, hr, hs⟩ := System.exists_reachable (M := sharing sampleJson)
    (s := ⟨7, [], fun _ => 0, start, ∅, [], fun _ => none⟩) ⟨rfl, rfl, rfl, rfl, rfl, rfl⟩
    ([.publish sampleA, .broadcast 1] ++ approveA 1 ++
      [.broadcast 0, .register 0, .get 0 "transaction:a"])
    (fun s => decide (s.clients = [⟨0, [.returned 0 .approve "a" true,
      .signed 0 .approve "a" true], [sampleA]⟩])) (by decide +kernel)
  have h := hall sampleJson s hr
  rw [of_decide_eq_true hs] at h
  refine h _ (List.mem_singleton_self _) sampleA (List.mem_singleton_self _) ⟨"a", 100⟩ rfl ?_
  exact ⟨0, .approve, by decide, by simp, by simp⟩

end SigningAgent.Replay
