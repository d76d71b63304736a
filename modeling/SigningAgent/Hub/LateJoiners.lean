import SigningAgent.Hub.FeedSafety
import SigningAgent.Message.Cache

/-!
# Late joiners

The hub with a `localCache`. Under the lock that it broadcasts with, the hub adds the message to the
cache; under the same lock `RegisterClient` reads the cache and sends what it returns to the new
client. `RemoveMessage` comes from the action service at any time, under the lock of the cache only.
The clock never goes back.

* `AddMessage` is in the step in which the hub gets the lock, `GetMessages` in the one in which
  `RegisterClient` does: while they hold it, a `RemoveMessage` or a tick before the cache is used
  could as well have come before the lock.
* `log` records, newest first, the broadcasts with their times and the removals; a client's
  `Snapshot` is what its `RegisterClient` found.
* `lastMessage id` is the specification: the last message for `id` that was not expired when it was
  broadcast, unless it has been removed since.

Result:
* **`late_joiners`**: if no expiration overflows, no `GetMessages` reads a nil `ActionInfo`; every
  client is sent exactly the last messages that are actions and have not expired (`UpToDate`); and
  the broadcasts before its snapshot, with those it has received or is about to, are all broadcasts.
-/

namespace SigningAgent.Hub.Cached

open Transition
open SigningAgent.Message

inductive Event where
  | broadcast (m : Bytes) (time : Nat)
  | removed (ID : String)
  deriving DecidableEq

/-- What a `RegisterClient` found: the events until then, the time, and the messages. -/
structure Snapshot where
  log : List Event
  time : Nat
  messages : List Bytes
  deriving DecidableEq

structure State where
  hub : Hub.State
  now : Nat
  cache : LocalCache
  log : List Event
  snapshot : Nat → Option Snapshot
  /-- `GetMessages` has read a nil `ActionInfo` -/
  nilRead : Bool

inductive Label where
  | hub (a : Hub.Label)
  /-- `RegisterClient`, with the order in which Go visits the cache -/
  | register (c : Nat) (order : List String)
  | removeMessage (ID : String)
  | advance (seconds : Nat)
  deriving DecidableEq

/-- The message for which the hub gets the lock. -/
def broadcastOf : Hub.Label → Hub.State → Option Bytes
  | .lockHub, s =>
    match s.loop with
    | .holding m => some m
    | _ => none
  | _, _ => none

/-- A step of the hub to `h`, with the `AddMessage` of a broadcast. -/
def afterHub (j : Json) (a : Hub.Label) (s : State) (h : Hub.State) : State :=
  match broadcastOf a s.hub with
  | some m => { s with
      hub := h
      cache := s.cache.addMessage j s.now m
      log := .broadcast m s.now :: s.log }
  | none => { s with hub := h }

def step (j : Json) : Label → State → Option State
  | .hub (.register ..), _ => none
  | .hub a, s => (Hub.step a s.hub).map (afterHub j a s)
  | .register c order, s =>
    if LocalCache.Visits order s.cache then
      match s.cache.getMessages j s.now order with
      | .ok (cache, messages) =>
        (Hub.step (.register c messages) s.hub).map fun h => { s with
          hub := h
          cache := cache
          snapshot := Function.update s.snapshot c (some ⟨s.log, s.now, messages⟩) }
      | .error _ => (Hub.step (.register c []) s.hub).map fun _ => { s with nilRead := true }
    else none
  | .removeMessage ID, s => some { s with
      cache := s.cache.removeMessage ID
      log := .removed ID :: s.log }
  | .advance n, s => some { s with now := s.now + n }

/-- All interleavings, from an empty cache, at any time. -/
def caching (j : Json) : System State Label where
  init s := s.hub = Hub.start ∧ s.cache = ∅ ∧ s.log = [] ∧ s.snapshot = (fun _ => none) ∧
    s.nilRead = false
  step := step j

/-- The condition on a step: the expiration of a message that is broadcast does not overflow. -/
def NoOverflow (j : Json) (s : State) : Label → Prop
  | .hub a => ∀ m ∈ broadcastOf a s.hub, ∀ i ∈ j.info m, FitsDuration (i.expireTime - s.now)
  | _ => True

instance (j : Json) (s : State) : ∀ a, Decidable (NoOverflow j s a)
  | .hub _ => by unfold NoOverflow; infer_instance
  | .register .. | .removeMessage _ | .advance _ => isTrue trivial

/-! ## The specification -/

/-- The messages broadcast, oldest first. -/
def broadcasts : List Event → List Bytes
  | [] => []
  | .broadcast m _ :: log => broadcasts log ++ [m]
  | .removed _ :: log => broadcasts log

/-- The last message for `id` that was not expired when it was broadcast, unless removed since. -/
def lastMessage (j : Json) (id : String) : List Event → Option Bytes
  | [] => none
  | .broadcast m time :: log =>
    match j.info m with
    | some i => if i.id = id ∧ (time : Int) < i.expireTime then some m else lastMessage j id log
    | none => lastMessage j id log
  | .removed ID :: log => if ID = id then none else lastMessage j id log

/-- An `ActionInfo` that has not expired at the time `now`. -/
def Live (j : Json) (now : Nat) (m : Bytes) : Prop :=
  ∃ a, j.action m = some (some a) ∧ (now : Int) < a.expireTime

/-- The messages of a snapshot are, once each, the last ones that are live. -/
structure UpToDate (j : Json) (x : Snapshot) : Prop where
  nodup : x.messages.Nodup
  mem : ∀ m, m ∈ x.messages ↔ ∃ id, lastMessage j id x.log = some m ∧ Live j x.time m

/-- What client `c` has received: the messages of its snapshot, and then every broadcast that its
snapshot does not know of. -/
structure Follows (s : State) (c : Nat) (x : Snapshot) : Prop where
  replaying : ∀ rest, s.hub.registering = some (c, rest) →
    (s.hub.client c).replayed ++ rest = x.messages
  replayed : (∀ rest, s.hub.registering ≠ some (c, rest)) →
    (s.hub.client c).replayed = x.messages
  direct : c ∈ s.hub.clients →
    broadcasts x.log ++ ((s.hub.client c).received ++ s.hub.loop.pending c) = s.hub.broadcast

/-! ## The cache and the log -/

section

variable {j : Json} {s : State} {log : List Event} {id : String} {m : Bytes} {now : Nat}

/-- A last message is one for the ID, and is not JSON `null`. -/
theorem lastMessage_info (h : lastMessage j id log = some m) :
    ∃ i, j.info m = some i ∧ i.id = id ∧ 0 < i.expireTime := by
  induction log with
  | nil => cases h
  | cons e log ih =>
    cases e with
    | broadcast m' time =>
      simp only [lastMessage] at h
      split at h
      · rename_i i hi
        split at h
        · rename_i hlast
          cases h
          exact ⟨i, hi, hlast.1, by omega⟩
        · exact ih h
      · exact ih h
    | removed ID =>
      simp only [lastMessage] at h
      split at h
      · cases h
      · exact ih h

/-- The cache has the last messages: those that will be returned, at any time from now on. -/
structure Keeps (j : Json) (s : State) : Prop where
  same : ∀ t, s.now ≤ t → ∀ id m,
    s.cache.valid j t id = some m ↔ lastMessage j id s.log = some m ∧ Live j t m
  stored : ∀ id m, s.cache.lookup id = some m → ∃ i, j.info m = some i ∧ 0 < i.expireTime

theorem Keeps.noNull (h : Keeps j s) : LocalCache.NoNull j s.cache := by
  intro id m hm hnull
  obtain ⟨i, hi, hpos⟩ := h.stored id m hm
  rw [j.null m i hnull hi] at hpos
  exact absurd hpos (by decide)

/-- What the cache returns is up to date. -/
theorem Keeps.upToDate (h : Keeps j s) {order : List String}
    (hv : LocalCache.Visits order s.cache) :
    UpToDate j ⟨s.log, s.now, order.filterMap (s.cache.valid j s.now)⟩ := by
  obtain ⟨hnodup, hkeys⟩ := hv
  have hsame := h.same s.now le_rfl
  constructor
  · -- a message is the last one of one ID only
    refine hnodup.filterMap fun id id' m hm hm' => ?_
    obtain ⟨i, hi, rfl, -⟩ := lastMessage_info ((hsame id m).mp hm).1
    obtain ⟨i', hi', rfl, -⟩ := lastMessage_info ((hsame id' m).mp hm').1
    rw [hi] at hi'
    cases hi'
    rfl
  · intro m
    rw [List.mem_filterMap]
    constructor
    · rintro ⟨id, -, hm⟩
      exact ⟨id, (hsame id m).mp hm⟩
    · rintro ⟨id, hm⟩
      have hvalid := (hsame id m).mpr hm
      have hmem := Finmap.mem_of_lookup_eq_some (LocalCache.valid_eq_some.mp hvalid).1
      rw [← Finmap.mem_keys, ← hkeys, List.mem_toFinset] at hmem
      exact ⟨id, hmem, hvalid⟩

/-- `AddMessage` of a broadcast. -/
theorem Keeps.addMessage (h : Keeps j s) {hub : Hub.State}
    (hfits : ∀ i ∈ j.info m, FitsDuration (i.expireTime - s.now)) :
    Keeps j { s with
      hub := hub
      cache := s.cache.addMessage j s.now m
      log := .broadcast m s.now :: s.log } := by
  unfold LocalCache.addMessage
  cases hi : j.info m with
  | none =>
    refine ⟨fun t ht id m' => ?_, h.stored⟩
    simp only [lastMessage, hi]
    exact h.same t ht id m'
  | some i =>
    have hpos := getExpiration_pos (hfits i hi)
    by_cases hexp : (s.now : Int) < i.expireTime
    · simp only [hpos.mpr hexp, if_true]
      constructor
      · intro t ht id m'
        by_cases hid : i.id = id
        · subst hid
          simp only [lastMessage, hi, hexp, and_self, if_true, LocalCache.valid_eq_some,
            Finmap.lookup_insert]
          exact Iff.rfl
        · have hlookup : (s.cache.insert i.id m).lookup id = s.cache.lookup id :=
            Finmap.lookup_insert_of_ne _ (Ne.symm hid)
          rw [LocalCache.valid_congr hlookup, h.same t ht id m']
          simp only [lastMessage, hi, hid, false_and, if_false]
      · intro id m' hm'
        by_cases hid : id = i.id
        · subst hid
          obtain rfl : m = m' := by simpa using hm'
          exact ⟨i, hi, by omega⟩
        · exact h.stored id m' ((Finmap.lookup_insert_of_ne _ hid).symm.trans hm')
    · simp only [mt hpos.mp hexp, if_false]
      refine ⟨fun t ht id m' => ?_, h.stored⟩
      simp only [lastMessage, hi, hexp, and_false, if_false]
      exact h.same t ht id m'

theorem Keeps.removeMessage (h : Keeps j s) (ID : String) :
    Keeps j { s with
      cache := s.cache.removeMessage ID
      log := .removed ID :: s.log } := by
  constructor
  · intro t ht id m
    by_cases hid : ID = id
    · subst hid
      simp [LocalCache.valid, LocalCache.removeMessage, lastMessage]
    · have hlookup := Finmap.lookup_erase_ne (s := s.cache) (Ne.symm hid)
      rw [LocalCache.removeMessage, LocalCache.valid_congr hlookup, h.same t ht id m]
      simp only [lastMessage, hid, if_false]
  · intro id m hm
    by_cases hid : id = ID
    · subst hid
      simp [LocalCache.removeMessage] at hm
    · exact h.stored id m ((Finmap.lookup_erase_ne hid).symm.trans hm)

/-- `GetMessages` deletes what has expired for good. -/
theorem Keeps.getMessages (h : Keeps j s) {cache : LocalCache} {hub : Hub.State}
    {snapshot : Nat → Option Snapshot} (hc : ∀ k, cache.lookup k = s.cache.valid j s.now k) :
    Keeps j { s with hub := hub, cache := cache, snapshot := snapshot } := by
  constructor
  · intro t (ht : s.now ≤ t) id m
    rw [← h.same t ht id m, LocalCache.valid_eq_some, LocalCache.valid_eq_some, hc]
    constructor
    · rintro ⟨hm, hlive⟩
      exact ⟨(LocalCache.valid_eq_some.mp hm).1, hlive⟩
    · rintro ⟨hm, a, ha, hlt⟩
      exact ⟨LocalCache.valid_eq_some.mpr ⟨hm, a, ha, by omega⟩, a, ha, hlt⟩
  · intro id m hm
    rw [hc] at hm
    exact h.stored id m (LocalCache.valid_eq_some.mp hm).1

end

/-! ## The clients -/

section

variable {j : Json} {s s' : State} {c : Nat} {x : Snapshot}

/-- What a client's replay depends on. -/
structure SameReplay (x y : Client) : Prop where
  called : y.called = x.called
  replayed : y.replayed = x.replayed
  joined : y.joined = x.joined

/-- A step of the hub that neither broadcasts nor registers anybody. -/
structure Quiet (s s' : Hub.State) : Prop where
  broadcast : s'.broadcast = s.broadcast
  registering : s'.registering = s.registering
  clients : ∀ c, SameReplay (s.client c) (s'.client c)

theorem sameReplay_update {h : Hub.State} {c : Nat} {f : Client → Client}
    (hf : ∀ x, SameReplay x (f x)) (d : Nat) : SameReplay (h.client d) (h.update c f d) :=
  update_rel SameReplay (fun _ => ⟨rfl, rfl, rfl⟩) hf d

/-- The snapshot of a client, and how far its registration is. -/
structure SnapshotOk (j : Json) (s : State) (c : Nat) (x : Snapshot) : Prop where
  upToDate : UpToDate j x
  before : x.log <:+ s.log
  replaying : ∀ rest, s.hub.registering = some (c, rest) →
    (s.hub.client c).replayed ++ rest = x.messages ∧ broadcasts x.log = s.hub.broadcast
  replayed : (∀ rest, s.hub.registering ≠ some (c, rest)) →
    (s.hub.client c).replayed = x.messages ∧
      (s.hub.client c).joined ≤ s.hub.broadcast.length ∧
      broadcasts x.log = s.hub.broadcast.take (s.hub.client c).joined

structure Inv (j : Json) (s : State) : Prop where
  hub : pipeline.Reachable s.hub
  keeps : Keeps j s
  noNil : s.nilRead = false
  broadcasts : broadcasts s.log = s.hub.broadcast
  uncalled : ∀ c, (s.hub.client c).called = false → (s.hub.client c).replayed = []
  called : ∀ c, (s.hub.client c).called = true →
    ∃ x, s.snapshot c = some x ∧ SnapshotOk j s c x

theorem Inv.reach (hi : Inv j s) {a : Hub.Label} {h : Hub.State}
    (hs : Hub.step a s.hub = some h) : pipeline.Reachable h :=
  .step hi.hub trivial hs

/-- A client that is being registered has been called for. -/
theorem Inv.registering_called (hi : Inv j s) {rest : List Bytes}
    (h : s.hub.registering = some (c, rest)) : (s.hub.client c).called = true := by
  obtain ⟨-, -, hc⟩ := reachable_inv hi.hub
  exact ((hc.clients c).registering ⟨rest, h⟩).2.2.1

theorem SnapshotOk.quiet (h : SnapshotOk j s c x) {hub : Hub.State} (hq : Quiet s.hub hub) :
    SnapshotOk j { s with hub := hub } c x := by
  obtain ⟨-, hreplayed, hjoined⟩ := hq.clients c
  refine ⟨h.upToDate, h.before, fun rest hr => ?_, fun hr => ?_⟩
  · show (hub.client c).replayed ++ rest = x.messages ∧ _ = hub.broadcast
    rw [hreplayed, hq.broadcast]
    exact h.replaying rest (hq.registering.symm.trans hr)
  · show (hub.client c).replayed = x.messages ∧ (hub.client c).joined ≤ hub.broadcast.length ∧
      _ = hub.broadcast.take (hub.client c).joined
    rw [hreplayed, hjoined, hq.broadcast]
    exact h.replayed fun rest he => hr rest (hq.registering.trans he)

theorem Inv.quiet (hi : Inv j s) {hub : Hub.State} (hh : pipeline.Reachable hub)
    (hq : Quiet s.hub hub) : Inv j { s with hub := hub } := by
  refine ⟨hh, ⟨hi.keeps.same, hi.keeps.stored⟩, hi.noNil, hi.broadcasts.trans hq.broadcast.symm,
    fun c hc => ?_, fun c hc => ?_⟩
  · obtain ⟨hcalled, hreplayed, -⟩ := hq.clients c
    exact hreplayed.trans (hi.uncalled c (hcalled.symm.trans hc))
  · obtain ⟨x, hx, hok⟩ := hi.called c ((hq.clients c).called.symm.trans hc)
    exact ⟨x, hx, hok.quiet hq⟩

/-- The hub gets the lock for a message, which nobody's snapshot knows of. -/
theorem Inv.broadcast (hi : Inv j s) {m : Bytes} {hub : Hub.State}
    (hh : pipeline.Reachable hub) (hreg : s.hub.registering = none)
    (hb : hub.broadcast = s.hub.broadcast ++ [m]) (hr : hub.registering = none)
    (hclient : hub.client = s.hub.client)
    (hfits : ∀ i ∈ j.info m, FitsDuration (i.expireTime - s.now)) :
    Inv j { s with
      hub := hub
      cache := s.cache.addMessage j s.now m
      log := .broadcast m s.now :: s.log } := by
  refine ⟨hh, hi.keeps.addMessage hfits, hi.noNil, ?_, fun c hc => ?_, fun c hc => ?_⟩
  · show Cached.broadcasts s.log ++ [m] = hub.broadcast
    rw [hi.broadcasts, hb]
  · show (hub.client c).replayed = []
    rw [hclient]
    exact hi.uncalled c (hclient ▸ hc)
  · obtain ⟨x, hx, hok⟩ := hi.called c (hclient ▸ hc)
    obtain ⟨hreplayed, hle, htake⟩ := hok.replayed (by simp [hreg])
    refine ⟨x, hx, hok.upToDate, hok.before.trans (List.suffix_cons ..), fun rest he => ?_,
      fun _ => ⟨?_, ?_, ?_⟩⟩
    · exact absurd (hr.symm.trans he) (by simp)
    · show (hub.client c).replayed = x.messages
      rw [hclient]
      exact hreplayed
    · show (hub.client c).joined ≤ hub.broadcast.length
      rw [hclient, hb, List.length_append]
      omega
    · show _ = hub.broadcast.take (hub.client c).joined
      rw [hclient, hb, htake, List.take_append_of_le_length hle]

/-- The steps of a registration concern one client; the snapshots of the others stay. -/
theorem Inv.of_client (hi : Inv j s) {hub : Hub.State} (hh : pipeline.Reachable hub)
    {f : Client → Client} (hclient : hub.client = s.hub.update c f)
    (hb : hub.broadcast = s.hub.broadcast) (hcalled : (s.hub.client c).called = true)
    (hothers : ∀ d, d ≠ c → ∀ rest, hub.registering ≠ some (d, rest) ∧
      s.hub.registering ≠ some (d, rest))
    (hfcalled : (f (s.hub.client c)).called = true)
    (hself : ∀ x, s.snapshot c = some x → SnapshotOk j s c x →
      SnapshotOk j { s with hub := hub } c x) : Inv j { s with hub := hub } := by
  refine ⟨hh, ⟨hi.keeps.same, hi.keeps.stored⟩, hi.noNil, hi.broadcasts.trans hb.symm,
    fun d hd => ?_, fun d hd => ?_⟩
  · have hdc : d ≠ c := by
      rintro rfl
      simp only [hclient, update_self, hfcalled] at hd
      cases hd
    simp only [hclient, update_of_ne hdc] at hd ⊢
    exact hi.uncalled d hd
  · by_cases hdc : d = c
    · subst hdc
      obtain ⟨x, hx, hok⟩ := hi.called d hcalled
      exact ⟨x, hx, hself x hx hok⟩
    · simp only [hclient, update_of_ne hdc] at hd
      obtain ⟨x, hx, hok⟩ := hi.called d hd
      obtain ⟨hreplayed, hle, htake⟩ := hok.replayed fun rest => (hothers d hdc rest).2
      refine ⟨x, hx, hok.upToDate, hok.before, fun rest he => absurd he (hothers d hdc rest).1,
        fun _ => ?_⟩
      simp only [hclient, hb, update_of_ne hdc]
      exact ⟨hreplayed, hle, htake⟩

/-- `RegisterClient` sends one of the messages. -/
theorem Inv.replayed (hi : Inv j s) {m : Bytes} {rest : List Bytes}
    (h : s.hub.registering = some (c, m :: rest))
    (hh : pipeline.Reachable { s.hub with
      client := s.hub.update c (Client.replay m)
      registering := some (c, rest) }) :
    Inv j { s with hub := { s.hub with
      client := s.hub.update c (Client.replay m)
      registering := some (c, rest) } } := by
  have hcalled := hi.registering_called h
  refine hi.of_client hh rfl rfl hcalled (fun d hdc rest' => ⟨?_, ?_⟩) hcalled fun x _ hok => ?_
  · intro he
    cases he
    exact hdc rfl
  · intro he
    rw [h] at he
    cases he
    exact hdc rfl
  · obtain ⟨hmessages, hlog⟩ := hok.replaying _ h
    refine ⟨hok.upToDate, hok.before, fun rest' he => ⟨?_, hlog⟩, fun hne => absurd rfl (hne rest)⟩
    cases he
    show ((s.hub.update c (Client.replay m)) c).replayed ++ rest = x.messages
    rw [update_self, ← hmessages]
    simp [Client.replay]

/-- `RegisterClient` has sent them all and adds the client. -/
theorem Inv.joined (hi : Inv j s) (h : s.hub.registering = some (c, []))
    (hh : pipeline.Reachable { s.hub with
      client := s.hub.update c (Client.join s.hub)
      registering := none
      clients := insert c s.hub.clients }) :
    Inv j { s with hub := { s.hub with
      client := s.hub.update c (Client.join s.hub)
      registering := none
      clients := insert c s.hub.clients } } := by
  have hcalled := hi.registering_called h
  refine hi.of_client hh rfl rfl hcalled (fun d hdc rest => ⟨by simp, ?_⟩) hcalled
    fun x _ hok => ?_
  · intro he
    rw [h] at he
    cases he
    exact hdc rfl
  · obtain ⟨hmessages, hlog⟩ := hok.replaying _ h
    rw [List.append_nil] at hmessages
    refine ⟨hok.upToDate, hok.before, fun rest he => (by cases he), fun _ => ?_⟩
    simp only [update_self]
    refine ⟨hmessages, le_rfl, ?_⟩
    show Cached.broadcasts x.log = s.hub.broadcast.take s.hub.broadcast.length
    rw [hlog, List.take_length]

/-- `RegisterClient` gets the lock and reads the cache. -/
theorem Inv.registering (hi : Inv j s) {cache : LocalCache} {messages : List Bytes}
    (hfree : s.hub.lockFree = true) (hcalled : (s.hub.client c).called = false)
    (hh : pipeline.Reachable { s.hub with
      client := s.hub.update c Client.call
      registering := some (c, messages) })
    (hc : ∀ k, cache.lookup k = s.cache.valid j s.now k)
    (hup : UpToDate j ⟨s.log, s.now, messages⟩) :
    Inv j { s with
      hub := { s.hub with
        client := s.hub.update c Client.call
        registering := some (c, messages) }
      cache := cache
      snapshot := Function.update s.snapshot c (some ⟨s.log, s.now, messages⟩) } := by
  obtain ⟨hreg, -⟩ := lockFree_iff.mp hfree
  refine ⟨hh, hi.keeps.getMessages hc, hi.noNil, hi.broadcasts, fun d hd => ?_, fun d hd => ?_⟩
  · have hdc : d ≠ c := by
      rintro rfl
      simp [update_self, Client.call] at hd
    simp only [update_of_ne hdc] at hd ⊢
    exact hi.uncalled d hd
  · by_cases hdc : d = c
    · subst hdc
      refine ⟨_, Function.update_self .., hup, List.suffix_refl _, fun rest he => ?_,
        fun hne => absurd rfl (hne messages)⟩
      cases he
      simp only [update_self]
      refine ⟨?_, hi.broadcasts⟩
      show (s.hub.client d).replayed ++ messages = messages
      rw [hi.uncalled d hcalled, List.nil_append]
    · simp only [update_of_ne hdc] at hd
      obtain ⟨x, hx, hok⟩ := hi.called d hd
      obtain ⟨hreplayed, hle, htake⟩ := hok.replayed (by simp [hreg])
      refine ⟨x, (Function.update_of_ne hdc ..).trans hx, hok.upToDate, hok.before,
        fun rest he => ?_, fun _ => ?_⟩
      · cases he
        exact absurd rfl hdc
      · simp only [update_of_ne hdc]
        exact ⟨hreplayed, hle, htake⟩

theorem broadcastOf_eq_some {a : Hub.Label} {h : Hub.State} {m : Bytes}
    (hb : broadcastOf a h = some m) : a = .lockHub ∧ h.loop = .holding m := by
  unfold broadcastOf at hb
  split at hb
  · split at hb
    · rename_i hloop
      cases hb
      exact ⟨rfl, hloop⟩
    · cases hb
  · cases hb

/-- A step of the hub. -/
theorem Inv.hubStep (hi : Inv j s) {a : Hub.Label} {h : Hub.State}
    (hs : Hub.step a s.hub = some h) (ha : ∀ c messages, a ≠ .register c messages)
    (hg : NoOverflow j s (.hub a)) : Inv j (afterHub j a s h) := by
  have hh := hi.reach hs
  obtain ⟨-, hf, hc⟩ := reachable_inv hi.hub
  unfold afterHub
  cases hb : broadcastOf a s.hub with
  | some m =>
    obtain ⟨rfl, hloop⟩ := broadcastOf_eq_some hb
    simp only [Hub.step, hloop] at hs
    split at hs
    · rename_i hfree
      cases hs
      have hreg := (lockFree_iff.mp hfree).1
      exact hi.broadcast hh hreg rfl hreg rfl (hg m hb)
    · cases hs
  | none =>
    have he := step_effect hs
    cases he with
    | panics hp => exact absurd hp (not_panics hf hc)
    | locked hloop hreg => simp [broadcastOf, hloop] at hb
    | registering hfree hcalled => exact absurd rfl (ha _ _)
    | replayed hreg => exact hi.replayed hreg hh
    | joined hreg => exact hi.joined hreg hh
    | sent | dropped | receiverStopped =>
      exact hi.quiet hh ⟨rfl, rfl, sameReplay_update fun _ => ⟨rfl, rfl, rfl⟩⟩
    | readMessage | reconnected | gaveUp | pushed | rxClosed | took | ended | cleaning
      | unlocked | stopped | unknown =>
      exact hi.quiet hh ⟨rfl, rfl, fun _ => ⟨rfl, rfl, rfl⟩⟩

/-- The step lemma. -/
theorem Inv.step (hi : Inv j s) {a : Label} (hg : NoOverflow j s a) (hs : step j a s = some s') :
    Inv j s' := by
  unfold Cached.step at hs
  split at hs
  · cases hs
  · rename_i a hnot
    obtain ⟨h, hstep, rfl⟩ := Option.map_eq_some_iff.mp hs
    exact hi.hubStep hstep (fun c messages he => hnot c messages he) hg
  · rename_i c order
    split at hs
    · rename_i hv
      obtain ⟨cache, hget, hlookup⟩ :=
        LocalCache.getMessages_eq s.now hi.keeps.noNull hv
      simp only [hget] at hs
      obtain ⟨h, hstep, rfl⟩ := Option.map_eq_some_iff.mp hs
      have hh := hi.reach hstep
      simp only [Hub.step] at hstep
      split at hstep
      · rename_i hfree
        rw [Bool.and_eq_true, Bool.not_eq_true'] at hfree
        cases hstep
        exact hi.registering hfree.1 hfree.2 hh hlookup (hi.keeps.upToDate hv)
      · cases hstep
    · cases hs
  · cases hs
    refine ⟨hi.hub, hi.keeps.removeMessage _, hi.noNil, hi.broadcasts, hi.uncalled,
      fun c hc => ?_⟩
    obtain ⟨x, hx, hup, hbefore, hreplaying, hreplayed⟩ := hi.called c hc
    exact ⟨x, hx, hup, hbefore.trans (List.suffix_cons ..), hreplaying, hreplayed⟩
  · cases hs
    refine ⟨hi.hub, ⟨fun t ht => ?_, hi.keeps.stored⟩, hi.noNil, hi.broadcasts, hi.uncalled,
      fun c hc => ?_⟩
    · exact hi.keeps.same t (Nat.le_trans (Nat.le_add_right ..) ht)
    · obtain ⟨x, hx, hup, hbefore, hreplaying, hreplayed⟩ := hi.called c hc
      exact ⟨x, hx, hup, hbefore, hreplaying, hreplayed⟩

theorem inv_init (h : (caching j).init s) : Inv j s := by
  obtain ⟨hhub, hcache, hlog, -, hnil⟩ := h
  refine ⟨hhub ▸ .init rfl, ⟨fun t _ id m => ?_, fun id m hm => ?_⟩, hnil, ?_, fun c _ => ?_,
    fun c hc => ?_⟩
  · simp [hcache, hlog, LocalCache.valid, lastMessage]
  · simp [hcache] at hm
  · rw [hlog, hhub]
    rfl
  · rw [hhub]
    rfl
  · rw [hhub] at hc
    cases hc

theorem SnapshotOk.follows (h : SnapshotOk j s c x) (hh : pipeline.Reachable s.hub) :
    Follows s c x := by
  obtain ⟨-, -, hc⟩ := reachable_inv hh
  refine ⟨fun rest hr => (h.replaying rest hr).1, fun hr => (h.replayed hr).1, fun hmem => ?_⟩
  have hnot : ∀ rest, s.hub.registering ≠ some (c, rest) :=
    fun rest hr => ((hc.clients c).registering ⟨rest, hr⟩).1 hmem
  obtain ⟨-, hhistory⟩ := (hc.clients c).history hmem
  rw [hhistory, (h.replayed hnot).2.2, List.take_append_drop]

end

/-- **Late joiners are up to date.** In every interleaving in which no expiration overflows, no
`GetMessages` reads a nil `ActionInfo`. Every client for which `RegisterClient` has been called has
a snapshot of the log at that time. It is sent the messages of its snapshot, which are, once each,
the last messages that are live then; and while it is registered it has received, or is about to,
exactly the broadcasts after its snapshot. -/
theorem late_joiners {j : Json} {s : State} (hr : (caching j).ReachableBy (NoOverflow j) s) :
    s.nilRead = false ∧ broadcasts s.log = s.hub.broadcast ∧
    ∀ c, (s.hub.client c).called = true →
      ∃ x, s.snapshot c = some x ∧ x.log <:+ s.log ∧ UpToDate j x ∧ Follows s c x := by
  have hi : Inv j s := hr.invariant (fun s => inv_init) fun s a s' hi hg hs => hi.step hg hs
  refine ⟨hi.noNil, hi.broadcasts, fun c hc => ?_⟩
  obtain ⟨x, hx, hok⟩ := hi.called c hc
  exact ⟨x, hx, hok.before, hok.upToDate, hok.follows hi.hub⟩

/-- Three messages are broadcast, one of them no action; one is removed, and a client registers. -/
theorem late_joiners_sample :
    ∃ s, (caching sampleJson).ReachableBy (NoOverflow sampleJson) s ∧
      (∃ x, s.snapshot 0 = some x ∧ UpToDate sampleJson x ∧ Follows s 0 x) ∧
      (s.hub.client 0).replayed = [sampleB] ∧ (s.hub.client 0).received = [sampleA] := by
  let pass (m : Bytes) : List Label :=
    [.hub (.readMessage m), .hub .push, .hub .take, .hub .lockHub]
  obtain ⟨s, hr, hs⟩ := System.exists_reachableBy (M := caching sampleJson)
    (G := NoOverflow sampleJson) (g := fun s a => decide (NoOverflow sampleJson s a))
    (fun _ _ => of_decide_eq_true) (s := ⟨Hub.start, 7, ∅, [], fun _ => none, false⟩)
    ⟨rfl, rfl, rfl, rfl, rfl⟩
    (pass sampleA ++ [.hub .unlockHub] ++ pass sampleB ++ [.hub .unlockHub] ++ pass sampleC ++
      [.hub .unlockHub, .removeMessage "a", .advance 50, .register 0 ["c", "b"], .hub .replay,
        .hub .join] ++ pass sampleA ++ [.hub (.send 0)])
    (fun s => (s.hub.client 0).called && decide ((s.hub.client 0).replayed = [sampleB]) &&
      decide ((s.hub.client 0).received = [sampleA])) (by decide +kernel)
  simp only [Bool.and_eq_true, decide_eq_true_eq] at hs
  obtain ⟨⟨hcalled, hreplayed⟩, hreceived⟩ := hs
  obtain ⟨-, -, hclients⟩ := late_joiners hr
  obtain ⟨x, hx, -, hup, hfollows⟩ := hclients 0 hcalled
  exact ⟨s, hr, ⟨x, hx, hup, hfollows⟩, hreplayed, hreceived⟩

end SigningAgent.Hub.Cached
