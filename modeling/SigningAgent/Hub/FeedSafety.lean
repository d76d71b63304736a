import SigningAgent.Hub.Feed

/-!
# Safety and order of the feed pipeline

Two invariants, one for each half of the pipeline:

* `Flow` follows the messages from the connection to the hub: what was read is what was broadcast,
  then what the hub holds, what is in `rxMessages` and what the source is about to put there. Once
  the hub loop has seen `rxMessages` closed, nothing is left on the way.
* `Feeds` follows the clients: a registered client has an open `Feed`, hence a running receiver,
  and has received the broadcasts since its registration, except the one it is still being sent.

Result:
* **`feed_safety`**: in every reachable state nothing has panicked, nobody waits for a receiver that
  has stopped, and with the lock free every registered client has received exactly the messages for
  which the hub got the lock after its registration, in the order in which they were read.

The hub takes a message from `rxMessages` before it asks for the lock, so a client that registers
in between gets a message taken before its registration (`taken_before_registration`). There is at
most one such message (`ClientOk.window`).
-/

namespace SigningAgent.Hub

open Transition

/-- The message on its way into `rxMessages`. -/
def Source.hand : Source → List Bytes
  | .sending m => [m]
  | _ => []

/-- The message the hub has taken and not begun to broadcast. -/
def Loop.hand : Loop → List Bytes
  | .holding m => [m]
  | _ => []

/-- The hub loop has seen `rxMessages` closed. -/
def Loop.sawClosed : Loop → Bool
  | .ended | .cleaning | .stopped => true
  | _ => false

/-- The broadcast that client `c` is still to be sent. -/
def Loop.pending (c : Nat) : Loop → List Bytes
  | .sending m todo => if c ∈ todo then [m] else []
  | _ => []

/-- The messages on their way. -/
structure Flow (s : State) : Prop where
  rxClosed : s.rxClosed = true ↔ s.source = .done
  read : s.read = s.broadcast ++ s.loop.hand ++ s.buffer.toList ++ s.source.hand
  taken : s.taken = s.broadcast ++ s.loop.hand
  sawClosed : s.loop.sawClosed = true → s.rxClosed = true ∧ s.buffer = none

/-- A client `x`, when it is registered (`member`) or being registered, has `pending` still to be
sent to it, and `broadcast` has been broadcast. -/
structure ClientOk (x : Client) (member registering : Prop) (pending broadcast : List Bytes) :
    Prop where
  registered : member → x.closed = false ∧ x.called = true
  registering : registering → ¬ member ∧ x.closed = false ∧ x.called = true ∧ x.received = []
  fresh : x.called = false → x.closed = false ∧ x.received = []
  stopped : x.stopped = true → x.closed = true
  history : member → x.joined ≤ broadcast.length ∧
    x.received ++ pending = broadcast.drop x.joined
  window : member → x.joined ≤ x.joinedTaken ∧ x.joinedTaken ≤ x.joined + 1

/-- The clients, and the lock that keeps their set. -/
structure Feeds (s : State) : Prop where
  lock : s.registering ≠ none → s.loop.locks = false
  todo : ∀ m todo, s.loop = .sending m todo → todo ⊆ s.clients
  clients : ∀ c, ClientOk (s.client c) (c ∈ s.clients)
    (∃ messages, s.registering = some (c, messages)) (s.loop.pending c) s.broadcast

theorem flow_start : Flow start :=
  ⟨by simp [start], rfl, rfl, fun h => by cases h⟩

theorem feeds_start : Feeds start := by
  refine ⟨fun h => absurd rfl h, fun m todo h => ?_, fun c => ?_⟩
  · cases h
  constructor
  · exact fun hc => absurd hc (Finset.notMem_empty c)
  · rintro ⟨messages, h⟩
    cases h
  · exact fun _ => ⟨rfl, rfl⟩
  · intro h
    cases h
  · exact fun hc => absurd hc (Finset.notMem_empty c)
  · exact fun hc => absurd hc (Finset.notMem_empty c)

section

variable {s s' : State} {a : Label}

/-- Under the invariants no step panics. -/
theorem not_panics (hf : Flow s) (hc : Feeds s) : ¬ Panics s a := by
  cases a with
  | push =>
    rintro ⟨⟨m, h⟩, hrx⟩
    rw [hf.rxClosed, h] at hrx
    cases hrx
  | closeRx =>
    rintro ⟨h, hrx⟩
    rw [hf.rxClosed, h] at hrx
    cases hrx
  | send c =>
    rintro ⟨m, todo, h, hmem, hclosed⟩
    rw [((hc.clients c).registered (hc.todo m todo h hmem)).1] at hclosed
    cases hclosed
  | replay =>
    rintro ⟨c, messages, h, hclosed⟩
    rw [((hc.clients c).registering ⟨messages, h⟩).2.1] at hclosed
    cases hclosed
  | closeFeed c | unregister c =>
    rintro ⟨hmem, hclosed⟩
    rw [((hc.clients c).registered hmem).1] at hclosed
    cases hclosed
  | _ => exact id

/-- The step lemma for the messages. -/
theorem Flow.effect (hf : Flow s) (hc : Feeds s) (he : Effect s a s') : Flow s' := by
  obtain ⟨hrx, hread, htaken, hover⟩ := hf
  cases he with
  | panics h => exact absurd h (not_panics ⟨hrx, hread, htaken, hover⟩ hc)
  | readMessage h =>
    refine ⟨by rw [hrx, h]; simp, ?_, htaken, hover⟩
    simp [hread, h, Source.hand]
  | reconnected h => exact ⟨hrx, hread, htaken, hover⟩
  | gaveUp h =>
    refine ⟨by rw [hrx, h]; simp, ?_, htaken, hover⟩
    simp [hread, h, Source.hand]
  | pushed h hb =>
    refine ⟨by rw [hrx, h]; simp, ?_, htaken, fun ho => ?_⟩
    · simp [hread, h, hb, Source.hand]
    · -- the hub loop goes on until the source is done
      have := (hover ho).1
      rw [hrx, h] at this
      cases this
  | rxClosed h =>
    refine ⟨by simp, ?_, htaken, fun ho => ⟨rfl, (hover ho).2⟩⟩
    simp [hread, h, Source.hand]
  | took h hb =>
    refine ⟨hrx, ?_, ?_, fun ho => by cases ho⟩
    · simp [hread, h, hb, Loop.hand]
    · simp [htaken, h, Loop.hand]
  | ended h hb hclosed =>
    refine ⟨hrx, ?_, ?_, fun _ => ⟨hclosed, hb⟩⟩
    · simp [hread, h, Loop.hand]
    · simp [htaken, h, Loop.hand]
  | locked h hreg =>
    refine ⟨hrx, ?_, ?_, fun ho => by cases ho⟩
    · simp [hread, h, Loop.hand]
    · simp [htaken, h, Loop.hand]
  | cleaning h hreg =>
    refine ⟨hrx, ?_, ?_, fun _ => hover (by rw [h]; rfl)⟩
    · simp [hread, h, Loop.hand]
    · simp [htaken, h, Loop.hand]
  | sent h hmem =>
    rw [h] at hread htaken
    exact ⟨hrx, hread, htaken, fun ho => by cases ho⟩
  | unlocked h =>
    refine ⟨hrx, ?_, ?_, fun ho => by cases ho⟩
    · simp [hread, h, Loop.hand]
    · simp [htaken, h, Loop.hand]
  | stopped h =>
    refine ⟨hrx, ?_, ?_, fun _ => hover (by rw [h]; rfl)⟩
    · simp [hread, h, Loop.hand]
    · simp [htaken, h, Loop.hand]
  | dropped | registering | replayed | joined | unknown | receiverStopped =>
    exact ⟨hrx, hread, htaken, hover⟩

theorem Flow.taken_length (hf : Flow s) :
    s.broadcast.length ≤ s.taken.length ∧ s.taken.length ≤ s.broadcast.length + 1 := by
  have hhand : s.loop.hand.length ≤ 1 := by
    cases s.loop <;> simp [Loop.hand]
  rw [hf.taken, List.length_append]
  omega

/-- What happens to client `c` happens to no other client. -/
theorem update_of_ne {c d : Nat} {f : Client → Client} (h : d ≠ c) :
    s.update c f d = s.client d :=
  Function.update_of_ne h ..

theorem update_self {c : Nat} {f : Client → Client} : s.update c f c = f (s.client c) :=
  Function.update_self ..

/-- What relates a client to itself, and to what `f` makes of it, relates every client to what it is
after `f` happened to one of them. -/
theorem update_rel {c : Nat} {f : Client → Client} (R : Client → Client → Prop)
    (hrefl : ∀ x, R x x) (hf : ∀ x, R x (f x)) (d : Nat) : R (s.client d) (s.update c f d) := by
  by_cases hd : d = c
  · subst hd
    rw [update_self]
    exact hf _
  · rw [update_of_ne hd]
    exact hrefl _

theorem pending_of_not_sending {l : Loop} (h : ∀ m todo, l ≠ .sending m todo) (c : Nat) :
    l.pending c = [] := by
  cases l with
  | sending m todo => exact absurd rfl (h m todo)
  | _ => rfl

/-- A step of the source or of the hub loop that broadcasts nothing and leaves the clients alone. -/
theorem Feeds.of_loop (hc : Feeds s) {l : Loop} (hlock : s.registering ≠ none → l.locks = false)
    (htodo : ∀ m todo, l = .sending m todo → todo ⊆ s.clients)
    (hpending : ∀ c, l.pending c = s.loop.pending c) : Feeds { s with loop := l } := by
  refine ⟨hlock, htodo, fun c => ?_⟩
  show ClientOk (s.client c) (c ∈ s.clients) _ (l.pending c) s.broadcast
  rw [hpending]
  exact hc.clients c

/-- The hub gets the lock for a message: everybody is to be sent it. -/
theorem Feeds.locked (hc : Feeds s) {m : Bytes} (h : s.loop = .holding m)
    (hreg : s.registering = none) :
    Feeds { s with loop := .sending m s.clients, broadcast := s.broadcast ++ [m] } := by
  refine ⟨fun hne => absurd hreg hne, fun m' todo he => ?_, fun c => ?_⟩
  · cases he
    exact subset_rfl
  · obtain ⟨h1, h2, h3, h4, h5, h6⟩ := hc.clients c
    refine ⟨h1, h2, h3, h4, fun hmem => ?_, h6⟩
    obtain ⟨hle, hist⟩ := h5 hmem
    rw [h, pending_of_not_sending (by simp), List.append_nil] at hist
    have hpend : (Loop.sending m s.clients).pending c = [m] := if_pos hmem
    constructor
    · show (s.client c).joined ≤ (s.broadcast ++ [m]).length
      rw [List.length_append]
      omega
    · show _ ++ (Loop.sending m s.clients).pending c = (s.broadcast ++ [m]).drop _
      rw [hpend, List.drop_append_of_le_length hle, hist]

/-- **Frame.** A step that touches client `c` only: what is left to show is `c` itself. -/
theorem Feeds.of_client (hc : Feeds s) {c : Nat} {f : Client → Client}
    (hclient : s'.client = s.update c f) (hbroadcast : s'.broadcast = s.broadcast)
    (hlock : s'.registering ≠ none → s'.loop.locks = false)
    (htodo : ∀ m todo, s'.loop = .sending m todo → todo ⊆ s'.clients)
    (hothers : ∀ d, d ≠ c → (d ∈ s'.clients ↔ d ∈ s.clients) ∧
      ((∃ messages, s'.registering = some (d, messages)) →
        ∃ messages, s.registering = some (d, messages)) ∧
      s'.loop.pending d = s.loop.pending d)
    (hself : ClientOk (f (s.client c)) (c ∈ s'.clients)
      (∃ messages, s'.registering = some (c, messages)) (s'.loop.pending c) s.broadcast) :
    Feeds s' := by
  refine ⟨hlock, htodo, fun d => ?_⟩
  rw [hclient, hbroadcast]
  by_cases hdc : d = c
  · subst hdc
    rw [update_self]
    exact hself
  · obtain ⟨hmem, hreg, hpending⟩ := hothers d hdc
    obtain ⟨h1, h2, h3, h4, h5, h6⟩ := hc.clients d
    rw [update_of_ne hdc, hmem, hpending]
    exact ⟨h1, fun hr => h2 (hreg hr), h3, h4, h5, h6⟩

/-- The hub holds the lock, so nobody is registering. -/
theorem Feeds.not_registering (hc : Feeds s) (h : s.loop.locks = true) : s.registering = none := by
  by_contra hne
  exact absurd (h.symm.trans (hc.lock hne)) (by simp)

/-- The hub sends to a client, which has the broadcast now. -/
theorem Feeds.sent (hc : Feeds s) {m : Bytes} {todo : Finset Nat} {c : Nat}
    (h : s.loop = .sending m todo) (hmem : c ∈ todo) :
    Feeds { s with
      client := s.update c (Client.receive m)
      loop := .sending m (todo.erase c) } := by
  have hreg := hc.not_registering (by rw [h]; rfl)
  have hsub := hc.todo m todo h
  refine hc.of_client rfl rfl (fun hne => absurd hreg hne) (fun m' todo' he => ?_)
    (fun d hdc => ⟨Iff.rfl, id, ?_⟩) ?_
  · cases he
    exact (Finset.erase_subset c todo).trans hsub
  · simp [h, Loop.pending, hdc]
  · obtain ⟨h1, h2, h3, h4, h5, h6⟩ := hc.clients c
    have hpend : s.loop.pending c = [m] := by
      rw [h]
      exact if_pos hmem
    have hpend' : (Loop.sending m (todo.erase c)).pending c = [] :=
      if_neg (Finset.notMem_erase c todo)
    rw [hpend] at h5
    rw [hpend']
    refine ⟨h1, fun ⟨messages, hr⟩ => ?_, fun hcall => ?_, h4, fun hmem => ?_, h6⟩
    · exact absurd (hreg.symm.trans hr) (by simp)
    · -- a client that is sent to has been registered
      have hcalled := (h1 (hsub hmem)).2
      exact absurd (hcalled.symm.trans hcall) (by simp)
    · rw [List.append_nil]
      exact h5 hmem

/-- A client is dropped, by `UnregisterClient` or by `cleanUp`. -/
theorem Feeds.dropped (hc : Feeds s) {c : Nat} (hmem : c ∈ s.clients)
    (hlock : s.registering = none ∨ s.loop = .cleaning)
    (hloop : ∀ m todo, s.loop ≠ .sending m todo) :
    Feeds { s with
      client := s.update c Client.close
      clients := s.clients.erase c } := by
  have hreg : s.registering = none :=
    hlock.elim id fun h => hc.not_registering (by rw [h]; rfl)
  have hnot : c ∉ s.clients.erase c := Finset.notMem_erase c s.clients
  refine hc.of_client rfl rfl (fun hne => absurd hreg hne)
    (fun m todo he => absurd he (hloop m todo)) (fun d hdc => ⟨by simp [hdc], id, rfl⟩) ?_
  refine ⟨fun hd => absurd hd hnot, fun ⟨messages, hr⟩ => ?_, fun hcall => ?_, fun _ => rfl,
    fun hd => absurd hd hnot, fun hd => absurd hd hnot⟩
  · exact absurd (hreg.symm.trans hr) (by simp)
  · have hcalled := ((hc.clients c).registered hmem).2
    exact absurd (hcalled.symm.trans hcall) (by simp)

/-- `RegisterClient` gets the lock, for a client that is not registered. -/
theorem Feeds.registering (hc : Feeds s) {c : Nat} {messages : List Bytes}
    (hfree : s.lockFree = true) (hcalled : (s.client c).called = false) :
    Feeds { s with
      client := s.update c Client.call
      registering := some (c, messages) } := by
  obtain ⟨-, hlocks⟩ := lockFree_iff.mp hfree
  obtain ⟨h1, -, h3, h4, -, -⟩ := hc.clients c
  obtain ⟨hclosed, hnil⟩ := h3 hcalled
  have hnot : c ∉ s.clients := by
    intro hmem
    exact absurd (hcalled.symm.trans (h1 hmem).2) (by simp)
  refine hc.of_client rfl rfl (fun _ => hlocks) hc.todo (fun d hdc => ⟨Iff.rfl, ?_, rfl⟩) ?_
  · rintro ⟨ms, he⟩
    cases he
    exact absurd rfl hdc
  · exact ⟨fun hd => absurd hd hnot, fun _ => ⟨hnot, hclosed, rfl, hnil⟩,
      fun hcall => (by cases hcall), h4, fun hd => absurd hd hnot, fun hd => absurd hd hnot⟩

/-- `RegisterClient` replays a cached message, which is no broadcast. -/
theorem Feeds.replayed (hc : Feeds s) {c : Nat} {m : Bytes} {messages : List Bytes}
    (h : s.registering = some (c, m :: messages)) :
    Feeds { s with
      client := s.update c (Client.replay m)
      registering := some (c, messages) } := by
  refine hc.of_client rfl rfl (fun _ => hc.lock (by simp [h])) hc.todo
    (fun d hdc => ⟨Iff.rfl, ?_, rfl⟩) ?_
  · rintro ⟨ms, he⟩
    cases he
    exact absurd rfl hdc
  · obtain ⟨h1, h2, h3, h4, h5, h6⟩ := hc.clients c
    exact ⟨h1, fun _ => h2 ⟨_, h⟩, h3, h4, h5, h6⟩

/-- `RegisterClient` adds the client, which from now on is sent every broadcast. -/
theorem Feeds.joined (hc : Feeds s) (hf : Flow s) {c : Nat} (h : s.registering = some (c, [])) :
    Feeds { s with
      client := s.update c (Client.join s)
      registering := none
      clients := insert c s.clients } := by
  have hloop := not_sending_of_not_locks (hc.lock (by simp [h]))
  obtain ⟨-, h2, h3, h4, -, -⟩ := hc.clients c
  obtain ⟨-, hclosed, hcalled, hnil⟩ := h2 ⟨_, h⟩
  refine hc.of_client rfl rfl (fun hne => absurd rfl hne)
    (fun m todo he => absurd he (hloop m todo))
    (fun d hdc => ⟨by simp [hdc], fun ⟨_, hr⟩ => (by cases hr), rfl⟩) ?_
  refine ⟨fun _ => ⟨hclosed, hcalled⟩, fun ⟨_, hr⟩ => (by cases hr), h3, h4,
    fun _ => ⟨le_rfl, ?_⟩, fun _ => hf.taken_length⟩
  rw [pending_of_not_sending hloop, List.append_nil]
  show (s.client c).received = s.broadcast.drop s.broadcast.length
  rw [hnil, List.drop_length]

/-- A receiver returns, after its `Feed` was closed. -/
theorem Feeds.receiverStopped (hc : Feeds s) {c : Nat} (h : (s.client c).closed = true) :
    Feeds { s with client := s.update c Client.stop } := by
  obtain ⟨h1, h2, h3, -, h5, h6⟩ := hc.clients c
  exact hc.of_client rfl rfl hc.lock hc.todo (fun d _ => ⟨Iff.rfl, id, rfl⟩)
    ⟨h1, h2, h3, fun _ => h, h5, h6⟩

/-- The step lemma for the clients. -/
theorem Feeds.effect (hf : Flow s) (hc : Feeds s) (he : Effect s a s') : Feeds s' := by
  cases he with
  | panics h => exact absurd h (not_panics hf hc)
  | readMessage | reconnected | gaveUp | pushed | rxClosed | unknown =>
    exact ⟨hc.lock, hc.todo, hc.clients⟩
  | @took m h hb =>
    have hloop := hc.of_loop (l := .holding m) (fun _ => rfl) (by simp)
      (by simp [h, Loop.pending])
    exact ⟨hloop.lock, hloop.todo, hloop.clients⟩
  | ended h hb hclosed => exact hc.of_loop (fun _ => rfl) (by simp) (by simp [h, Loop.pending])
  | locked h hreg => exact hc.locked h hreg
  | cleaning h hreg =>
    exact hc.of_loop (fun hne => absurd hreg hne) (by simp) (by simp [h, Loop.pending])
  | sent h hmem => exact hc.sent h hmem
  | unlocked h => exact hc.of_loop (fun _ => rfl) (by simp) (by simp [h, Loop.pending])
  | stopped h => exact hc.of_loop (fun _ => rfl) (by simp) (by simp [h, Loop.pending])
  | dropped hmem hlock hloop => exact hc.dropped hmem hlock hloop
  | registering hfree hcalled => exact hc.registering hfree hcalled
  | replayed h => exact hc.replayed h
  | joined h => exact hc.joined hf h
  | receiverStopped h => exact hc.receiverStopped h

theorem Effect.panicked (he : Effect s a s') (h : ¬ Panics s a) : s'.panicked = s.panicked := by
  cases he with
  | panics hp => exact absurd hp h
  | _ => rfl

theorem reachable_inv (h : pipeline.Reachable s) : s.panicked = false ∧ Flow s ∧ Feeds s := by
  refine h.invariant (I := fun s => s.panicked = false ∧ Flow s ∧ Feeds s) ?_ ?_
  · rintro s rfl
    exact ⟨rfl, flow_start, feeds_start⟩
  · rintro s a s' ⟨hp, hf, hc⟩ hs
    have he := step_effect hs
    exact ⟨(he.panicked (not_panics hf hc)).trans hp, hf.effect hc he, hc.effect hf he⟩

/-- An open `Feed` has a running receiver. -/
theorem ClientOk.running {x : Client} {member registering : Prop} {pending broadcast : List Bytes}
    (h : ClientOk x member registering pending broadcast) (hclosed : x.closed = false) :
    x.stopped = false := by
  cases hx : x.stopped with
  | false => rfl
  | true => exact absurd (hclosed.symm.trans (h.stopped hx)) (by simp)

/-- While nothing is being broadcast, the registered clients have all they are to have. -/
theorem Feeds.received (hc : Feeds s) (h : ∀ m todo, s.loop ≠ .sending m todo) {c : Nat}
    (hmem : c ∈ s.clients) : (s.client c).received = s.broadcast.drop (s.client c).joined := by
  obtain ⟨-, hist⟩ := (hc.clients c).history hmem
  rwa [pending_of_not_sending h, List.append_nil] at hist

theorem Flow.ordered (hf : Flow s) : s.broadcast <+: s.read := by
  rw [hf.read, List.append_assoc, List.append_assoc]
  exact List.prefix_append ..

/-- Once the hub loop has seen `rxMessages` closed, all that was read has been broadcast. -/
theorem Flow.broadcast_of_sawClosed (hf : Flow s) (h : s.loop.sawClosed = true) :
    s.broadcast = s.read := by
  obtain ⟨hrx, hbuf⟩ := hf.sawClosed h
  have hsource := hf.rxClosed.mp hrx
  have hhand : s.loop.hand = [] := by
    cases hl : s.loop with
    | holding m =>
      rw [hl] at h
      cases h
    | _ => rfl
  rw [hf.read, hhand, hbuf, hsource]
  simp [Source.hand]

end

theorem not_sending_of_sawClosed {l : Loop} (h : l.sawClosed = true) :
    ∀ m todo, l ≠ .sending m todo := by
  rintro m todo rfl
  cases h

/-- **Safety and order.** In every interleaving nothing is sent on a closed channel and none is
closed twice, the hub and `RegisterClient` send to running receivers only, and with the lock free
every registered client has received the broadcasts since its registration, a segment of the
messages read. When the hub loop has seen `rxMessages` closed, every message read has been broadcast
to the clients that `cleanUp` is about to close. -/
theorem feed_safety (s : State) (h : pipeline.Reachable s) :
    s.panicked = false ∧
    (∀ m todo c, s.loop = .sending m todo → c ∈ todo → (s.client c).stopped = false) ∧
    (∀ c messages, s.registering = some (c, messages) → (s.client c).stopped = false) ∧
    s.taken = s.broadcast ++ s.loop.hand ∧ s.broadcast <+: s.read ∧
    (s.lockFree = true → ∀ c ∈ s.clients,
      (s.client c).joined ≤ (s.client c).joinedTaken ∧
      (s.client c).joinedTaken ≤ (s.client c).joined + 1 ∧
      (s.client c).joined ≤ s.broadcast.length ∧
      (s.client c).received = s.broadcast.drop (s.client c).joined) ∧
    (s.loop.sawClosed = true → s.rxClosed = true ∧ s.broadcast = s.read ∧
      ∀ c ∈ s.clients, (s.client c).received = s.read.drop (s.client c).joined) := by
  obtain ⟨hp, hf, hc⟩ := reachable_inv h
  refine ⟨hp, fun m todo c hl hmem => ?_, fun c messages hr => ?_, hf.taken, hf.ordered,
    fun hfree c hmem => ?_, fun hover => ?_⟩
  · have hx := hc.clients c
    exact hx.running (hx.registered (hc.todo m todo hl hmem)).1
  · have hx := hc.clients c
    exact hx.running (hx.registering ⟨messages, hr⟩).2.1
  · have hloop := not_sending_of_not_locks (lockFree_iff.mp hfree).2
    obtain ⟨hle, hge⟩ := (hc.clients c).window hmem
    exact ⟨hle, hge, ((hc.clients c).history hmem).1, hc.received hloop hmem⟩
  · have hread := hf.broadcast_of_sawClosed hover
    refine ⟨(hf.sawClosed hover).1, hread, fun c hmem => ?_⟩
    rw [← hread]
    exact hc.received (not_sending_of_sawClosed hover) hmem

/-- `feed_safety` at shutdown: a client that registered after the first of two messages, with the
first replayed from the cache, has received the second before its `Feed` is closed. -/
theorem feed_safety_sample :
    ∃ s, pipeline.Reachable s ∧ s.panicked = false ∧ s.loop = .cleaning ∧
      s.read = [[1], [2]] ∧ s.clients = {0} ∧ (s.client 0).replayed = [[1]] ∧
      (s.client 0).received = [[2]] := by
  obtain ⟨s, hr, hs⟩ := System.exists_reachable (M := pipeline) (s := start) rfl
    [.readMessage [1], .push, .take, .lockHub, .unlockHub, .readMessage [2], .push,
      .register 0 [[1]], .readError false, .replay, .join, .closeRx, .take, .lockHub, .send 0,
      .unlockHub, .take, .lockHub]
    (fun s => decide (s.loop = .cleaning) && decide (s.read = [[1], [2]]) &&
      decide (s.clients = {0}) && decide ((s.client 0).replayed = [[1]]) &&
      decide ((s.client 0).joined = 1))
    (by decide +kernel)
  simp only [Bool.and_eq_true, decide_eq_true_eq] at hs
  obtain ⟨⟨⟨⟨hloop, hread⟩, hclients⟩, hreplayed⟩, hjoined⟩ := hs
  obtain ⟨hp, -, -, -, -, -, hover⟩ := feed_safety s hr
  obtain ⟨-, -, hreceived⟩ := hover (by rw [hloop]; rfl)
  refine ⟨s, hr, hp, hloop, hread, hclients, hreplayed, ?_⟩
  rw [hreceived 0 (by simp [hclients]), hread, hjoined]
  rfl

/-- **Taken before registration.** The hub takes a message, a client registers, the hub gets the
lock: the client receives the message although the hub had taken it before. -/
theorem taken_before_registration :
    ¬ ∀ s : State, pipeline.Reachable s → s.lockFree = true → ∀ c ∈ s.clients,
      (s.client c).received = s.taken.drop (s.client c).joinedTaken := by
  intro hall
  obtain ⟨s, hr, hs⟩ := System.exists_reachable (M := pipeline) (s := start) rfl
    [.readMessage [1], .push, .take, .register 0 [], .join, .lockHub, .send 0, .unlockHub]
    (fun s => s.lockFree && decide (0 ∈ s.clients) && decide ((s.client 0).received = [[1]]) &&
      decide (s.taken = [[1]]) && decide ((s.client 0).joinedTaken = 1))
    (by decide +kernel)
  simp only [Bool.and_eq_true, decide_eq_true_eq] at hs
  obtain ⟨⟨⟨⟨hfree, hmem⟩, hreceived⟩, htaken⟩, hjoined⟩ := hs
  have := hall s hr hfree 0 hmem
  rw [hreceived, htaken, hjoined] at this
  exact absurd this (by decide)

end SigningAgent.Hub
