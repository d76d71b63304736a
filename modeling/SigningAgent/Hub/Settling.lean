import SigningAgent.Hub.Membership
import SigningAgent.Lib.Settling
import Mathlib.Data.Finset.Card

/-!
# The feed pipeline comes to rest

What the goroutines of the pipeline do by themselves is internal: the environment brings messages
and read errors, and calls `RegisterClient` and `UnregisterClient`. The hub and `RegisterClient`
wait for receivers while they hold `w.lock`, the source waits for room in `rxMessages`, and
`cleanUp` waits for the lock. None of them waits for ever:

* `work` bounds the internal steps that are left. A message that is read costs one step in each
  stage and one for each client; `room` is the number of clients, with the one being registered.
* `idle_of_atRest`: where no internal step is left, nothing is on its way and nobody waits for the
  lock.

Results:
* **`delivers_all`**: while the source is alive, whatever the scheduler does, every message that has
  been read gets to every client that had joined before its broadcast, and to no other; also where
  the registration is still under way. A message may be read, and wait, before a client joins.
* **`winds_down`**: once the source has given up or was stopped, whatever the scheduler does, the
  hub loop ends, every `Feed` is closed and every receiver returns, after the last message read.
-/

namespace SigningAgent.Hub

open Transition

/-- The steps of the goroutines, in which the environment has no part. -/
def Internal : Label → Prop
  | .readMessage _ | .readError _ | .register .. | .unregister _ => False
  | _ => True

/-- `Listen` is in its loop. -/
def Source.running : Source → Bool
  | .reading | .sending _ => true
  | _ => false

/-! ## The work that is left -/

/-- The number of clients, with the one being registered. -/
def State.room (s : State) : Nat := s.clients.card + if s.registering.isSome then 1 else 0

/-- The steps that a message costs from here on, or the end of `rxMessages`, with `k` clients. -/
def Source.work (k : Nat) : Source → Nat
  | .sending _ => k + 4
  | .closing => 1
  | _ => 0

def Loop.work (k : Nat) : Loop → Nat
  | .receiving => k + 3
  | .holding _ => k + 3 + (k + 2)
  | .sending _ todo => k + 3 + (todo.card + 1)
  | .ended => k + 2
  | .cleaning => k + 1
  | .stopped => 0

/-- The receivers among `F` that have not returned. -/
def State.receivers (F : Finset Nat) (s : State) : Nat :=
  (F.filter fun c => (s.client c).stopped = false).card

/-- With `k` clients, the steps of the source and of the hub loop. -/
def State.loopWork (k : Nat) (s : State) : Nat :=
  s.source.work k + (if s.buffer.isSome then k + 3 else 0) + s.loop.work k

/-- The steps of the `RegisterClient` that has the lock. -/
def State.registerWork (s : State) : Nat :=
  match s.registering with
  | some (_, messages) => messages.length + 1
  | none => 0

/-- The internal steps that are left at most, if all clients are in `F`. -/
def State.work (F : Finset Nat) (s : State) : Nat :=
  s.loopWork s.room + s.registerWork + s.receivers F

theorem loopWork_mono {k l : Nat} (h : k ≤ l) (s : State) : s.loopWork k ≤ s.loopWork l := by
  unfold State.loopWork
  cases s.source <;> cases s.buffer <;> cases s.loop <;> simp [Source.work, Loop.work] <;> omega

/-- In `cleanUp` every client is a step. -/
theorem loopWork_lt {k l : Nat} (h : k < l) {s : State} (hl : s.loop = .cleaning) :
    s.loopWork k < s.loopWork l := by
  unfold State.loopWork
  rw [hl]
  cases s.source <;> cases s.buffer <;> simp [Source.work, Loop.work] <;> omega

section

variable {F : Finset Nat} {s₀ s s' : State} {a : Label} {c : Nat}

/-- What happens to a client does not bring its receiver back. -/
theorem receivers_update {f : Client → Client} (hf : ∀ x, (f x).stopped = x.stopped) :
    (F.filter fun d => (s.update c f d).stopped = false).card = s.receivers F := by
  refine congrArg Finset.card (Finset.filter_congr fun d _ => ?_)
  rw [update_rel (fun x y => y.stopped = x.stopped) (fun _ => rfl) hf d]

theorem receivers_stop (hc : c ∈ F) (h : (s.client c).stopped = false) :
    (F.filter fun d => (s.update c Client.stop d).stopped = false).card < s.receivers F := by
  refine Finset.card_lt_card ((Finset.ssubset_iff_of_subset fun d hd => ?_).mpr ⟨c, ?_, ?_⟩)
  · obtain ⟨hd, hrun⟩ := Finset.mem_filter.mp hd
    refine Finset.mem_filter.mpr ⟨hd, ?_⟩
    by_cases hdc : d = c
    · rw [hdc]
      exact h
    · rwa [update_of_ne hdc] at hrun
  · exact Finset.mem_filter.mpr ⟨hc, h⟩
  · rw [Finset.mem_filter, update_self]
    rintro ⟨-, hrun⟩
    cases hrun

/-- Only `cleanUp` takes clients away by itself. -/
theorem clients_of_internal (hs : step a s = some s') (ha : Internal a) :
    s.loop = .cleaning ∨ s.clients ⊆ s'.clients := by
  cases a with
  | readMessage | readError | register | unregister => exact ha.elim
  | closeFeed d =>
    simp only [step] at hs
    split at hs
    · exact Or.inl ‹_›
    · cases hs
  | push | closeRx | take | lockHub | unlockHub | send | replay | stopReceiver =>
    simp only [step] at hs
    (repeat' split at hs) <;> cases hs <;> exact Or.inr subset_rfl
  | join =>
    simp only [step] at hs
    split at hs
    · cases hs
      exact Or.inr (Finset.subset_insert _ _)
    · cases hs

theorem not_stopped_of_step (hs : step (.stopReceiver c) s = some s') :
    (s.client c).stopped = false := by
  simp only [step] at hs
  split at hs
  · rename_i h
    rw [Bool.and_eq_true, Bool.not_eq_true'] at h
    exact h.2
  · cases hs

/-! ## One step -/

/-- The pipeline in a run of internal steps from `s₀`, all of whose clients are in `F`. -/
structure Goes (s₀ : State) (F : Finset Nat) (s : State) : Prop where
  panicked : s.panicked = false
  flow : Flow s
  feeds : Feeds s
  accounted : Accounted s
  stopped : Stopped s
  called : ∀ c, (s.client c).called = true → c ∈ F
  read : s.read = s₀.read
  running : s.source.running = s₀.source.running

/-- **Every internal step is work done.** -/
theorem work_lt (h : Goes s₀ F s) (hs : step a s = some s') (ha : Internal a) :
    s'.work F < s.work F := by
  cases step_effect hs with
  | panics hp => exact absurd hp (not_panics h.flow h.feeds)
  | readMessage | reconnected | gaveUp | registering | unknown => exact ha.elim
  | pushed hl hb =>
    simp [State.work, State.loopWork, State.registerWork, State.room, State.receivers, hl, hb,
      Source.work]
  | rxClosed hl =>
    simp [State.work, State.loopWork, State.registerWork, State.room, State.receivers, hl,
      Source.work]
  | took hl hb =>
    simp [State.work, State.loopWork, State.registerWork, State.room, State.receivers, hl, hb,
      Loop.work]
    omega
  | ended hl hb hrx =>
    simp [State.work, State.loopWork, State.registerWork, State.room, State.receivers, hl,
      Loop.work]
  | locked hl hreg =>
    simp [State.work, State.loopWork, State.registerWork, State.room, State.receivers, hl, hreg,
      Loop.work]
  | cleaning hl hreg =>
    simp [State.work, State.loopWork, State.registerWork, State.room, State.receivers, hl,
      Loop.work]
  | @sent m todo c hl hmem =>
    have hcard := Finset.card_erase_lt_of_mem hmem
    have hrecv := @receivers_update F s c (Client.receive m) fun _ => rfl
    simp only [State.work, State.loopWork, State.registerWork, State.room, State.receivers, hl,
      Loop.work] at hrecv ⊢
    omega
  | unlocked hl =>
    simp [State.work, State.loopWork, State.registerWork, State.room, State.receivers, hl,
      Loop.work]
  | stopped hl =>
    simp [State.work, State.loopWork, State.registerWork, State.room, State.receivers, hl,
      Loop.work]
  | @dropped _ c hmem =>
    have hl : s.loop = .cleaning := by
      refine (clients_of_internal hs ha).resolve_right fun hsub => ?_
      exact absurd (hsub hmem) (Finset.notMem_erase _ _)
    have hroom : (s.clients.erase c).card + (if s.registering.isSome then 1 else 0) < s.room :=
      Nat.add_lt_add_right (Finset.card_erase_lt_of_mem hmem) _
    have hrecv := @receivers_update F s c Client.close fun _ => rfl
    exact Nat.add_lt_add_of_lt_of_le (Nat.add_lt_add_right (loopWork_lt hroom hl) _) hrecv.le
  | @replayed c m messages hr =>
    have hroom : s.clients.card + 1 = s.room := by rw [State.room, hr]; rfl
    have hreg : messages.length + 1 < s.registerWork := by
      rw [State.registerWork, hr]
      exact Nat.lt_succ_self _
    have hrecv := @receivers_update F s c (Client.replay m) fun _ => rfl
    exact Nat.add_lt_add_of_lt_of_le
      (Nat.add_lt_add_of_le_of_lt (loopWork_mono hroom.le s) hreg) hrecv.le
  | @joined c hr =>
    have hroom : (insert c s.clients).card + 0 ≤ s.room := by
      rw [State.room, hr]
      exact Finset.card_insert_le c s.clients
    have hreg : 0 < s.registerWork := by
      rw [State.registerWork, hr]
      exact Nat.one_pos
    have hrecv := @receivers_update F s c (Client.join s) fun _ => rfl
    exact Nat.add_lt_add_of_lt_of_le
      (Nat.add_lt_add_of_le_of_lt (loopWork_mono hroom s) hreg) hrecv.le
  | @receiverStopped c hclosed =>
    have hc := h.called c (h.feeds.gone hclosed).1
    exact Nat.add_lt_add_left (receivers_stop hc (not_stopped_of_step hs)) _

/-- A client is called for by `RegisterClient` only. -/
theorem called_of_effect (he : Effect s a s') (h : (s'.client c).called = true) :
    (s.client c).called = true ∨ ∃ messages, a = .register c messages := by
  have hupdate : ∀ (d : Nat) (f : Client → Client), s'.client = s.update d f →
      (∀ x, (f x).called = x.called) → (s.client c).called = true := by
    intro d f hclient hf
    rw [hclient] at h
    exact (update_rel (fun x y => y.called = x.called) (fun _ => rfl) hf c).symm.trans h
  cases he with
  | panics | readMessage | reconnected | gaveUp | pushed | rxClosed | took | ended | locked
    | cleaning | unlocked | stopped | unknown => exact Or.inl h
  | sent | dropped | replayed | joined | receiverStopped =>
    exact Or.inl (hupdate _ _ rfl fun _ => rfl)
  | @registering d messages =>
    by_cases hcd : c = d
    · exact Or.inr ⟨messages, by rw [hcd]⟩
    · exact Or.inl ((congrArg Client.called (update_of_ne hcd)).symm.trans h)

/-- An internal step keeps to the run. -/
theorem Goes.step (h : Goes s₀ F s) (hs : step a s = some s') (ha : Internal a) :
    Goes s₀ F s' := by
  have he := step_effect hs
  have hno := not_panics h.flow h.feeds (a := a)
  refine ⟨(he.panicked hno).trans h.panicked, h.flow.effect h.feeds he, h.feeds.effect h.flow he,
    h.accounted.effect h.feeds he, h.stopped.step h.feeds hs ?_, fun c hc => h.called c ?_, ?_, ?_⟩
  · rintro c messages rfl
    exact ha.elim
  · refine (called_of_effect he hc).resolve_right ?_
    rintro ⟨messages, rfl⟩
    exact ha.elim
  · cases he with
    | readMessage => exact ha.elim
    | _ => exact h.read
  · cases he with
    | readMessage | gaveUp => exact ha.elim
    | pushed hl => exact (congrArg Source.running hl).symm.trans h.running
    | rxClosed hl => exact (congrArg Source.running hl).symm.trans h.running
    | _ => exact h.running

/-! ## Clients that are served -/

/-- The `Feed` is closed, after all that the client was to have. -/
def Client.Finished (broadcast : List Bytes) (x : Client) : Prop :=
  x.closed = true ∧ x.received = broadcast.drop x.joined

/-- The client is registered or about to be, or `cleanUp` has closed it with all it was to have. -/
def Served (s : State) (c : Nat) : Prop :=
  c ∈ s.clients ∨ (∃ messages, s.registering = some (c, messages)) ∨
    s.loop.sawClosed = true ∧ (s.client c).Finished s.broadcast

theorem Served.step (h : Served s c) (hf : Flow s) (hc : Feeds s) (hs : step a s = some s')
    (ha : Internal a) : Served s' c := by
  have he := step_effect hs
  -- before the end of `rxMessages` a client is registered or about to be
  have hlive : s.loop.sawClosed = false →
      c ∈ s.clients ∨ ∃ messages, s.registering = some (c, messages) := fun hsaw =>
    h.imp_right fun h => h.resolve_right fun h => absurd (h.1.symm.trans hsaw) (by simp)
  have hkeeps : ∀ (d : Nat) (f : Client → Client),
      (∀ x : Client, x.Finished s.broadcast → (f x).Finished s.broadcast) →
      (s.client c).Finished s.broadcast → (s.update d f c).Finished s.broadcast := fun d f hf =>
    update_rel (fun x y => x.Finished s.broadcast → y.Finished s.broadcast) (fun _ => id) hf c
  cases he with
  | panics hp => exact absurd hp (not_panics hf hc)
  | readMessage | reconnected | gaveUp | registering | unknown => exact ha.elim
  | pushed | rxClosed => exact h
  | took hl | ended hl | locked hl | unlocked hl =>
    exact (hlive (by rw [hl]; rfl)).imp_right Or.inl
  | sent hl => exact (hlive (by rw [hl]; rfl)).imp_right Or.inl
  | cleaning hl | stopped hl =>
    exact h.imp_right fun h => h.imp_right fun h => ⟨rfl, h.2⟩
  | @dropped _ d hmem =>
    have hl : s.loop = .cleaning := by
      refine (clients_of_internal hs ha).resolve_right fun hsub => ?_
      exact absurd (hsub hmem) (Finset.notMem_erase _ _)
    have hsaw : s.loop.sawClosed = true := by rw [hl]; rfl
    by_cases hcd : c = d
    · subst hcd
      refine Or.inr (Or.inr ⟨hsaw, ?_⟩)
      show (s.update c Client.close c).Finished s.broadcast
      rw [update_self]
      exact ⟨rfl, hc.received (not_sending_of_sawClosed hsaw) hmem⟩
    · rcases h with h | h | h
      · exact Or.inl (Finset.mem_erase.mpr ⟨hcd, h⟩)
      · exact Or.inr (Or.inl h)
      · refine Or.inr (Or.inr ⟨hsaw, ?_⟩)
        show (s.update d Client.close c).Finished s.broadcast
        rw [update_of_ne hcd]
        exact h.2
  | @replayed d m messages hr =>
    rcases h with h | ⟨ms, h⟩ | ⟨hsaw, h⟩
    · exact Or.inl h
    · rw [hr] at h
      cases h
      exact Or.inr (Or.inl ⟨messages, rfl⟩)
    · exact Or.inr (Or.inr ⟨hsaw, hkeeps d (Client.replay m) (fun _ hx => hx) h⟩)
  | @joined d hr =>
    by_cases hcd : c = d
    · exact Or.inl (hcd ▸ Finset.mem_insert_self _ _)
    · rcases h with h | ⟨ms, h⟩ | ⟨hsaw, h⟩
      · exact Or.inl (Finset.mem_insert_of_mem h)
      · rw [hr] at h
        cases h
        exact absurd rfl hcd
      · refine Or.inr (Or.inr ⟨hsaw, ?_⟩)
        show (s.update d (Client.join s) c).Finished s.broadcast
        rw [update_of_ne hcd]
        exact h
  | @receiverStopped d =>
    exact h.imp_right fun h => h.imp_right fun h => ⟨h.1, hkeeps d Client.stop (fun _ hx => hx) h.2⟩

/-- The client was registered at `n`, and is not being registered again. -/
def JoinedAt (n c : Nat) (s : State) : Prop :=
  (∀ messages, s.registering ≠ some (c, messages)) ∧ (s.client c).joined = n

theorem JoinedAt.effect {n : Nat} (h : JoinedAt n c s) (he : Effect s a s') (ha : Internal a) :
    JoinedAt n c s' := by
  obtain ⟨hreg, hjoined⟩ := h
  have hupdate : ∀ (d : Nat) (f : Client → Client), (∀ x, (f x).joined = x.joined) →
      (s.update d f c).joined = n := fun d f hf =>
    (update_rel (fun x y => y.joined = x.joined) (fun _ => rfl) hf c).trans hjoined
  cases he with
  | panics | readMessage | reconnected | gaveUp | pushed | rxClosed | took | ended | locked
    | cleaning | unlocked | stopped | unknown => exact ⟨hreg, hjoined⟩
  | @sent m todo d => exact ⟨hreg, hupdate d (Client.receive m) fun _ => rfl⟩
  | @dropped _ d => exact ⟨hreg, hupdate d Client.close fun _ => rfl⟩
  | @receiverStopped d => exact ⟨hreg, hupdate d Client.stop fun _ => rfl⟩
  | registering => exact ha.elim
  | @replayed d m messages hr =>
    refine ⟨fun ms he => ?_, hupdate d (Client.replay m) fun _ => rfl⟩
    cases he
    exact hreg _ hr
  | @joined d hr =>
    have hcd : c ≠ d := fun h => hreg _ (h ▸ hr)
    exact ⟨nofun, (congrArg Client.joined (update_of_ne hcd)).trans hjoined⟩

/-! ## At rest -/

/-- Nothing is on its way, and nobody waits. -/
structure Idle (s : State) : Prop where
  registering : s.registering = none
  ends : s.source = .reading ∧ s.loop = .receiving ∨ s.source = .done ∧ s.loop = .stopped
  broadcast : s.broadcast = s.read
  receivers : ∀ c, (s.client c).closed = true → (s.client c).stopped = true

/-- **No deadlock.** Where no internal step is left, nobody waits. -/
theorem idle_of_atRest (hf : Flow s) (hc : Feeds s) (h : pipeline.AtRest Internal s) : Idle s := by
  have hreg : s.registering = none := by
    by_contra hne
    obtain ⟨⟨c, messages⟩, hr⟩ := Option.ne_none_iff_exists'.mp hne
    obtain ⟨-, hopen, -, -⟩ := (hc.clients c).registering ⟨messages, hr⟩
    have hrun := (hc.clients c).running hopen
    cases messages with
    | nil =>
      have hjoin := h .join trivial
      simp [pipeline, step, hr] at hjoin
    | cons m messages =>
      have hreplay := h .replay trivial
      simp [pipeline, step, hr, hopen, hrun] at hreplay
  have hfree : s.loop.locks = false → s.lockFree = true := fun hlocks =>
    lockFree_iff.mpr ⟨hreg, hlocks⟩
  have hloop : s.loop = .stopped ∨ s.loop = .receiving ∧ s.buffer = none ∧ s.rxClosed = false := by
    cases hl : s.loop with
    | stopped => exact Or.inl rfl
    | receiving =>
      have htake := h .take trivial
      cases hb : s.buffer <;> cases hrx : s.rxClosed <;> simp [pipeline, step, hl, hb, hrx] at htake
      exact Or.inr ⟨rfl, rfl, rfl⟩
    | holding m =>
      have hlock := h .lockHub trivial
      simp [pipeline, step, hl, hfree (by rw [hl]; rfl)] at hlock
    | ended =>
      have hlock := h .lockHub trivial
      simp [pipeline, step, hl, hfree (by rw [hl]; rfl)] at hlock
    | sending m todo =>
      rcases todo.eq_empty_or_nonempty with rfl | ⟨c, hmem⟩
      · have hunlock := h .unlockHub trivial
        simp [pipeline, step, hl] at hunlock
      · obtain ⟨hopen, -⟩ := (hc.clients c).registered (hc.todo m todo hl hmem)
        have hsend := h (.send c) trivial
        simp [pipeline, step, hl, hmem, hopen, (hc.clients c).running hopen] at hsend
    | cleaning =>
      rcases s.clients.eq_empty_or_nonempty with hnone | ⟨c, hmem⟩
      · have hunlock := h .unlockHub trivial
        simp [pipeline, step, hl, hnone] at hunlock
      · have hclose := h (.closeFeed c) trivial
        simp [pipeline, step, hl, hmem] at hclose
  have hreceivers : ∀ c, (s.client c).closed = true → (s.client c).stopped = true := by
    intro c hclosed
    have hstop := h (.stopReceiver c) trivial
    simpa [pipeline, step, hclosed] using hstop
  rcases hloop with hl | ⟨hl, hb, hrx⟩
  · have hsaw : s.loop.sawClosed = true := by rw [hl]; rfl
    exact ⟨hreg, Or.inr ⟨hf.rxClosed.mp (hf.sawClosed hsaw).1, hl⟩, hf.broadcast_of_sawClosed hsaw,
      hreceivers⟩
  · have hsource : s.source = .reading := by
      cases hsrc : s.source with
      | reading => rfl
      | sending m =>
        have hpush := h .push trivial
        simp [pipeline, step, hsrc, hb, hrx] at hpush
      | closing =>
        have hclose := h .closeRx trivial
        simp [pipeline, step, hsrc, hrx] at hclose
      | done => exact absurd ((hf.rxClosed.mpr hsrc).symm.trans hrx) (by simp)
    refine ⟨hreg, Or.inl ⟨hsource, hl⟩, ?_, hreceivers⟩
    rw [hf.read, hl, hb, hsource]
    simp [Loop.hand, Source.hand]

/-! ## Results -/

/-- In every reachable state finitely many clients have been called for, and none is lost. -/
theorem reachable_called (h : pipeline.Reachable s) :
    Accounted s ∧ ∃ F : Finset Nat, ∀ c, (s.client c).called = true → c ∈ F := by
  have hall := h.invariant (I := fun s => (s.panicked = false ∧ Flow s ∧ Feeds s) ∧ Accounted s ∧
    ∃ F : Finset Nat, ∀ c, (s.client c).called = true → c ∈ F) ?_ ?_
  · exact hall.2
  · rintro s rfl
    exact ⟨⟨rfl, flow_start, feeds_start⟩, fun c hc => (by cases hc), ∅, fun c hc => (by cases hc)⟩
  · rintro s a s' ⟨⟨hp, hf, hc⟩, hacc, F, hF⟩ hs
    have he := step_effect hs
    refine ⟨⟨(he.panicked (not_panics hf hc)).trans hp, hf.effect hc he, hc.effect hf he⟩,
      hacc.effect hc he, ?_⟩
    cases a with
    | register d messages =>
      refine ⟨insert d F, fun c hcalled => Finset.mem_insert.mpr ?_⟩
      rcases called_of_effect he hcalled with hcalled | ⟨ms, heq⟩
      · exact Or.inr (hF c hcalled)
      · cases heq
        exact Or.inl rfl
    | _ =>
      refine ⟨F, fun c hcalled => hF c ((called_of_effect he hcalled).resolve_right ?_)⟩
      rintro ⟨messages, heq⟩
      cases heq

/-- Every run of internal steps ends, with nobody waiting. -/
theorem settles (h : pipeline.Reachable s) (hl : s.loop ≠ .stopped) :
    pipeline.Settles Internal (fun t => Idle t ∧ (∃ F, Goes s F t) ∧
      (∀ c, (c ∈ s.clients ∨ ∃ messages, s.registering = some (c, messages)) → Served t c) ∧
      ∀ c ∈ s.clients, JoinedAt (s.client c).joined c t) s := by
  obtain ⟨hp, hf, hc⟩ := reachable_inv h
  obtain ⟨hacc, F, hF⟩ := reachable_called h
  refine System.settles_of_measure (I := fun t => Goes s F t ∧
    (∀ c, (c ∈ s.clients ∨ ∃ messages, s.registering = some (c, messages)) → Served t c) ∧
    ∀ c ∈ s.clients, JoinedAt (s.client c).joined c t) (State.work F) ?_ ?_ ?_
  · rintro t a u ⟨ht, hserved, hjoined⟩ ha hs
    exact ⟨⟨ht.step hs ha, fun c hm => (hserved c hm).step ht.flow ht.feeds hs ha,
      fun c hm => (hjoined c hm).effect (step_effect hs) ha⟩, work_lt ht hs ha⟩
  · rintro t ⟨ht, hserved, hjoined⟩ hrest
    exact ⟨idle_of_atRest ht.flow ht.feeds hrest, ⟨F, ht⟩, hserved, hjoined⟩
  · refine ⟨⟨hp, hf, hc, hacc, fun hstop => absurd hstop hl, hF, rfl, rfl⟩,
      fun c hm => hm.imp_right Or.inl, fun c hm => ⟨fun messages hr => ?_, rfl⟩⟩
    exact ((hc.clients c).registering ⟨messages, hr⟩).1 hm

/-- While the source is alive, the pipeline comes to rest in its two loops, and every client that is
registered, or about to be, has then received the messages whose broadcast had not begun when it
joined. -/
theorem settles_running (h : pipeline.Reachable s) (hsource : s.source.running = true) :
    pipeline.Settles Internal (fun t => t.panicked = false ∧ t.read = s.read ∧
      t.source = .reading ∧ t.loop = .receiving ∧
      (∀ c, (c ∈ s.clients ∨ ∃ messages, s.registering = some (c, messages)) →
        c ∈ t.clients ∧ (t.client c).received = s.read.drop (t.client c).joined) ∧
      ∀ c ∈ s.clients, (t.client c).joined = (s.client c).joined) s := by
  have hl : s.loop ≠ .stopped := by
    intro hl
    obtain ⟨-, hf, -⟩ := reachable_inv h
    have hdone := hf.rxClosed.mp (hf.sawClosed (by rw [hl]; rfl)).1
    rw [hdone] at hsource
    cases hsource
  refine (settles h hl).mono ?_
  rintro t ⟨hidle, ⟨F, ht⟩, hserved, hjoined⟩
  obtain ⟨hsrc, hrecv⟩ : t.source = .reading ∧ t.loop = .receiving := by
    refine hidle.ends.resolve_right fun hdone => ?_
    have hrun := ht.running.trans hsource
    rw [hdone.1] at hrun
    cases hrun
  refine ⟨ht.panicked, ht.read, hsrc, hrecv, fun c hm => ?_, fun c hm => (hjoined c hm).2⟩
  have hmem : c ∈ t.clients := by
    rcases hserved c hm with hc | ⟨messages, hr⟩ | ⟨hsaw, -⟩
    · exact hc
    · rw [hidle.registering] at hr
      cases hr
    · rw [hrecv] at hsaw
      cases hsaw
  have hreceived := ht.feeds.received (by simp [hrecv]) hmem
  rw [hidle.broadcast, ht.read] at hreceived
  exact ⟨hmem, hreceived⟩

/-- **Every message read is delivered.** While the source is alive, the pipeline comes to rest under
every scheduler, and then every client that is registered, or about to be, has received exactly the
messages whose broadcast had not begun when it joined, in their order. -/
theorem delivers_all (h : pipeline.Reachable s) (hsource : s.source.running = true) :
    pipeline.Settles Internal (fun t => t.panicked = false ∧ t.read = s.read ∧
      t.source = .reading ∧ t.loop = .receiving ∧
      (∀ c ∈ s.clients,
        c ∈ t.clients ∧ (t.client c).received = s.read.drop (s.client c).joined) ∧
      ∀ c messages, s.registering = some (c, messages) →
        c ∈ t.clients ∧ (t.client c).received = s.read.drop (t.client c).joined) s := by
  refine (settles_running h hsource).mono ?_
  rintro t ⟨hpanic, hread, hsrc, hrecv, hall, hjoined⟩
  refine ⟨hpanic, hread, hsrc, hrecv, fun c hm => ?_,
    fun c messages hr => hall c (Or.inr ⟨messages, hr⟩)⟩
  rw [← hjoined c hm]
  exact hall c (Or.inl hm)

end

/-- A registered client, and a message that has just been read. -/
theorem delivers_all_sample : ∃ s, pipeline.Reachable s ∧ (s.client 0).received = [] ∧
    pipeline.Settles Internal (fun t => (t.client 0).received = [[1]]) s := by
  obtain ⟨s, hr, hs⟩ := System.exists_reachable (M := pipeline) (s := start) rfl
    [.register 0 [], .join, .readMessage [1]]
    (fun s => decide (s.source.running = true ∧ s.read = [[1]] ∧ 0 ∈ s.clients ∧
      (s.client 0).joined = 0 ∧ (s.client 0).received = [])) (by decide +kernel)
  obtain ⟨hrun, hread, hmem, hjoined, hnil⟩ := of_decide_eq_true hs
  refine ⟨s, hr, hnil, (delivers_all hr hrun).mono ?_⟩
  rintro t ⟨-, -, -, -, hall, -⟩
  rw [(hall 0 hmem).2, hread, hjoined]
  rfl

end SigningAgent.Hub
