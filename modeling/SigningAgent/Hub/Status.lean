import SigningAgent.Hub.Connect
import SigningAgent.Hub.Settling

/-!
# What the health check says (`GetWebsocketStatus` in `internal/hub/feed_hub.go`)

The ready state is written by `Connect`, `dial` and `Disconnect`, at different moments from those at
which the connection itself changes; the clients are counted under `w.lock`, later than the ready
state is read. So the status is a function of two states, one at each look.

* `Listen.status` is what the ready state should be, from where `Listen` is.
* `Exact`: it is so, as long as `shouldReconnect` is set. A `Stop` clears the flag before it changes
  the state, and nobody sets it again.
* `After` is what a run can do once the flag is cleared.

Results:
* **`websocket_status_exact`**: in every interleaving with any number of `Stop` calls, until one
  of them clears the flag, the ready state is right. The clients counted are those registered whose
  `Feed` is open, without the internal ones.
* **`after_disconnect`**: in every interleaving, once the flag is cleared, there is one more dial at
  most, the one of a reconnection under way; after the next read error it is over.
* **`calm_status`**: in the runs of `stop_is_final` the ready state is right after a `Stop` too.
-/

namespace SigningAgent.Hub.Stopping

open Transition

/-! ## The status -/

/-- `defs.ConnectionState`. -/
def ReadyState.name : ReadyState → String
  | .closed => "CLOSED"
  | .connecting => "CONNECTING"
  | .opened => "OPEN"

/-- `WebsocketStatus`. -/
structure WebsocketStatus where
  readyState : String
  remoteFeedUrl : String
  /-- a `uint32` -/
  connectedClients : Nat
  deriving DecidableEq, Repr

/-- `getExternalFeedClients`. -/
def getExternalFeedClients (isInternal : Nat → Bool) (h : Hub.State) : Nat :=
  (h.clients.filter fun fc => !isInternal fc).card

/-- `GetWebsocketStatus`: the source when the ready state is read, and the hub when the clients are
counted. -/
def getWebsocketStatus (config : WebSocketConfig) (isInternal : Nat → Bool) (s : State)
    (h : Hub.State) : WebsocketStatus where
  readyState := s.readyState.name
  remoteFeedUrl := (newWebsocketSource config).feedUrl
  connectedClients := getExternalFeedClients isInternal h % 2 ^ 32

/-- The ready state as `Listen` and `Connect` should have left it. -/
def Listen.status : Listen → ReadyState
  | .connecting | .dialled | .timedOut => .connecting
  | .closing | .done => .closed
  | .reading | .failed | .passed | .sending _ => .opened

section

variable {s s' t : State} {a : Label} {labels more : List Label}

/-! ## Until `Stop` clears the flag -/

/-- While the flag is set the ready state is right, and no `Stop` is about to change it. -/
def Exact (s : State) : Prop :=
  s.shouldReconnect = true → s.readyState = s.listen.status ∧ .cleared ∉ s.stops

/-- A `Stop` that moves on, but not to `cleared`, leaves the ready state as it is. -/
theorem Exact.set (h : Exact s) {i : Nat} {p : Stop} (hp : .cleared ≠ p) :
    Exact { s with stops := s.stops.set i p } := fun hf =>
  ⟨(h hf).1, fun hmem => (h hf).2 ((List.mem_or_eq_of_mem_set hmem).resolve_right hp)⟩

/-- The step lemma for `Stop`. -/
theorem Exact.stopStep (h : Exact s) {i : Nat} {p : Stop} (hp : s.stops[i]? = some p)
    (hs : stopStep i s p = some s') : Exact s' := by
  cases p with
  | called =>
    cases hs
    split
    · exact h.set nofun
    · exact h.set nofun
  | sawOpen =>
    cases hs
    exact h.set nofun
  | frameSent =>
    cases hs
    exact nofun
  | cleared =>
    cases hs
    intro hf
    exact absurd (List.mem_of_getElem? hp) (h hf).2
  | leaving =>
    cases hs
    exact h.set nofun
  | returned => cases hs

/-- The step lemma. -/
theorem Exact.step (h : Exact s) (hs : step a s = some s') : Exact s' := by
  have hkeeps : ∀ {l : Listen} {r : ReadyState}, r = l.status →
      ∀ n put, Exact { s with listen := l, readyState := r, connection := n, put := put } :=
    fun hr _ _ hf => ⟨hr, (h hf).2⟩
  cases step_effect hs with
  | readMessage hl | readError hl | passed hl | timedOut hl | rxClosed hl | pushed hl =>
    exact fun hf => ⟨by rw [(h hf).1, hl]; rfl, (h hf).2⟩
  | ended hl hflag =>
    intro hf
    exact absurd (hflag.symm.trans hf) (by simp)
  | setConnecting | opened | setClosed => exact hkeeps rfl _ _
  | dialled hl => exact fun hf => ⟨by rw [(h hf).1, hl]; rfl, (h hf).2⟩
  | dialFailed => exact h
  | callStop =>
    refine fun hf => ⟨(h hf).1, fun hmem => ?_⟩
    rcases List.mem_append.mp hmem with hmem | hmem
    · exact (h hf).2 hmem
    · cases List.mem_singleton.mp hmem
  | stop hp hstep => exact h.stopStep hp hstep

theorem reachable_exact (hr : stopping.Reachable s) : Exact s := by
  refine hr.invariant ?_ fun s a s' h hs => h.step hs
  rintro s rfl
  exact fun _ => ⟨rfl, by simp [start]⟩

/-! ## The clients that are counted -/

/-- Nobody holds the lock: registered are those called for whose `Feed` is open. -/
theorem mem_clients_iff {h : Hub.State} (hh : pipeline.Reachable h) (hfree : h.lockFree = true)
    (c : Nat) : c ∈ h.clients ↔ (h.client c).called = true ∧ (h.client c).closed = false := by
  obtain ⟨-, -, hfeeds⟩ := reachable_inv hh
  have hreg := (lockFree_iff.mp hfree).1
  constructor
  · intro hmem
    obtain ⟨hopen, hcalled⟩ := (hfeeds.clients c).registered hmem
    exact ⟨hcalled, hopen⟩
  · rintro ⟨hcalled, hopen⟩
    rcases (reachable_called hh).1 c hcalled with hmem | ⟨messages, hr⟩ | hclosed
    · exact hmem
    · rw [hreg] at hr
      cases hr
    · exact absurd (hclosed.symm.trans hopen) (by simp)

/-- **The status is exact.** Until a `Stop` clears the flag the ready state says where `Listen` is,
in every interleaving; the clients counted are the external ones called for whose `Feed` is open. -/
theorem websocket_status_exact {config : WebSocketConfig} {isInternal : Nat → Bool}
    {h : Hub.State} (hr : stopping.Reachable s) (hf : s.shouldReconnect = true)
    (hh : pipeline.Reachable h) (hfree : h.lockFree = true) :
    ∃ F : Finset Nat,
      (∀ c, c ∈ F ↔ (h.client c).called = true ∧ (h.client c).closed = false ∧
        isInternal c = false) ∧
      getWebsocketStatus config isInternal s h =
        ⟨s.listen.status.name, config.qredoWebsocket, F.card % 2 ^ 32⟩ := by
  refine ⟨h.clients.filter fun fc => !isInternal fc, fun c => ?_, ?_⟩
  · rw [Finset.mem_filter, mem_clients_iff hh hfree, Bool.not_eq_true', and_assoc]
  · rw [getWebsocketStatus, (reachable_exact hr hf).1]
    rfl

/-- A reconnection under way, and a client beside the internal one. -/
theorem websocket_status_exact_sample : ∃ (s : State) (h : Hub.State) (F : Finset Nat),
    (∀ c, c ∈ F ↔ (h.client c).called = true ∧ (h.client c).closed = false ∧
      decide (c = 0) = false) ∧
    getWebsocketStatus sampleConfig (fun c => decide (c = 0)) s h =
      ⟨"CONNECTING", "wss://feed", F.card % 2 ^ 32⟩ ∧ 1 ∈ F := by
  obtain ⟨s, hr, hs⟩ := System.exists_reachable (M := stopping) (s := start) rfl
    [.readError, .callStop, .test, .setConnecting, .dial false]
    (fun s => s.shouldReconnect && decide (s.listen = .connecting)) (by decide +kernel)
  obtain ⟨h, hh, hrun⟩ := System.exists_reachable (M := pipeline) (s := Hub.start) rfl
    [.register 0 [], .join, .register 1 [], .join]
    (fun h => h.lockFree && (h.client 1).called && !(h.client 1).closed) (by decide +kernel)
  simp only [Bool.and_eq_true, decide_eq_true_eq, Bool.not_eq_true'] at hs hrun
  obtain ⟨F, hF, hstatus⟩ :=
    @websocket_status_exact s sampleConfig (fun c => decide (c = 0)) h hr hs.1 hh hrun.1.1
  rw [hs.2] at hstatus
  exact ⟨s, h, F, hF, hstatus, (hF 1).mpr ⟨hrun.1.2, hrun.2, rfl⟩⟩

/-! ## After `Stop` has cleared the flag -/

/-- The dials that `Connect` can still make with success, if it is under way. -/
def Listen.owes : Listen → Nat
  | .passed | .connecting => 1
  | _ => 0

/-- `Listen` has left its loop. -/
def Listen.hasEnded : Listen → Bool
  | .closing | .done => true
  | _ => false

/-- What the steps `labels` can do from `s` on, where the flag is cleared. -/
structure After (labels : List Label) (s s' : State) : Prop where
  flag : s'.shouldReconnect = false
  connection : s'.connection = s.connection + labels.count (.dial true)
  dials : labels.count (.dial true) + s'.listen.owes ≤ s.listen.owes
  ended : .test ∈ labels ∨ s.listen.hasEnded = true → s'.listen.hasEnded = true
  reconnecting : s'.listen.reconnecting = true → s.listen.reconnecting = true
  opened : s'.readyState = .opened → s.readyState = .opened ∨ s.listen.reconnecting = true

theorem After.refl (hf : s.shouldReconnect = false) : After [] s s :=
  ⟨hf, rfl, by simp, fun h => h.resolve_left (by simp), id, Or.inl⟩

theorem After.trans (h : After labels s t) (h' : After more t s') :
    After (labels ++ more) s s' := by
  refine ⟨h'.flag, ?_, ?_, fun ho => ?_, fun hr => h.reconnecting (h'.reconnecting hr),
    fun ho => ?_⟩
  · rw [h'.connection, h.connection, List.count_append, Nat.add_assoc]
  · have hd := h.dials
    have hd' := h'.dials
    rw [List.count_append]
    omega
  · rcases ho with hmem | ho
    · rcases List.mem_append.mp hmem with hmem | hmem
      · exact h'.ended (Or.inr (h.ended (Or.inl hmem)))
      · exact h'.ended (Or.inl hmem)
    · exact h'.ended (Or.inr (h.ended (Or.inr ho)))
  · rcases h'.opened ho with ho | hr
    · exact h.opened ho
    · exact Or.inr (h.reconnecting hr)

/-- A step that does not move `Listen`, and does not set the state to OPEN. -/
theorem After.of_listen (hf : s'.shouldReconnect = false) (hl : s'.listen = s.listen)
    (hc : s'.connection = s.connection) (ho : s'.readyState = .opened → s.readyState = .opened)
    (hdial : a ≠ .dial true) (htest : a ≠ .test) : After [a] s s' := by
  have hcount : [a].count (.dial true) = 0 :=
    List.count_eq_zero.mpr fun hmem => hdial (List.mem_singleton.mp hmem).symm
  refine ⟨hf, by rw [hcount]; exact hc, by rw [hcount, hl, Nat.zero_add], fun h => ?_,
    by rw [hl]; exact id, fun h => Or.inl (ho h)⟩
  rw [hl]
  exact h.resolve_left fun hmem => htest (List.mem_singleton.mp hmem).symm

/-- The step lemma: no step passes the test of `shouldReconnect`. -/
theorem after_step (hf : s.shouldReconnect = false) (hs : step a s = some s') :
    After [a] s s' := by
  cases step_effect hs with
  | passed _ hflag => exact absurd (hflag.symm.trans hf) (by simp)
  | readMessage hl | readError hl | ended hl | setConnecting hl | dialled hl | timedOut hl
    | setClosed hl | pushed hl | rxClosed hl | opened hl =>
    constructor <;> simp [hf, hl, Listen.owes, Listen.hasEnded, Listen.reconnecting]
  | dialFailed hl | callStop => exact After.of_listen hf rfl rfl id nofun nofun
  | @stop i p s' hp hstep =>
    cases p with
    | called | sawOpen | leaving =>
      cases hstep
      exact After.of_listen hf rfl rfl id nofun nofun
    | frameSent =>
      cases hstep
      exact After.of_listen rfl rfl rfl id nofun nofun
    | cleared =>
      cases hstep
      exact After.of_listen hf rfl rfl nofun nofun nofun
    | returned => cases hstep

theorem after_run (hf : s.shouldReconnect = false) (hrun : stopping.run labels s = some s') :
    After labels s s' := by
  induction labels generalizing s with
  | nil =>
    obtain rfl : s = s' := Option.some.inj hrun
    exact After.refl hf
  | cons a labels ih =>
    obtain ⟨t, hs, hrun⟩ := Option.bind_eq_some_iff.mp hrun
    have hstep := after_step hf hs
    exact hstep.trans (ih hstep.flag hrun)

/-- **After `Disconnect`.** Once the flag is cleared, whatever the order of the steps: one more
successful dial at most, and only if `Listen` had passed the test and was not connected again; after
the next test `Listen` has left its loop; and the state becomes OPEN only in a reconnection that was
under way. -/
theorem after_disconnect (hf : s.shouldReconnect = false)
    (hrun : stopping.run labels s = some s') :
    s'.connection = s.connection + labels.count (.dial true) ∧
    labels.count (.dial true) ≤ s.listen.owes ∧
    (.test ∈ labels → s'.listen = .closing ∨ s'.listen = .done) ∧
    (s'.readyState = .opened → s.readyState = .opened ∨ s.listen.reconnecting = true) := by
  have h := after_run hf hrun
  refine ⟨h.connection, by have := h.dials; omega, fun hmem => ?_, h.opened⟩
  have hover := h.ended (Or.inl hmem)
  cases hl : s'.listen with
  | closing => exact Or.inl rfl
  | done => exact Or.inr rfl
  | _ =>
    rw [hl] at hover
    cases hover

/-- A `Disconnect` while `Listen` is about to reconnect: one more connection, and then the end. -/
theorem after_disconnect_sample : ∃ s s' : State,
    stopping.run [.setConnecting, .dial true, .setOpen, .readMessage [7], .push, .readError, .test]
      s = some s' ∧ s'.connection = s.connection + 1 ∧
    (s'.listen = .closing ∨ s'.listen = .done) := by
  have h := @after_disconnect ⟨.passed, .opened, false, 1, [.cleared], [], none⟩
    ⟨.closing, .opened, false, 2, [.cleared], [(2, [7])], none⟩
    [.setConnecting, .dial true, .setOpen, .readMessage [7], .push, .readError, .test] rfl rfl
  exact ⟨_, _, rfl, h.1, h.2.2.1 (by decide)⟩

/-! ## In calm runs -/

/-- What the ready state should be, also after a `Stop`. -/
def State.status (s : State) : ReadyState := if s.shouldReconnect then s.listen.status else .closed

/-- The flag is cleared by a `Stop`, which then sets the state to CLOSED. -/
def Cleared (s : State) : Prop :=
  s.shouldReconnect = false →
    (∃ p ∈ s.stops, p ≠ .called) ∧ (s.readyState = .closed ∨ .cleared ∈ s.stops)

/-- A `Stop` that moves on has looked at the ready state. -/
theorem looked_set {i : Nat} {p p' : Stop} (hp : s.stops[i]? = some p) (hne : p' ≠ .called) :
    ∃ q ∈ s.stops.set i p', q ≠ .called :=
  ⟨p', List.mem_set (List.getElem?_eq_some_iff.mp hp).1 p', hne⟩

/-- A `Stop` that moves on, but neither from nor to `cleared`. -/
theorem Cleared.set (h : Cleared s) {i : Nat} {p p' : Stop} (hp : s.stops[i]? = some p)
    (hne : p ≠ .cleared) (hcalled : p' ≠ .called) :
    Cleared { s with stops := s.stops.set i p' } := fun hf =>
  ⟨looked_set hp hcalled, (h hf).2.imp_right (mem_set_of_ne hp hne p')⟩

/-- The step lemma for `Stop`. -/
theorem Cleared.stopStep (h : Cleared s) {i : Nat} {p : Stop} (hp : s.stops[i]? = some p)
    (hs : stopStep i s p = some s') : Cleared s' := by
  cases p with
  | called =>
    cases hs
    split
    · exact h.set hp nofun nofun
    · exact h.set hp nofun nofun
  | sawOpen =>
    cases hs
    exact h.set hp nofun nofun
  | frameSent =>
    cases hs
    have hmem := List.mem_set (List.getElem?_eq_some_iff.mp hp).1 Stop.cleared
    exact fun _ => ⟨⟨_, hmem, nofun⟩, Or.inr hmem⟩
  | cleared =>
    cases hs
    exact fun _ => ⟨looked_set hp nofun, Or.inl rfl⟩
  | leaving =>
    cases hs
    exact h.set hp nofun nofun
  | returned => cases hs

/-- Once the flag is cleared, `Listen` is not reconnecting. -/
theorem Cleared.not_reconnecting (h : Cleared s) (hi : Inv s) (hf : s.shouldReconnect = false) :
    s.listen.reconnecting = false := by
  obtain ⟨⟨p, hp, hne⟩, -⟩ := h hf
  exact (hi.looked p hp hne).1

/-- The step lemma. -/
theorem Cleared.step (h : Cleared s) (hi : Inv s) (hs : step a s = some s') : Cleared s' := by
  cases step_effect hs with
  | readMessage | readError | passed | ended | dialled | timedOut | rxClosed | pushed
    | dialFailed => exact h
  | setConnecting hl | opened hl =>
    intro hf
    have hr := h.not_reconnecting hi hf
    rw [hl] at hr
    cases hr
  | setClosed => exact fun hf => ⟨(h hf).1, Or.inl rfl⟩
  | callStop =>
    intro hf
    obtain ⟨⟨p, hp, hne⟩, hready⟩ := h hf
    exact ⟨⟨p, List.mem_append_left _ hp, hne⟩, hready.imp_right (List.mem_append_left _)⟩
  | stop hp hstep => exact h.stopStep hp hstep

theorem inv_start : Inv start :=
  ⟨fun _ => Or.inl rfl, by simp [start], by simp [start], by simp [start], by simp [start],
    by simp [start]⟩

/-- **The status in calm runs**: right before and after a `Stop`, but for the moment between the two
last writes of `Disconnect`. -/
theorem calm_status (hr : stopping.ReachableBy Calm s) (hstops : .cleared ∉ s.stops) :
    s.readyState = s.status := by
  have hinv : Inv s ∧ Cleared s := by
    refine hr.invariant (I := fun s => Inv s ∧ Cleared s) ?_ fun s a s' h hcalm hs =>
      ⟨h.1.step hcalm hs, h.2.step h.1 hs⟩
    rintro s rfl
    exact ⟨inv_start, nofun⟩
  unfold State.status
  cases hf : s.shouldReconnect with
  | true => exact (reachable_exact (hr.mono fun _ _ _ => trivial) hf).1
  | false => exact (hinv.2 hf).2.resolve_right hstops

end

/-- A `Stop` while a message is on its way. -/
theorem calm_status_sample : ∃ s, stopping.ReachableBy Calm s ∧ s.readyState = s.status ∧
    s.listen = .sending [7] ∧ s.status = .closed := by
  obtain ⟨s, hr, hs⟩ := System.exists_reachableBy (M := stopping) (G := Calm)
    (g := fun s a => decide (Calm s a)) (fun _ _ => of_decide_eq_true) (s := start) rfl
    [.readMessage [7], .callStop, .stop 0, .stop 0, .stop 0, .stop 0]
    (fun s => decide (.cleared ∉ s.stops) && decide (s.listen = .sending [7]) &&
      decide (s.status = .closed)) (by decide +kernel)
  simp only [Bool.and_eq_true, decide_eq_true_eq] at hs
  exact ⟨s, hr, calm_status hr hs.1.1, hs.1.2, hs.2⟩

end SigningAgent.Hub.Stopping
