import SigningAgent.Hub.Feed

/-!
# Is `Stop` final?

`Listen` in the steps that read and write the fields it shares with `Stop`, with `Connect` and
`dial` inside it, and any number of `Stop` calls. `Feed.lean` has the same loop with its
reconnections left to the environment (`step_source`).

* `ReadMessage` may fail at any time, after the close frame as well as before it.
* `connection` counts the successful dials; the connection that `Run` has opened is the first.
* `stoppedAt` is the connection when the first `Stop` returned; `put` are the messages put into
  `rxMessages`, with the connections they were read from.

`Stop` looks at the ready state once, and does nothing unless it is OPEN; then it writes the close
frame, clears `shouldReconnect` and sets the state to CLOSED. While the source is reconnecting the
state is CONNECTING, and a `Stop` then has no effect at all (`open_after_stop`). `Calm` is the
condition on a step:

* no `Stop` looks at the ready state while `Listen` is between the test of `shouldReconnect` and
  the end of `Connect`;
* `Listen` does not pass that test while a `Stop` is between its look and clearing the flag.

**`stop_is_final`**: in every run whose steps all meet `Calm`, once a `Stop` has returned there is
no further successful dial, the state is not OPEN, and nothing is put from a later connection.
-/

namespace SigningAgent.Hub.Stopping

open Transition

/-- `ConnectionState`. -/
inductive ReadyState where
  | closed
  | connecting
  | opened
  deriving DecidableEq, Repr

/-- Where `Listen` is. -/
inductive Listen where
  /-- in `ReadMessage` -/
  | reading
  /-- after a read error, before the test of `shouldReconnect` -/
  | failed
  /-- before `setReadyState` of `Connect` -/
  | passed
  /-- in the loop of `Connect` -/
  | connecting
  /-- in `dial`, before `setReadyState` -/
  | dialled
  /-- after the loop of `Connect`, before `setReadyState` -/
  | timedOut
  /-- in `w.rxMessages <- message` -/
  | sending (m : Bytes)
  /-- before the deferred `close(w.rxMessages)` -/
  | closing
  | done
  deriving DecidableEq

/-- Where a `Stop` is. -/
inductive Stop where
  /-- before `GetReadyState` -/
  | called
  /-- in `Disconnect`, before the close frame -/
  | sawOpen
  /-- before `w.shouldReconnect = false` -/
  | frameSent
  /-- before `setReadyState` -/
  | cleared
  /-- before it returns -/
  | leaving
  | returned
  deriving DecidableEq

structure State where
  listen : Listen
  readyState : ReadyState
  shouldReconnect : Bool
  connection : Nat
  stops : List Stop
  put : List (Nat × Bytes)
  stoppedAt : Option Nat

inductive Label where
  | readMessage (m : Bytes)
  | readError
  | test
  | setConnecting
  | dial (ok : Bool)
  | timeOut
  | setOpen
  | setClosed
  | push
  | closeRx
  /-- `Stop` is called -/
  | callStop
  /-- the next step of a `Stop` -/
  | stop (i : Nat)
  deriving DecidableEq

namespace Listen

/-- Between the test of `shouldReconnect` and the end of `Connect`. -/
def reconnecting : Listen → Bool
  | .passed | .connecting | .dialled => true
  | _ => false

/-- In the loop of `Listen`, with a connection. -/
def connected : Listen → Bool
  | .reading | .failed | .sending _ => true
  | _ => false

end Listen

/-- Between the look at the ready state and clearing `shouldReconnect`. -/
def Stop.clearing : Stop → Bool
  | .sawOpen | .frameSent => true
  | _ => false

/-- The ready state has been looked at, and changed if it is to be. -/
def Stop.finished : Stop → Bool
  | .leaving | .returned => true
  | _ => false

/-- The step of `Stop` number `i`, so far `p`. -/
def stopStep (i : Nat) (s : State) : Stop → Option State
  | .called => some { s with
      stops := s.stops.set i (if s.readyState = .opened then .sawOpen else .leaving) }
  | .sawOpen => some { s with stops := s.stops.set i .frameSent }
  | .frameSent => some { s with stops := s.stops.set i .cleared, shouldReconnect := false }
  | .cleared => some { s with stops := s.stops.set i .leaving, readyState := .closed }
  | .leaving => some { s with
      stops := s.stops.set i .returned
      stoppedAt := s.stoppedAt.or (some s.connection) }
  | .returned => none

def step : Label → State → Option State
  | .readMessage m, s =>
    match s.listen with
    | .reading => some { s with listen := .sending m }
    | _ => none
  | .readError, s =>
    match s.listen with
    | .reading => some { s with listen := .failed }
    | _ => none
  | .test, s =>
    match s.listen with
    | .failed => some { s with listen := if s.shouldReconnect then .passed else .closing }
    | _ => none
  | .setConnecting, s =>
    match s.listen with
    | .passed => some { s with listen := .connecting, readyState := .connecting }
    | _ => none
  | .dial ok, s =>
    match s.listen with
    | .connecting =>
      if ok then some { s with listen := .dialled, connection := s.connection + 1 } else some s
    | _ => none
  | .timeOut, s =>
    match s.listen with
    | .connecting => some { s with listen := .timedOut }
    | _ => none
  | .setOpen, s =>
    match s.listen with
    | .dialled => some { s with listen := .reading, readyState := .opened }
    | _ => none
  | .setClosed, s =>
    match s.listen with
    | .timedOut => some { s with listen := .closing, readyState := .closed }
    | _ => none
  | .push, s =>
    match s.listen with
    | .sending m => some { s with listen := .reading, put := s.put ++ [(s.connection, m)] }
    | _ => none
  | .closeRx, s =>
    match s.listen with
    | .closing => some { s with listen := .done }
    | _ => none
  | .callStop, s => some { s with stops := s.stops ++ [.called] }
  | .stop i, s => s.stops[i]?.bind (stopStep i s)

/-- `Run` has returned true. -/
def start : State := ⟨.reading, .opened, true, 1, [], [], none⟩

/-- All interleavings of `Listen` and `Stop` calls after a successful `Run`. -/
def stopping : System State Label where
  init s := s = start
  step := step

/-- After a `Stop` has returned: no further dial, not OPEN, nothing from a later connection. -/
def Final (s : State) : Prop :=
  ∀ n, s.stoppedAt = some n →
    s.connection = n ∧ s.readyState ≠ .opened ∧ ∀ p ∈ s.put, p.1 ≤ n

/-- The condition on a step: see the header. -/
def Calm (s : State) : Label → Prop
  | .stop i => s.stops[i]? = some .called → s.listen.reconnecting = false
  | .test => s.shouldReconnect = true → ∀ p ∈ s.stops, p.clearing = false
  | _ => True

instance (s : State) : ∀ a, Decidable (Calm s a)
  | .stop _ | .test => by unfold Calm; infer_instance
  | .readMessage _ | .readError | .setConnecting | .dial _ | .timeOut | .setOpen | .setClosed
  | .push | .closeRx | .callStop => isTrue trivial

/-! ## What a step can do -/

/-- The steps of `Listen`, and those of a `Stop`. -/
inductive Effect (s : State) : Label → State → Prop
  | readMessage {m : Bytes} : s.listen = .reading →
      Effect s (.readMessage m) { s with listen := .sending m }
  | readError : s.listen = .reading → Effect s .readError { s with listen := .failed }
  | passed : s.listen = .failed → s.shouldReconnect = true →
      Effect s .test { s with listen := .passed }
  | ended : s.listen = .failed → s.shouldReconnect = false →
      Effect s .test { s with listen := .closing }
  | setConnecting : s.listen = .passed →
      Effect s .setConnecting { s with listen := .connecting, readyState := .connecting }
  | dialled : s.listen = .connecting → Effect s (.dial true)
      { s with listen := .dialled, connection := s.connection + 1 }
  | dialFailed : s.listen = .connecting → Effect s (.dial false) s
  | timedOut : s.listen = .connecting → Effect s .timeOut { s with listen := .timedOut }
  | opened : s.listen = .dialled →
      Effect s .setOpen { s with listen := .reading, readyState := .opened }
  | setClosed : s.listen = .timedOut →
      Effect s .setClosed { s with listen := .closing, readyState := .closed }
  | pushed {m : Bytes} : s.listen = .sending m → Effect s .push
      { s with listen := .reading, put := s.put ++ [(s.connection, m)] }
  | rxClosed : s.listen = .closing → Effect s .closeRx { s with listen := .done }
  | callStop : Effect s .callStop { s with stops := s.stops ++ [.called] }
  | stop {i : Nat} {p : Stop} {s' : State} : s.stops[i]? = some p → stopStep i s p = some s' →
      Effect s (.stop i) s'

/-- **Inversion.** -/
theorem step_effect {a : Label} {s s' : State} (hs : step a s = some s') : Effect s a s' := by
  unfold step at hs
  split at hs
  · split at hs <;> cases hs
    exact .readMessage ‹_›
  · split at hs <;> cases hs
    exact .readError ‹_›
  · split at hs <;> cases hs
    by_cases hf : s.shouldReconnect = true
    · rw [if_pos hf]
      exact .passed ‹_› hf
    · rw [if_neg hf]
      exact .ended ‹_› (by simpa using hf)
  · split at hs <;> cases hs
    exact .setConnecting ‹_›
  · rename_i ok
    split at hs
    · cases ok <;> cases hs
      · exact .dialFailed ‹_›
      · exact .dialled ‹_›
    · cases hs
  · split at hs <;> cases hs
    exact .timedOut ‹_›
  · split at hs <;> cases hs
    exact .opened ‹_›
  · split at hs <;> cases hs
    exact .setClosed ‹_›
  · split at hs <;> cases hs
    exact .pushed ‹_›
  · split at hs <;> cases hs
    exact .rxClosed ‹_›
  · cases hs
    exact .callStop
  · obtain ⟨p, hp, hs⟩ := Option.bind_eq_some_iff.mp hs
    exact .stop hp hs

/-! ## The loop of `Feed.lean` -/

/-- The loop as `Feed.lean` sees it. -/
def Listen.source : Listen → Source
  | .reading | .failed | .passed | .connecting | .dialled => .reading
  | .sending m => .sending m
  | .timedOut | .closing => .closing
  | .done => .done

/-- The step of `Feed.lean` that a step stands for: an error is answered when the source reads
again, or gives up. -/
def feedLabel (s : State) : Label → Option Hub.Label
  | .readMessage m => some (.readMessage m)
  | .test => if s.shouldReconnect then none else some (.readError false)
  | .timeOut => some (.readError false)
  | .setOpen => some (.readError true)
  | .push => some .push
  | .closeRx => some .closeRx
  | _ => none

/-- A step changes nothing that `Feed.lean` sees, or is one of its steps there, if `rxMessages` is
open and has room. -/
def Simulated (s s' : State) : Option Hub.Label → Prop
  | none => s'.listen.source = s.listen.source
  | some b => ∀ h : Hub.State, h.source = s.listen.source → h.rxClosed = false →
      h.buffer = none → ∃ h', Hub.step b h = some h' ∧ h'.source = s'.listen.source

/-- **The loop of `Feed.lean` simulates `Listen`.** -/
theorem step_source {a : Label} {s s' : State} (hs : step a s = some s') :
    Simulated s s' (feedLabel s a) := by
  cases step_effect hs with
  | readError h | setConnecting h | dialled h | setClosed h =>
    simp [feedLabel, Simulated, Listen.source, h]
  | passed h hf => simp [feedLabel, Simulated, Listen.source, h, hf]
  | dialFailed h | callStop => rfl
  | @stop i p s' hp hs =>
    cases p <;> cases hs <;> rfl
  | readMessage h | timedOut h | opened h =>
    intro t ht _ _
    simp [Hub.step, ht, h, Listen.source]
  | pushed h | rxClosed h =>
    intro t ht hrx hb
    simp [Hub.step, ht, h, hrx, hb, Listen.source]
  | ended h hf =>
    simp only [feedLabel, hf]
    intro t ht _ _
    simp [Hub.step, ht, h, Listen.source]

/-! ## The invariant -/

/-- What a `Stop` that has looked at the ready state can rely on: `Listen` is not reconnecting, and
before it could, the flag will be cleared. -/
def Settling (s : State) : Prop :=
  s.listen.reconnecting = false ∧
    (s.listen.connected = true →
      s.shouldReconnect = false ∨ ∃ q ∈ s.stops, q.clearing = true)

structure Inv (s : State) : Prop where
  ready : s.listen.connected = true → s.readyState = .opened ∨ s.shouldReconnect = false
  looked : ∀ p ∈ s.stops, p ≠ .called → Settling s
  cleared : .cleared ∈ s.stops → s.shouldReconnect = false
  finished : ∀ p ∈ s.stops, p.finished = true → s.readyState ≠ .opened
  returned : ∀ n, s.stoppedAt = some n → s.connection = n ∧ .returned ∈ s.stops
  put : ∀ p ∈ s.put, p.1 ≤ s.connection

theorem Inv.final {s : State} (hi : Inv s) : Final s := by
  intro n hn
  obtain ⟨rfl, hmem⟩ := hi.returned n hn
  exact ⟨rfl, hi.finished _ hmem rfl, hi.put⟩

section

variable {s s' : State}

/-- A step of `Listen`. Once a `Stop` has looked, it neither goes on to reconnect, nor comes back to
the loop, nor sets the state to OPEN. -/
theorem Inv.listen (hi : Inv s) {l : Listen} {r : ReadyState} {n : Nat} {ps : List (Nat × Bytes)}
    (hready : l.connected = true → r = .opened ∨ s.shouldReconnect = false)
    (hsettling : Settling s → l.reconnecting = false ∧
      (l.connected = true → s.listen.connected = true) ∧
      (r = .opened → s.readyState = .opened) ∧ n = s.connection)
    (hput : ∀ p ∈ ps, p.1 ≤ n) :
    Inv { s with listen := l, readyState := r, connection := n, put := ps } := by
  refine ⟨hready, fun p hp hne => ?_, hi.cleared, fun p hp hf ho => ?_, fun k hk => ?_, hput⟩
  · have hs := hi.looked p hp hne
    obtain ⟨hreconnecting, hconnected, -⟩ := hsettling hs
    exact ⟨hreconnecting, fun hc => hs.2 (hconnected hc)⟩
  · have hne : p ≠ .called := by
      rintro rfl
      cases hf
    obtain ⟨-, -, hopened, -⟩ := hsettling (hi.looked p hp hne)
    exact hi.finished p hp hf (hopened ho)
  · obtain ⟨rfl, hmem⟩ := hi.returned k hk
    obtain ⟨-, -, -, hn⟩ := hsettling (hi.looked _ hmem nofun)
    exact ⟨hn, hmem⟩

/-- `Listen` is reconnecting, so no `Stop` has looked yet. -/
theorem not_settling (h : s.listen.reconnecting = true) : ¬ Settling s := by
  rintro ⟨hr, -⟩
  rw [h] at hr
  cases hr

/-- A `Stop` that goes on leaves the flag to be cleared, if it was. -/
theorem exists_clearing {l : List Stop} {i : Nat} {p p' : Stop} (hp : l[i]? = some p)
    (hclearing : p.clearing = true → p'.clearing = true) (h : ∃ q ∈ l, q.clearing = true) :
    ∃ q ∈ l.set i p', q.clearing = true := by
  obtain ⟨q, hq, hqc⟩ := h
  obtain ⟨k, hk⟩ := List.mem_iff_getElem?.mp hq
  by_cases hki : i = k
  · subst hki
    obtain rfl : p = q := Option.some.inj (hp.symm.trans hk)
    have hlt := (List.getElem?_eq_some_iff.mp hp).1
    exact ⟨p', List.mem_set hlt p', hclearing hqc⟩
  · exact ⟨q, List.mem_of_getElem? ((List.getElem?_set_ne hki).trans hk), hqc⟩

/-- A `Stop` that has returned stays so while another one goes on. -/
theorem returned_mem {l : List Stop} {i : Nat} {p : Stop} (hp : l[i]? = some p)
    (hne : p ≠ .returned) (p' : Stop) (h : .returned ∈ l) : .returned ∈ l.set i p' := by
  obtain ⟨k, hk⟩ := List.mem_iff_getElem?.mp h
  by_cases hki : i = k
  · subst hki
    exact absurd (Option.some.inj (hp.symm.trans hk)) hne
  · exact List.mem_of_getElem? ((List.getElem?_set_ne hki).trans hk)

/-- A `Stop` that moves on, but not to `cleared`, clears nothing. -/
theorem Inv.cleared_set (hi : Inv s) {i : Nat} {p' : Stop} (hne : .cleared ≠ p')
    (hc : .cleared ∈ s.stops.set i p') : s.shouldReconnect = false :=
  hi.cleared ((List.mem_or_eq_of_mem_set hc).resolve_right hne)

/-- A `Stop` that moves on, but not to its end, finishes nothing. -/
theorem Inv.finished_set (hi : Inv s) {i : Nat} {p' : Stop} (hf : p'.finished = false) :
    ∀ q ∈ s.stops.set i p', q.finished = true → s.readyState ≠ .opened := by
  intro q hq hqf
  rcases List.mem_or_eq_of_mem_set hq with hq | rfl
  · exact hi.finished q hq hqf
  · rw [hf] at hqf
    cases hqf

/-- A `Stop` that moves on leaves those that have returned. -/
theorem Inv.returned_set (hi : Inv s) {i : Nat} {p : Stop} (hp : s.stops[i]? = some p)
    (hne : p ≠ .returned) (p' : Stop) :
    ∀ n, s.stoppedAt = some n → s.connection = n ∧ .returned ∈ s.stops.set i p' := fun n hn =>
  ⟨(hi.returned n hn).1, returned_mem hp hne p' (hi.returned n hn).2⟩

/-- `Stop` looks at the ready state: OPEN. -/
theorem Inv.sawOpen (hi : Inv s) {i : Nat} (hp : s.stops[i]? = some .called)
    (hcalm : s.listen.reconnecting = false) : Inv { s with stops := s.stops.set i .sawOpen } := by
  have hmem : .sawOpen ∈ s.stops.set i .sawOpen :=
    List.mem_set (List.getElem?_eq_some_iff.mp hp).1 _
  exact ⟨hi.ready, fun _ _ _ => ⟨hcalm, fun _ => Or.inr ⟨_, hmem, rfl⟩⟩, hi.cleared_set nofun,
    hi.finished_set rfl, hi.returned_set hp nofun _, hi.put⟩

/-- `Stop` looks at the ready state: not OPEN, so it returns without doing anything. -/
theorem Inv.sawClosed (hi : Inv s) {i : Nat} (hp : s.stops[i]? = some .called)
    (hcalm : s.listen.reconnecting = false) (hopen : s.readyState ≠ .opened) :
    Inv { s with stops := s.stops.set i .leaving } :=
  ⟨hi.ready, fun _ _ _ => ⟨hcalm, fun hc => Or.inl ((hi.ready hc).resolve_left hopen)⟩,
    hi.cleared_set nofun, fun _ _ _ => hopen, hi.returned_set hp nofun _, hi.put⟩

/-- The close frame. -/
theorem Inv.frameSent (hi : Inv s) {i : Nat} (hp : s.stops[i]? = some .sawOpen) :
    Inv { s with stops := s.stops.set i .frameSent } := by
  have hs := hi.looked _ (List.mem_of_getElem? hp) nofun
  exact ⟨hi.ready,
    fun _ _ _ => ⟨hs.1, fun hc => (hs.2 hc).imp_right (exists_clearing hp fun _ => rfl)⟩,
    hi.cleared_set nofun, hi.finished_set rfl, hi.returned_set hp nofun _, hi.put⟩

/-- `w.shouldReconnect = false`. -/
theorem Inv.clear (hi : Inv s) {i : Nat} (hp : s.stops[i]? = some .frameSent) :
    Inv { s with stops := s.stops.set i .cleared, shouldReconnect := false } := by
  have hs := hi.looked _ (List.mem_of_getElem? hp) nofun
  exact ⟨fun _ => Or.inr rfl, fun _ _ _ => ⟨hs.1, fun _ => Or.inl rfl⟩, fun _ => rfl,
    hi.finished_set rfl, hi.returned_set hp nofun _, hi.put⟩

/-- `setReadyState` to CLOSED: the flag has been cleared before. -/
theorem Inv.setClosed (hi : Inv s) {i : Nat} (hp : s.stops[i]? = some .cleared) :
    Inv { s with stops := s.stops.set i .leaving, readyState := .closed } := by
  have hmem := List.mem_of_getElem? hp
  have hs := hi.looked _ hmem nofun
  have hflag := hi.cleared hmem
  exact ⟨fun _ => Or.inr hflag, fun _ _ _ => ⟨hs.1, fun _ => Or.inl hflag⟩, fun _ => hflag,
    fun _ _ _ => nofun, hi.returned_set hp nofun _, hi.put⟩

/-- `Stop` returns. -/
theorem Inv.return (hi : Inv s) {i : Nat} (hp : s.stops[i]? = some .leaving) :
    Inv { s with
      stops := s.stops.set i .returned
      stoppedAt := s.stoppedAt.or (some s.connection) } := by
  have hmem := List.mem_of_getElem? hp
  have hs := hi.looked _ hmem nofun
  have hopen := hi.finished _ hmem rfl
  refine ⟨hi.ready, fun _ _ _ => ⟨hs.1, fun hc => Or.inl ((hi.ready hc).resolve_left hopen)⟩,
    hi.cleared_set nofun, fun _ _ _ => hopen,
    fun n hn => ⟨?_, List.mem_set (List.getElem?_eq_some_iff.mp hp).1 _⟩, hi.put⟩
  · cases hstopped : s.stoppedAt with
    | none => simpa [hstopped] using hn
    | some k =>
      obtain rfl : k = n := by simpa [hstopped] using hn
      exact (hi.returned k hstopped).1

/-- The step lemma for `Stop`. -/
theorem Inv.stopStep (hi : Inv s) {i : Nat} {p : Stop} (hp : s.stops[i]? = some p)
    (hcalm : Calm s (.stop i)) (hs : stopStep i s p = some s') : Inv s' := by
  cases p with
  | called =>
    cases hs
    by_cases ho : s.readyState = .opened
    · rw [if_pos ho]
      exact hi.sawOpen hp (hcalm hp)
    · rw [if_neg ho]
      exact hi.sawClosed hp (hcalm hp) ho
  | sawOpen =>
    cases hs
    exact hi.frameSent hp
  | frameSent =>
    cases hs
    exact hi.clear hp
  | cleared =>
    cases hs
    exact hi.setClosed hp
  | leaving =>
    cases hs
    exact hi.return hp
  | returned => cases hs

/-- The step lemma. -/
theorem Inv.step (hi : Inv s) {a : Label} (hcalm : Calm s a) (hs : step a s = some s') :
    Inv s' := by
  cases step_effect hs with
  | readMessage h | readError h =>
    refine hi.listen (fun _ => hi.ready (by rw [h]; rfl)) (fun _ => ?_) hi.put
    exact ⟨rfl, fun _ => by rw [h]; rfl, id, rfl⟩
  | passed h hf =>
    refine hi.listen nofun (fun hset => ?_) hi.put
    -- no `Stop` that has looked is yet to clear the flag
    rcases hset.2 (by rw [h]; rfl) with hflag | ⟨q, hq, hqc⟩
    · rw [hf] at hflag
      cases hflag
    · rw [hcalm hf q hq] at hqc
      cases hqc
  | ended h hf | timedOut h | rxClosed h =>
    exact hi.listen nofun (fun _ => ⟨rfl, nofun, id, rfl⟩) hi.put
  | setConnecting h =>
    exact hi.listen nofun (fun hset => absurd hset (not_settling (by rw [h]; rfl))) hi.put
  | dialled h =>
    refine hi.listen nofun (fun hset => absurd hset (not_settling (by rw [h]; rfl))) fun p hp => ?_
    exact Nat.le_succ_of_le (hi.put p hp)
  | dialFailed h => exact hi
  | opened h =>
    exact hi.listen (fun _ => Or.inl rfl)
      (fun hset => absurd hset (not_settling (by rw [h]; rfl))) hi.put
  | setClosed h => exact hi.listen nofun (fun _ => ⟨rfl, nofun, nofun, rfl⟩) hi.put
  | pushed h =>
    refine hi.listen (fun _ => hi.ready (by rw [h]; rfl))
      (fun _ => ⟨rfl, fun _ => by rw [h]; rfl, id, rfl⟩) fun p hp => ?_
    rcases List.mem_append.mp hp with hp | hp
    · exact hi.put p hp
    · rw [List.mem_singleton.mp hp]
  | callStop =>
    have hold : ∀ p : Stop, p ∈ s.stops ++ [.called] → p ≠ .called → p ∈ s.stops := by
      intro p hp hne
      rcases List.mem_append.mp hp with hp | hp
      · exact hp
      · exact absurd (List.mem_singleton.mp hp) hne
    refine ⟨hi.ready, fun p hp hne => ?_, fun hc => hi.cleared (hold _ hc nofun),
      fun p hp hf => hi.finished p (hold p hp ?_) hf,
      fun n hn => ⟨(hi.returned n hn).1, List.mem_append_left _ (hi.returned n hn).2⟩, hi.put⟩
    · obtain ⟨hr, hc⟩ := hi.looked p (hold p hp hne) hne
      refine ⟨hr, fun hconn => (hc hconn).imp_right ?_⟩
      rintro ⟨q, hq, hqc⟩
      exact ⟨q, List.mem_append_left _ hq, hqc⟩
    · rintro rfl
      cases hf
  | stop hp hstep => exact hi.stopStep hp hcalm hstep

end

/-- **`Stop` is final** in every run whose steps all meet `Calm`. -/
theorem stop_is_final {s : State} (hr : stopping.ReachableBy Calm s) : Final s := by
  have hi : Inv s := by
    refine hr.invariant ?_ fun s a s' hi hcalm hs => hi.step hcalm hs
    rintro s rfl
    exact ⟨fun _ => Or.inl rfl, by simp [start], by simp [start], by simp [start],
      by simp [start], by simp [start]⟩
  exact hi.final

/-- A reconnection, and then a `Stop` while a message of the new connection is on its way. -/
theorem stop_is_final_sample :
    ∃ s, stopping.ReachableBy Calm s ∧ Final s ∧ s.stoppedAt = some 2 ∧ s.put = [(2, [7])] ∧
      s.listen = .done := by
  obtain ⟨s, hr, hs⟩ := System.exists_reachableBy (M := stopping) (G := Calm)
    (g := fun s a => decide (Calm s a)) (fun _ _ => of_decide_eq_true) (s := start) rfl
    [.readError, .test, .setConnecting, .dial false, .dial true, .setOpen, .readMessage [7],
      .callStop, .stop 0, .stop 0, .stop 0, .stop 0, .stop 0, .push, .readError, .test, .closeRx]
    (fun s => decide (s.stoppedAt = some 2) && decide (s.put = [(2, [7])]) &&
      decide (s.listen = .done)) (by decide +kernel)
  simp only [Bool.and_eq_true, decide_eq_true_eq] at hs
  exact ⟨s, hr, stop_is_final hr, hs.1.1, hs.1.2, hs.2⟩

/-- **Open after `Stop`.** A `Stop` while the source is reconnecting does nothing; the next dial
succeeds, and the source is OPEN again. -/
theorem open_after_stop : ¬ ∀ s, stopping.Reachable s → Final s := by
  intro hall
  obtain ⟨s, hr, hs⟩ := System.exists_reachable (M := stopping) (s := start) rfl
    [.readError, .test, .setConnecting, .callStop, .stop 0, .stop 0, .dial true, .setOpen]
    (fun s => decide (s.stoppedAt = some 1) && decide (s.readyState = .opened))
    (by decide +kernel)
  simp only [Bool.and_eq_true, decide_eq_true_eq] at hs
  exact (hall s hr 1 hs.1).2.1 hs.2

end SigningAgent.Hub.Stopping
