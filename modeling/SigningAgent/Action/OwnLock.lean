import SigningAgent.Action.Handlers

/-!
# Is an action signed under its own lock?

`a.mutex` is one field of the agent's `syncronize`. `ShouldHandleAction` sets it, `AcquireLock` and
`Release` use what is in it then, and between these calls of one handler the other handlers of the
agent make theirs. So a handler may lock the mutex of another action, and unlock one that it has
not locked (`other_lock`). Here each of the three calls is one step:

* `AcquireLock` reads the field and locks what is in it at once (`acquireLock`); while the key is
  taken the step is not enabled.
* `Release` unlocks what is in the field and writes the marker (`release`).

`OwnLock` says that a handler at its signer call holds the lock of its action, and that its
`Release` undoes just this lock. `Undisturbed` is the condition on a step:

* no handler passes the check while another one of its agent is between `AcquireLock` and
  `Release`, or has passed the check for another action and not locked yet;
* no marker and no cached message is written over a lock that is held. A mutex is named by the
  action alone, so the keys of an action `"action_v2:" ++ x` or `"transaction:" ++ x` meet those
  of `x`.

**`own_lock`**: in every run whose steps all meet `Undisturbed`, `OwnLock` holds in every state.
The invariant is `Locking`: the field points to a mutex of the action from the check on, and to the
one that the handler locked from `AcquireLock` on.
-/

namespace SigningAgent.Action

open Transition

/-- The calls of a handler, each one step. -/
inductive Call where
  | enter (agent : Nat) (caller : Caller) (actionID : String)
  | shouldHandleAction (h : Nat)
  | acquireLock (h : Nat) (ok : Bool)
  | sign (h : Nat) (answer : Answer)
  | release (h : Nat)
  | expire (key : String)
  deriving DecidableEq, Repr

/-- The steps of a call. -/
def callStep (cfg : Config) : Call → State → Option State
  | .enter agent caller actionID, s => step cfg (.enter agent caller actionID) s
  | .shouldHandleAction h, s => step cfg (.move h .check) s
  | .acquireLock h ok, s =>
    (step cfg (.move h .acquire) s).bind (step cfg (.move h (.lock ok)))
  | .sign h answer, s => step cfg (.move h (.sign answer)) s
  | .release h, s => (step cfg (.move h .unlock) s).bind (step cfg (.move h .mark))
  | .expire key, s => step cfg (.expire key) s

/-- All interleavings of the calls, under load balancing. -/
def calling (messageCache : Bool) : System State Call where
  init s := s = start
  step := callStep ⟨true, messageCache⟩

/-- Between `AcquireLock` and `Release`. -/
def Phase.holding : Phase → Bool
  | .locked | .signed _ => true
  | _ => false

/-- A handler signs under the lock of its action, which it took, and its `Release` deletes this
lock and touches no other. -/
structure OwnLock (s : State) : Prop where
  held : ∀ (h : Nat) (c : Handler), s.handlers[h]? = some c → c.phase.holding = true →
    s.sync.redis c.actionID = some (.lock h)
  released : ∀ (h : Nat) (c : Handler), s.handlers[h]? = some c → c.phase.holding = true →
    s.sync.unlock c.agent =
      { s.sync with redis := Function.update s.sync.redis c.actionID none }

/-- The condition on a step: see the header. -/
def Undisturbed (messageCache : Bool) (s : State) : Call → Prop
  | .shouldHandleAction h => ∀ c ∈ s.handlers[h]?, s.sync.redis (getKey c.actionID) = none →
      ∀ d ∈ s.handlers.eraseIdx h, d.agent = c.agent →
        d.phase.holding = false ∧ (d.phase = .passed → d.actionID = c.actionID)
  | .sign h .ok => ∀ c ∈ s.handlers[h]?, messageCache = true ∧ c.caller ≠ .message →
      ∀ d ∈ s.handlers, d.phase.holding = true → d.actionID ≠ messageKey c.actionID
  | .release h => ∀ c ∈ s.handlers[h]?,
      ∀ d ∈ s.handlers, d.phase.holding = true → d.actionID ≠ getKey c.actionID
  | _ => True

instance (messageCache : Bool) (s : State) : ∀ a, Decidable (Undisturbed messageCache s a)
  | .shouldHandleAction _ | .sign _ .ok | .release _ => by unfold Undisturbed; infer_instance
  | .sign _ .failed | .sign _ .retry | .enter .. | .acquireLock .. | .expire _ => isTrue trivial

/-! ## The atomic calls -/

section

variable {cfg : Config} {s s' : State} {h : Nat}

/-- The handlers after two steps of one of them. -/
theorem goto_goto (c : Handler) (p q : Phase) :
    (s.goto h c p).goto h { c with phase := p } q = s.goto h c q := by
  simp [State.goto]

theorem getElem?_goto {c : Handler} (hc : s.handlers[h]? = some c) (p : Phase) :
    (s.goto h c p).handlers[h]? = some { c with phase := p } :=
  List.getElem?_set_self (List.getElem?_eq_some_iff.mp hc).1

/-- `AcquireLock` locks the mutex that is in the field now, or gives up. -/
theorem acquireLock_cases {ok : Bool} (hs : callStep cfg (.acquireLock h ok) s = some s') :
    ∃ c m, s.handlers[h]? = some c ∧ c.phase = .passed ∧ s.sync.mutex c.agent = some m ∧
      ((∃ y, s.sync.lock m h = some y ∧ s' = { s.goto h c .locked with sync := y }) ∨
        s' = s.ret h c false) := by
  obtain ⟨t, ht, hs⟩ := Option.bind_eq_some_iff.mp hs
  obtain ⟨c, hc, he⟩ := Option.bind_eq_some_iff.mp ht
  have hphase : c.phase = .passed := by
    cases hp : c.phase with
    | passed => rfl
    | _ => simp [exec, hp] at he
  simp only [exec, hphase] at he
  obtain ⟨m, hm, rfl⟩ := Option.map_eq_some_iff.mp he
  obtain ⟨d, hd, he⟩ := Option.bind_eq_some_iff.mp hs
  obtain rfl : { c with phase := .waiting m } = d :=
    Option.some.inj ((getElem?_goto hc (.waiting m)).symm.trans hd)
  refine ⟨c, m, hc, hphase, hm, ?_⟩
  cases ok with
  | true =>
    obtain ⟨y, hy, rfl⟩ := Option.map_eq_some_iff.mp he
    exact Or.inl ⟨y, hy, by rw [goto_goto]⟩
  | false =>
    simp only [exec] at he
    split at he
    · cases he
      refine Or.inr ?_
      simp only [State.ret, goto_goto]
    · cases he

/-- And it does lock it, if the key is free. -/
theorem acquireLock_eq {c : Handler} {m : Nat} {y : Sync} (hc : s.handlers[h]? = some c)
    (hphase : c.phase = .passed) (hm : s.sync.mutex c.agent = some m)
    (hy : s.sync.lock m h = some y) :
    callStep cfg (.acquireLock h true) s = some { s.goto h c .locked with sync := y } := by
  have hacquire : step cfg (.move h .acquire) s = some (s.goto h c (.waiting m)) := by
    simp only [step, hc, Option.bind_some, exec, hphase, hm, Option.map_some]
  have hlock : (s.goto h c (.waiting m)).sync.lock m h = some y := hy
  rw [callStep, hacquire, Option.bind_some]
  simp only [step, getElem?_goto hc, Option.bind_some, exec, hlock, Option.map_some, goto_goto]

/-- `Release` unlocks the mutex that is in the field now, and writes the marker. -/
theorem release_cases (hlb : cfg.loadBalancingEnabled = true)
    (hs : callStep cfg (.release h) s = some s') :
    ∃ c ok, s.handlers[h]? = some c ∧ c.phase = .signed ok ∧
      s' = { s.ret h c ok with sync := (s.sync.unlock c.agent).setHandled c.actionID } := by
  obtain ⟨t, ht, hs⟩ := Option.bind_eq_some_iff.mp hs
  obtain ⟨c, hc, he⟩ := Option.bind_eq_some_iff.mp ht
  cases exec_effect hlb he with
  | @unlocked ok hphase =>
    obtain ⟨d, hd, he⟩ := Option.bind_eq_some_iff.mp hs
    obtain rfl : { c with phase := .unlocked ok } = d :=
      Option.some.inj ((getElem?_goto hc (.unlocked ok)).symm.trans hd)
    cases he
    refine ⟨c, ok, hc, hphase, ?_⟩
    simp [State.ret, State.goto, State.emit]

end

/-! ## The invariant -/

/-- The field points to a mutex of the handler's action. -/
def Named (y : Sync) (c : Handler) : Prop :=
  ∃ m x, y.mutex c.agent = some m ∧ y.mutexes[m]? = some x ∧ x.name = c.actionID

/-- The field points to the mutex that the handler locked, and the lock is still there. -/
def Held (y : Sync) (h : Nat) (c : Handler) : Prop :=
  y.redis c.actionID = some (.lock h) ∧
    ∃ m, y.mutex c.agent = some m ∧ y.mutexes[m]? = some ⟨c.actionID, some h⟩

/-- From the check to `AcquireLock`, and from there to `Release`. -/
structure Locking (s : State) : Prop where
  passed : ∀ (h : Nat) (c : Handler), s.handlers[h]? = some c → c.phase = .passed →
    Named s.sync c
  holding : ∀ (h : Nat) (c : Handler), s.handlers[h]? = some c → c.phase.holding = true →
    Held s.sync h c

theorem Held.unlock {y : Sync} {h : Nat} {c : Handler} (hh : Held y h c) :
    y.unlock c.agent = { y with redis := Function.update y.redis c.actionID none } := by
  obtain ⟨hr, m, hm, hx⟩ := hh
  exact Sync.unlock_own hm hx rfl hr

theorem Locking.ownLock {s : State} (hi : Locking s) : OwnLock s :=
  ⟨fun h c hc hp => (hi.holding h c hc hp).1, fun h c hc hp => (hi.holding h c hc hp).unlock⟩

section

variable {s s' : State} {h : Nat} {c : Handler}

/-- Handler `h` moves: what is to be shown of it, and of the others. -/
theorem Locking.move (hi : Locking s) {p : Phase} (hc : s.handlers[h]? = some c)
    (hh : s'.handlers = s.handlers.set h { c with phase := p })
    (hpassed : ∀ (g : Nat) (d : Handler), g ≠ h → s.handlers[g]? = some d → d.phase = .passed →
      Named s.sync d → Named s'.sync d)
    (hholding : ∀ (g : Nat) (d : Handler), g ≠ h → s.handlers[g]? = some d →
      d.phase.holding = true → Held s.sync g d → Held s'.sync g d)
    (hself : p = .passed → Named s'.sync { c with phase := p })
    (hselfHolding : p.holding = true → Held s'.sync h { c with phase := p }) : Locking s' := by
  constructor <;> intro g d hd hp <;> rw [hh] at hd <;>
    rcases getElem?_set_cases hd with ⟨rfl, rfl⟩ | ⟨hne, hd⟩
  · exact hself hp
  · exact hpassed g d hne hd hp (hi.passed g d hd hp)
  · exact hselfHolding hp
  · exact hholding g d hne hd hp (hi.holding g d hd hp)

/-- A handler that moves on without a call, or returns. -/
theorem Locking.quiet (hi : Locking s) {p : Phase} (hc : s.handlers[h]? = some c)
    (hh : s'.handlers = s.handlers.set h { c with phase := p }) (hy : s'.sync = s.sync)
    (hp : p ≠ .passed) (hph : p.holding = true → c.phase.holding = true) : Locking s' := by
  refine hi.move hc hh ?_ ?_ (fun he => absurd he hp) (fun he => ?_) <;> rw [hy]
  · exact fun _ _ _ _ _ hn => hn
  · exact fun _ _ _ _ _ hn => hn
  · exact hi.holding h c hc (hph he)

/-- Handlers that hold their locks have different actions. -/
theorem Locking.actionID_ne (hi : Locking s) (hc : s.handlers[h]? = some c)
    (hp : c.phase.holding = true) {g : Nat} {d : Handler} (hg : g ≠ h)
    (hd : s.handlers[g]? = some d) (hdp : d.phase.holding = true) : d.actionID ≠ c.actionID := by
  intro he
  have hr := (hi.holding g d hd hdp).1
  rw [he, (hi.holding h c hc hp).1] at hr
  exact hg (Entry.lock.inj (Option.some.inj hr)).symm

/-- An entry that is not the handler's lock changes. -/
theorem Held.update {y : Sync} (hh : Held y h c) {k : String} (hk : c.actionID ≠ k)
    (e : Option Entry) : Held { y with redis := Function.update y.redis k e } h c :=
  ⟨(Function.update_of_ne hk ..).trans hh.1, hh.2⟩

/-- An object stays where it is when a new one is made. -/
theorem getElem?_append_of_some {l l' : List Mutex} {m : Nat} {x : Mutex} (hx : l[m]? = some x) :
    (l ++ l')[m]? = some x :=
  (List.getElem?_append_left (List.getElem?_eq_some_iff.mp hx).1).trans hx

/-- A handler passes the check: the field gets a mutex of its action, which is not the one that
another handler of the agent needs. -/
theorem Locking.check {messageCache : Bool} (hi : Locking s) (hc : s.handlers[h]? = some c)
    (hk : s.sync.redis (getKey c.actionID) = none)
    (hu : Undisturbed messageCache s (.shouldHandleAction h)) :
    Locking { s.goto h c .passed with
      sync := (s.sync.shouldHandleAction c.agent c.actionID).2 } := by
  have hothers := fun g d (hg : g ≠ h) (hd : s.handlers[g]? = some d) =>
    hu c hc hk d (List.mem_eraseIdx_iff_getElem?.mpr ⟨g, hg, hd⟩)
  rw [Sync.shouldHandleAction_passes _ hk]
  have hnew : (s.sync.mutexes ++ [⟨c.actionID, none⟩])[s.sync.mutexes.length]? =
      some ⟨c.actionID, none⟩ := by simp
  refine hi.move hc rfl ?_ ?_ (fun _ => ⟨_, _, Function.update_self .., hnew, rfl⟩) nofun
  · rintro g d hg hd hp ⟨m, x, hm, hx, hname⟩
    by_cases ha : d.agent = c.agent
    · have hid := (hothers g d hg hd ha).2 hp
      exact ⟨_, _, ha ▸ Function.update_self .., hnew, hid.symm⟩
    · exact ⟨m, x, (Function.update_of_ne ha ..).trans hm, getElem?_append_of_some hx, hname⟩
  · rintro g d hg hd hp ⟨hr, m, hm, hx⟩
    have ha : d.agent ≠ c.agent := by
      intro ha
      exact absurd ((hothers g d hg hd ha).1.symm.trans hp) (by simp)
    exact ⟨hr, m, (Function.update_of_ne ha ..).trans hm, getElem?_append_of_some hx⟩

/-- `AcquireLock` succeeds: the field holds a mutex of the action, so this is what it locks. -/
theorem Locking.lock (hi : Locking s) {m : Nat} {y : Sync} (hc : s.handlers[h]? = some c)
    (hp : c.phase = .passed) (hm : s.sync.mutex c.agent = some m)
    (hy : s.sync.lock m h = some y) : Locking { s.goto h c .locked with sync := y } := by
  obtain ⟨m', x, hm', hx, hname⟩ := hi.passed h c hc hp
  obtain rfl : m = m' := Option.some.inj (hm.symm.trans hm')
  obtain ⟨x', hx', hfree, rfl⟩ := Sync.lock_eq hy
  obtain rfl : x = x' := Option.some.inj (hx.symm.trans hx')
  have hlt := (List.getElem?_eq_some_iff.mp hx).1
  refine hi.move hc rfl ?_ ?_ nofun fun _ => ?_
  · rintro g d - - - ⟨n, z, hn, hz, hzname⟩
    by_cases hnm : m = n
    · subst hnm
      obtain rfl : x = z := Option.some.inj (hx.symm.trans hz)
      exact ⟨m, _, hn, List.getElem?_set_self hlt, hzname⟩
    · exact ⟨n, z, hn, (List.getElem?_set_ne hnm).trans hz, hzname⟩
  · rintro g d - - - ⟨hr, n, hn, hz⟩
    -- the key was free, so nobody held this mutex
    have hne : d.actionID ≠ x.name := by
      intro he
      rw [he, hfree] at hr
      cases hr
    have hnm : m ≠ n := by
      rintro rfl
      exact hne (congrArg Mutex.name (Option.some.inj (hz.symm.trans hx)))
    exact ⟨(Function.update_of_ne hne ..).trans hr, n, hn, (List.getElem?_set_ne hnm).trans hz⟩
  · refine ⟨?_, m, hm, ?_⟩
    · rw [← hname]
      exact Function.update_self ..
    · rw [← hname]
      exact List.getElem?_set_self hlt

/-- A successful signer call, with the `RemoveMessage` after it. -/
theorem Locking.signed {messageCache : Bool} (hi : Locking s) (hc : s.handlers[h]? = some c)
    (hp : c.phase = .locked) (hu : Undisturbed messageCache s (.sign h .ok)) :
    Locking { (s.goto h c (.signed true)).emit (.signed h c.caller c.actionID true) with
      sync := removeCached ⟨true, messageCache⟩ c s.sync } := by
  unfold removeCached
  split
  · rename_i hremove
    rw [Bool.and_eq_true, bne_iff_ne] at hremove
    have hkeys := fun (g : Nat) (d : Handler) (hd : s.handlers[g]? = some d) =>
      hu c hc hremove d (List.mem_of_getElem? hd)
    refine hi.move hc rfl (fun _ _ _ _ _ hn => hn) (fun g d _ hd hdp hh => ?_) nofun fun _ => ?_
    · exact hh.update (hkeys g d hd hdp) none
    · have hph : c.phase.holding = true := by rw [hp]; rfl
      exact (hi.holding h c hc hph).update (hkeys h c hc hph) none
  · exact hi.quiet hc rfl rfl nofun (fun _ => by rw [hp]; rfl)

/-- `Release`: the handler's own lock goes, and the marker is written over no other. -/
theorem Locking.release {messageCache ok : Bool} (hi : Locking s) (hc : s.handlers[h]? = some c)
    (hp : c.phase = .signed ok) (hu : Undisturbed messageCache s (.release h)) :
    Locking { s.ret h c ok with sync := (s.sync.unlock c.agent).setHandled c.actionID } := by
  have hph : c.phase.holding = true := by rw [hp]; rfl
  rw [(hi.holding h c hc hph).unlock]
  refine hi.move hc rfl (fun _ _ _ _ _ hn => hn) (fun g d hg hd hdp hh => ?_) nofun nofun
  have hkey := hu c hc d (List.mem_of_getElem? hd) hdp
  exact (hh.update (hi.actionID_ne hc hph hg hd hdp) none).update hkey (some .handled)

/-- A key expires: it is not that of a lock that is held. -/
theorem Locking.expire (hi : Locking s) {key : String} (hk : s.canExpire key = true) :
    Locking { s.emit (.expired key) with sync := s.sync.expire key } := by
  refine ⟨hi.passed, fun g d (hd : s.handlers[g]? = some d) hdp => ?_⟩
  have hh := hi.holding g d hd hdp
  refine hh.update ?_ none
  rintro rfl
  revert hk
  simp only [State.canExpire, hh.1, hd, Option.map_some]
  revert hdp
  cases d.phase <;> simp [Phase.holding]

/-- A new handler has not passed the check. -/
theorem Locking.enter (hi : Locking s) (agent : Nat) (caller : Caller) (actionID : String) :
    Locking { s with handlers := s.handlers ++ [⟨agent, caller, actionID, .entered⟩] } := by
  have hold : ∀ (g : Nat) (d : Handler),
      (s.handlers ++ [⟨agent, caller, actionID, .entered⟩])[g]? = some d →
      d.phase ≠ .entered → s.handlers[g]? = some d := by
    intro g d hd hne
    by_cases hg : g < s.handlers.length
    · rwa [List.getElem?_append_left hg] at hd
    · rw [List.getElem?_append_right (by omega)] at hd
      exact absurd (congrArg Handler.phase (List.mem_singleton.mp (List.mem_of_getElem? hd))) hne
  constructor
  · intro g d hd hp
    exact hi.passed g d (hold g d hd (by rw [hp]; nofun)) hp
  · intro g d hd hp
    exact hi.holding g d (hold g d hd (by rintro he; rw [he] at hp; cases hp)) hp

/-- The step lemma. -/
theorem Locking.step {messageCache : Bool} (hi : Locking s) {a : Call}
    (hu : Undisturbed messageCache s a) (hs : callStep ⟨true, messageCache⟩ a s = some s') :
    Locking s' := by
  cases a with
  | enter agent caller actionID =>
    cases hs
    exact hi.enter agent caller actionID
  | shouldHandleAction h =>
    obtain ⟨c, hc, he⟩ := Option.bind_eq_some_iff.mp hs
    cases exec_effect rfl he with
    | handled hp hk => exact hi.quiet hc rfl rfl nofun nofun
    | passed hp hk => exact hi.check hc hk hu
  | acquireLock h ok =>
    obtain ⟨c, m, hc, hp, hm, ⟨y, hy, rfl⟩ | rfl⟩ := acquireLock_cases hs
    · exact hi.lock hc hp hm hy
    · exact hi.quiet hc rfl rfl nofun nofun
  | sign h answer =>
    obtain ⟨c, hc, he⟩ := Option.bind_eq_some_iff.mp hs
    cases exec_effect rfl he with
    | succeeded hp => exact hi.signed hc hp hu
    | failed hp => exact hi.quiet hc rfl rfl nofun (fun _ => by rw [hp]; rfl)
    | retried hp hcaller => exact hi.quiet hc rfl rfl nofun (fun _ => by rw [hp]; rfl)
  | release h =>
    obtain ⟨c, ok, hc, hp, rfl⟩ := release_cases rfl hs
    exact hi.release hc hp hu
  | expire key =>
    simp only [callStep, Action.step] at hs
    split at hs
    · rename_i hk
      cases hs
      exact hi.expire hk
    · cases hs

end

theorem locking_start : Locking start := ⟨by simp [start], by simp [start]⟩

/-- The run lemma. -/
theorem locking_of_reachableBy {messageCache : Bool} {s : State}
    (hr : (calling messageCache).ReachableBy (Undisturbed messageCache) s) : Locking s := by
  refine hr.invariant (I := Locking) ?_ fun s a s' hi hu hs => hi.step hu hs
  rintro s rfl
  exact locking_start

/-- **One's own lock.** In every run under load balancing whose steps all meet `Undisturbed`, a
handler that is about to make a signer call holds the lock of its action and took it itself, and its
`Release` deletes this lock and touches no other. -/
theorem own_lock {messageCache : Bool} {s : State}
    (hr : (calling messageCache).ReachableBy (Undisturbed messageCache) s) : OwnLock s :=
  (locking_of_reachableBy hr).ownLock

/-- Two agents handle `"a"` and `"b"` at the same time, then agent 0 handles `"c"`. -/
theorem own_lock_sample :
    ∃ s, (calling true).ReachableBy (Undisturbed true) s ∧ OwnLock s ∧
      s.handlers.map Handler.phase = [.returned true, .locked, .locked] := by
  obtain ⟨s, hr, hs⟩ := System.exists_reachableBy (M := calling true) (G := Undisturbed true)
    (g := fun s a => decide (Undisturbed true s a)) (fun _ _ => of_decide_eq_true)
    (s := start) rfl
    [.enter 0 .approve "a", .enter 1 .message "b", .enter 0 .message "c", .shouldHandleAction 0,
      .shouldHandleAction 1, .acquireLock 0 true, .acquireLock 1 true, .sign 0 .ok, .release 0,
      .shouldHandleAction 2, .acquireLock 2 true]
    (fun s => s.handlers.map Handler.phase = [.returned true, .locked, .locked])
    (by decide +kernel)
  exact ⟨s, hr, own_lock hr, of_decide_eq_true hs⟩

/-- **The lock of another action.** Two handlers of one agent pass the check, for `"a"` and then
for `"b"`; the first one locks `"b"` and is about to sign `"a"`, whose mutex nobody holds. -/
theorem other_lock :
    ¬ ∀ s, (calling false).Reachable s → OwnLock s := by
  intro hall
  obtain ⟨s, hr, hs⟩ := System.exists_reachable (M := calling false) (s := start) rfl
    [.enter 0 .message "a", .enter 0 .message "b", .shouldHandleAction 0, .shouldHandleAction 1,
      .acquireLock 0 true]
    (fun s => decide (s.handlers[0]? = some (⟨0, .message, "a", .locked⟩ : Handler)) &&
      decide (s.sync.redis "a" = none) && decide (s.sync.redis "b" = some (.lock 0)))
    (by decide +kernel)
  simp only [Bool.and_eq_true, decide_eq_true_eq] at hs
  obtain ⟨⟨hc, ha⟩, -⟩ := hs
  have := (hall s hr).held 0 _ hc rfl
  rw [ha] at this
  cases this

end SigningAgent.Action
