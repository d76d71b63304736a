import SigningAgent.Action.AtMostOnce
import SigningAgent.Lib.Settling

/-!
# Every handler returns, and what it signed is marked

The steps of the handlers are internal; the environment starts handlers, lets keys expire and makes
the signer fail in a way that `approveAction` calls again. The field `mutex` of an agent may change
between a handler's check and its `AcquireLock`, and other handlers and agents take and release keys
meanwhile; nothing of this can keep a handler for ever:

* `Placed`: a handler that passed the check finds a mutex object in the field, if not the one that
  it put there. So `AcquireLock` never meets a nil mutex, and `Lock` of that object can either take
  the key or give up.
* `left` counts the steps that a handler has yet to make; nobody else's step makes it larger.
* `Marked`: a success that has not expired has its marker in Redis, or its handler has yet to write
  it. Neither locks, unlocks nor `RemoveMessage` take a marker away.

Results:
* **`handles_all`**: from every reachable state, once no call of the signer is repeated, no key
  expires and no handler starts any more, all handlers return, whatever the scheduler does. Where
  they have, under load balancing, each action with a success that has not expired is marked.
-/

namespace SigningAgent.Action

open Transition

/-- The steps in which the environment has no part. -/
def Internal : Label → Prop
  | .move _ (.sign .retry) => False
  | .move _ _ => True
  | .enter .. | .expire _ => False

/-- The steps that a handler has yet to make at most. -/
def Phase.left : Phase → Nat
  | .entered => 6
  | .passed => 5
  | .waiting _ => 4
  | .locked => 3
  | .signed _ => 2
  | .unlocked _ => 1
  | .returned _ => 0

def Phase.done : Phase → Bool
  | .returned _ => true
  | _ => false

/-- The steps that the handlers have yet to make at most. -/
def State.left (s : State) : Nat := total (fun c => c.phase.left) s.handlers

/-! ## The mutex objects stay -/

/-- The objects of `y` are among those of `y'`, and every field is set that was. -/
structure Sync.Grows (y y' : Sync) : Prop where
  length : y.mutexes.length ≤ y'.mutexes.length
  field : ∀ agent m, y'.mutex agent = some m → y.mutex agent = some m ∨ m < y'.mutexes.length
  stays : ∀ agent, (y.mutex agent).isSome → (y'.mutex agent).isSome

namespace Sync

variable {y y' : Sync}

/-- The operations that leave the fields alone. -/
theorem Grows.of_eq (hl : y'.mutexes.length = y.mutexes.length) (hm : y'.mutex = y.mutex) :
    y.Grows y' :=
  ⟨Nat.le_of_eq hl.symm, fun _ _ h => Or.inl (hm ▸ h), fun _ h => hm ▸ h⟩

theorem Grows.refl (y : Sync) : y.Grows y := .of_eq rfl rfl

theorem mutex_unlock (agent : Nat) (y : Sync) : (y.unlock agent).mutex = y.mutex := by
  unfold unlock
  cases (y.mutex agent).bind (y.mutexes[·]?) with
  | none => rfl
  | some x =>
    cases hv : x.value with
    | none => simp only [hv]
    | some v =>
      simp only [hv]
      split <;> rfl

theorem grows_unlock (agent : Nat) (y : Sync) : y.Grows (y.unlock agent) :=
  .of_eq (congrArg List.length (mutexes_unlock agent y)) (mutex_unlock agent y)

theorem grows_lock {m value : Nat} (h : y.lock m value = some y') : y.Grows y' := by
  obtain ⟨x, -, -, rfl⟩ := lock_eq h
  exact .of_eq List.length_set rfl

theorem grows_removeCached (cfg : Config) (c : Handler) (y : Sync) :
    y.Grows (removeCached cfg c y) := by
  unfold removeCached
  split
  · exact .of_eq rfl rfl
  · exact .refl y

/-- The check passes: the field gets the new object. -/
theorem grows_shouldHandleAction (agent : Nat) {actionID : String}
    (h : y.redis (getKey actionID) = none) :
    y.Grows (y.shouldHandleAction agent actionID).2 ∧
      ((y.shouldHandleAction agent actionID).2.mutex agent).isSome := by
  rw [shouldHandleAction_passes agent h]
  refine ⟨⟨by simp, fun a m hm => ?_, fun a ha => ?_⟩, by simp⟩
  · dsimp only at hm
    by_cases hag : a = agent
    · subst hag
      rw [Function.update_self, Option.some.injEq] at hm
      exact Or.inr (by simp [← hm])
    · rw [Function.update_of_ne hag] at hm
      exact Or.inl hm
  · by_cases hag : a = agent
    · simp [hag]
    · simpa [Function.update_of_ne hag] using ha

/-- `Lock` of an object takes the key or can give up. -/
theorem lock_or_fails {m : Nat} (value : Nat) (h : m < y.mutexes.length) :
    (∃ y', y.lock m value = some y') ∨ y.lockFails m = true := by
  unfold lock lockFails
  rw [List.getElem?_eq_getElem h]
  cases hx : y.redis y.mutexes[m].name with
  | none =>
    simp only [hx]
    exact Or.inl ⟨_, rfl⟩
  | some e =>
    simp only [hx]
    exact Or.inr rfl

end Sync

section

variable {cfg : Config} {h : Nat} {c : Handler} {s s' : State} {m : Move}

/-! ## One step -/

/-- **What a step of handler `h` does for the progress of the handlers**, with load balancing or
without. -/
theorem exec_goes (he : exec cfg h c s m = some s') :
    ∃ p, s'.handlers = s.handlers.set h { c with phase := p } ∧ s.sync.Grows s'.sync ∧
      (m = .sign .retry ∨ p.left < c.phase.left) ∧
      (p = .passed → (s'.sync.mutex c.agent).isSome) ∧
      (∀ k, p = .waiting k → s.sync.mutex c.agent = some k) := by
  unfold exec at he
  split at he
  · -- `check`
    split at he
    · rename_i hp
      split at he
      · cases hk : s.sync.redis (getKey c.actionID) with
        | some e =>
          simp only [Sync.shouldHandleAction, hk, Option.some.injEq] at he
          subst he
          exact ⟨.returned true, rfl, .refl _, Or.inr (by simp [hp, Phase.left]), by simp, by simp⟩
        | none =>
          obtain ⟨hgrows, hset⟩ := Sync.grows_shouldHandleAction c.agent hk
          simp only [Sync.shouldHandleAction, hk, Option.some.injEq] at he hgrows hset
          subst he
          exact ⟨.passed, rfl, hgrows, Or.inr (by simp [hp, Phase.left]), fun _ => hset, by simp⟩
      · cases he
        exact ⟨.locked, rfl, .refl _, Or.inr (by simp [hp, Phase.left]), by simp, by simp⟩
    · cases he
  · -- `acquire`
    split at he
    · rename_i hp
      obtain ⟨k, hk, rfl⟩ := Option.map_eq_some_iff.mp he
      refine ⟨.waiting k, rfl, .refl _, Or.inr (by simp [hp, Phase.left]), by simp, fun l hl => ?_⟩
      cases hl
      exact hk
    · cases he
  · -- `lock true`
    split at he
    · rename_i k hp
      obtain ⟨y, hy, rfl⟩ := Option.map_eq_some_iff.mp he
      exact ⟨.locked, rfl, Sync.grows_lock hy, Or.inr (by simp [hp, Phase.left]), by simp, by simp⟩
    · cases he
  · -- `lock false`
    split at he
    · rename_i k hp
      split at he
      · cases he
        exact ⟨.returned false, rfl, .refl _, Or.inr (by simp [hp, Phase.left]), by simp, by simp⟩
      · cases he
    · cases he
  · -- `sign`
    split at he
    · rename_i hp
      cases he
      exact ⟨.signed true, rfl, Sync.grows_removeCached .., Or.inr (by simp [hp, Phase.left]),
        by simp, by simp⟩
    · rename_i hp
      cases he
      exact ⟨.signed false, rfl, .refl _, Or.inr (by simp [hp, Phase.left]), by simp, by simp⟩
    · split at he
      · cases he
        exact ⟨.locked, rfl, .refl _, Or.inl rfl, by simp, by simp⟩
      · cases he
    · cases he
  · -- `unlock`
    split at he
    · rename_i ok hp
      split at he
      · cases he
        exact ⟨.unlocked ok, rfl, Sync.grows_unlock .., Or.inr (by simp [hp, Phase.left]), by simp,
          by simp⟩
      · cases he
        exact ⟨.returned ok, rfl, .refl _, Or.inr (by simp [hp, Phase.left]), by simp, by simp⟩
    · cases he
  · -- `mark`
    split at he
    · rename_i ok hp
      cases he
      exact ⟨.returned ok, rfl, .of_eq rfl rfl, Or.inr (by simp [hp, Phase.left]), by simp, by simp⟩
    · cases he

/-! ## No handler is stuck -/

/-- The objects that the fields and the waiting handlers refer to are there, and a handler that
passed the check finds one in the field of its agent. -/
structure Placed (s : State) : Prop where
  field : ∀ agent m, s.sync.mutex agent = some m → m < s.sync.mutexes.length
  passed : ∀ (h : Nat) (c : Handler), s.handlers[h]? = some c → c.phase = .passed →
    (s.sync.mutex c.agent).isSome
  waiting : ∀ (h m : Nat) (c : Handler), s.handlers[h]? = some c → c.phase = .waiting m →
    m < s.sync.mutexes.length

theorem placed_start : Placed start := ⟨nofun, nofun, nofun⟩

/-- The handlers of before, and a new one. -/
theorem getElem?_append_cases {l : List Handler} {g : Nat} {d e : Handler}
    (h : (l ++ [e])[g]? = some d) : l[g]? = some d ∨ d = e := by
  by_cases hg : g < l.length
  · rw [List.getElem?_append_left hg] at h
    exact Or.inl h
  · rw [List.getElem?_append_right (by omega)] at h
    exact Or.inr (List.mem_singleton.mp (List.mem_of_getElem? h))

theorem Placed.exec (hi : Placed s) (he : exec cfg h c s m = some s') : Placed s' := by
  obtain ⟨p, hh, hgrows, -, hpassed, hwaiting⟩ := exec_goes he
  refine ⟨fun agent k hk => ?_, fun g d hd hp => ?_, fun g k d hd hp => ?_⟩
  · rcases hgrows.field agent k hk with hk | hk
    · exact Nat.lt_of_lt_of_le (hi.field agent k hk) hgrows.length
    · exact hk
  · rw [hh] at hd
    rcases getElem?_set_cases hd with ⟨-, rfl⟩ | ⟨-, hd⟩
    · exact hpassed hp
    · exact hgrows.stays _ (hi.passed g d hd hp)
  · rw [hh] at hd
    rcases getElem?_set_cases hd with ⟨-, rfl⟩ | ⟨-, hd⟩
    · exact Nat.lt_of_lt_of_le (hi.field _ k (hwaiting k hp)) hgrows.length
    · exact Nat.lt_of_lt_of_le (hi.waiting g k d hd hp) hgrows.length

/-- The step lemma. -/
theorem Placed.step {a : Label} (hi : Placed s) (hs : step cfg a s = some s') : Placed s' := by
  cases a with
  | enter agent caller actionID =>
    cases hs
    refine ⟨hi.field, fun g d hd hp => ?_, fun g k d hd hp => ?_⟩ <;>
      rcases getElem?_append_cases hd with hd | rfl
    · exact hi.passed g d hd hp
    · cases hp
    · exact hi.waiting g k d hd hp
    · cases hp
  | move h m =>
    obtain ⟨c, hc, he⟩ := Option.bind_eq_some_iff.mp hs
    exact hi.exec he
  | expire key =>
    simp only [Action.step] at hs
    split at hs
    · cases hs
      exact ⟨hi.field, hi.passed, hi.waiting⟩
    · cases hs

/-- A handler that has not returned can go on. -/
theorem exists_exec (cfg : Config) (hi : Placed s) (hc : s.handlers[h]? = some c)
    (hd : c.phase.done = false) : ∃ m s', Internal (.move h m) ∧
      exec cfg h c s m = some s' := by
  cases hp : c.phase with
  | entered =>
    refine ⟨.check, ?_⟩
    simp only [exec, hp]
    split
    · cases hk : s.sync.redis (getKey c.actionID) with
      | some e => exact ⟨_, trivial, by simp only [Sync.shouldHandleAction, hk]; rfl⟩
      | none => exact ⟨_, trivial, by simp only [Sync.shouldHandleAction, hk]; rfl⟩
    · exact ⟨_, trivial, rfl⟩
  | passed =>
    obtain ⟨k, hk⟩ := Option.isSome_iff_exists.mp (hi.passed h c hc hp)
    exact ⟨.acquire, _, trivial, by simp only [exec, hp, hk, Option.map_some]; rfl⟩
  | waiting k =>
    -- the key is free and `Lock` takes it, or it is taken and `Lock` may give up
    rcases Sync.lock_or_fails h (hi.waiting h k c hc hp) with ⟨y, hy⟩ | hfails
    · exact ⟨.lock true, _, trivial, by simp only [exec, hp, hy, Option.map_some]; rfl⟩
    · exact ⟨.lock false, _, trivial, by simp only [exec, hp, hfails, if_true]; rfl⟩
  | locked => exact ⟨.sign .ok, _, trivial, by simp only [exec, hp]; rfl⟩
  | signed ok =>
    refine ⟨.unlock, ?_⟩
    simp only [exec, hp]
    split <;> exact ⟨_, trivial, rfl⟩
  | unlocked ok => exact ⟨.mark, _, trivial, by simp only [exec, hp]; rfl⟩
  | returned ok =>
    rw [hp] at hd
    cases hd

/-- Where no handler can go on, all have returned. -/
theorem done_of_atRest (hi : Placed s) (hrest : (handling cfg).AtRest Internal s) :
    ∀ c ∈ s.handlers, c.phase.done = true := by
  intro c hmem
  obtain ⟨h, hc⟩ := List.mem_iff_getElem?.mp hmem
  cases hd : c.phase.done with
  | true => rfl
  | false =>
    obtain ⟨m, s', ha, he⟩ := exists_exec cfg hi hc hd
    have hstuck : (s.handlers[h]?.bind fun d => exec cfg h d s m) = none := hrest (.move h m) ha
    rw [hc, Option.bind_some, he] at hstuck
    cases hstuck

/-! ## What was signed is marked -/

/-- Every success that has not expired has its marker, or its handler is about to write it. -/
def Marked (s : State) : Prop :=
  ∀ x h, lastSuccess x s.log = some h → s.sync.redis (getKey x) = some .handled ∨
    ∃ (g : Nat) (c : Handler), s.handlers[g]? = some c ∧ c.actionID = x ∧ c.phase.succeeded = true

/-- What a handler's step has to respect so that what was signed is marked. -/
theorem marked_move {x : String} {p : Phase} (hc : s.handlers[h]? = some c)
    (hh : s'.handlers = s.handlers.set h { c with phase := p })
    (hmark : s.sync.redis (getKey x) = some .handled → s'.sync.redis (getKey x) = some .handled)
    (hsucc : c.actionID = x → c.phase.succeeded = true →
      p.succeeded = true ∨ s'.sync.redis (getKey x) = some .handled)
    (hx : s.sync.redis (getKey x) = some .handled ∨
      ∃ (g : Nat) (d : Handler), s.handlers[g]? = some d ∧ d.actionID = x ∧
        d.phase.succeeded = true) :
    s'.sync.redis (getKey x) = some .handled ∨
      ∃ (g : Nat) (d : Handler), s'.handlers[g]? = some d ∧ d.actionID = x ∧
        d.phase.succeeded = true := by
  have hlt : h < s.handlers.length := (List.getElem?_eq_some_iff.mp hc).1
  rcases hx with hx | ⟨g, d, hd, hid, hsd⟩
  · exact Or.inl (hmark hx)
  · by_cases hg : g = h
    · subst hg
      obtain rfl : c = d := Option.some.inj (hc.symm.trans hd)
      rcases hsucc hid hsd with hp | hp
      · exact Or.inr ⟨g, { c with phase := p }, by rw [hh, List.getElem?_set_self hlt], hid, hp⟩
      · exact Or.inl hp
    · exact Or.inr ⟨g, d, by rw [hh, List.getElem?_set_ne (Ne.symm hg), hd], hid, hsd⟩

/-- The step lemma for the steps of a handler. -/
theorem Marked.effect (hi : Marked s) (hc : s.handlers[h]? = some c)
    (he : Effect cfg h c s m s') : Marked s' := by
  intro x g hx
  cases he with
  | handled hp hk => exact marked_move hc rfl id (by simp [hp, Phase.succeeded]) (hi x g hx)
  | passed hp hk =>
    refine marked_move hc rfl ?_ (by simp [hp, Phase.succeeded]) (hi x g hx)
    simp only [Sync.redis_shouldHandleAction]
    exact id
  | acquired hp => exact marked_move hc rfl id (by simp [hp, Phase.succeeded]) (hi x g hx)
  | locked hp hl =>
    exact marked_move hc rfl (Sync.handled_lock hl) (by simp [hp, Phase.succeeded]) (hi x g hx)
  | gaveUp hp => exact marked_move hc rfl id (by simp [hp, Phase.succeeded]) (hi x g hx)
  | succeeded hp =>
    by_cases hid : c.actionID = x
    · have hlt : h < s.handlers.length := (List.getElem?_eq_some_iff.mp hc).1
      exact Or.inr ⟨h, _, List.getElem?_set_self hlt, hid, rfl⟩
    · have hx' : lastSuccess x s.log = some g := by
        simpa [State.emit, State.goto, lastSuccess, hid] using hx
      refine marked_move hc rfl ?_ (fun _ _ => Or.inl rfl) (hi x g hx')
      unfold removeCached
      split
      · simp only [Sync.redis_removeMessage]
        exact id
      · exact id
  | failed hp =>
    rw [show (State.emit _ (s.goto h c (.signed false))).log = _ :: s.log from rfl,
      lastSuccess_failed] at hx
    exact marked_move hc rfl id (by simp [hp, Phase.succeeded]) (hi x g hx)
  | retried hp hm =>
    rw [show (State.emit _ (s.goto h c .locked)).log = _ :: s.log from rfl,
      lastSuccess_failed] at hx
    exact marked_move hc rfl id (by simp [hp, Phase.succeeded]) (hi x g hx)
  | unlocked hp =>
    refine marked_move hc rfl Sync.handled_unlock (fun _ hs => ?_) (hi x g hx)
    rw [hp] at hs
    exact Or.inl hs
  | marked hp =>
    refine marked_move hc rfl (fun hm => ?_) (fun hid _ => Or.inr ?_) (hi x g hx)
    · by_cases hid : x = c.actionID
      · subst hid
        exact Sync.redis_setHandled_self ..
      · exact (Sync.redis_setHandled_of_ne _ hid).trans hm
    · subst hid
      exact Sync.redis_setHandled_self ..

/-- The step lemma. -/
theorem Marked.step {a : Label} (hlb : cfg.loadBalancingEnabled = true) (hi : Marked s)
    (hs : step cfg a s = some s') : Marked s' := by
  rcases step_cases hlb hs with ⟨agent, caller, id, rfl, rfl⟩ | ⟨h, m, c, rfl, hc, he⟩ |
    ⟨key, rfl, rfl⟩
  · intro x g hx
    refine (hi x g hx).imp_right fun ⟨k, d, hd, hid, hsd⟩ => ⟨k, d, ?_, hid, hsd⟩
    rw [List.getElem?_append_left (List.getElem?_eq_some_iff.mp hd).1, hd]
  · exact hi.effect hc he
  · intro x g hx
    by_cases hk : key = getKey x
    · simp [State.emit, lastSuccess, hk] at hx
    · have hx' : lastSuccess x s.log = some g := by
        simpa [State.emit, lastSuccess, hk] using hx
      exact (hi x g hx').imp_left (Function.update_of_ne (Ne.symm hk) ..).trans

/-! ## All handlers return -/

/-- What holds of every state on the way. -/
structure Goes (cfg : Config) (s : State) : Prop where
  placed : Placed s
  marked : cfg.loadBalancingEnabled = true → Marked s

theorem Goes.step {a : Label} (hi : Goes cfg s) (hs : step cfg a s = some s') : Goes cfg s' :=
  ⟨hi.placed.step hs, fun hlb => (hi.marked hlb).step hlb hs⟩

theorem goes_of_reachable (hr : (handling cfg).Reachable s) : Goes cfg s := by
  refine hr.invariant ?_ fun s a s' hi hs => hi.step hs
  rintro s rfl
  exact ⟨placed_start, fun _ => nofun⟩

/-- An internal step is one of those that are left. -/
theorem left_lt {a : Label} (ha : Internal a) (hs : step cfg a s = some s') :
    s'.left < s.left := by
  cases a with
  | enter agent caller actionID => exact ha.elim
  | expire key => exact ha.elim
  | move h m =>
    obtain ⟨c, hc, he⟩ := Option.bind_eq_some_iff.mp hs
    obtain ⟨p, hh, -, rfl | hlt, -⟩ := exec_goes he
    · exact ha.elim
    · unfold State.left
      rw [hh]
      exact total_set_lt (fun d : Handler => d.phase.left) (b := { c with phase := p }) hc hlt

/-- **Every handler returns, and what was signed is marked.** From every reachable state, if no call
of the signer is repeated, no key expires and no handler starts any more, they all return, in
whatever order they take their steps; then, under load balancing, the marker of every action with a
success that has not expired is in Redis. -/
theorem handles_all (hr : (handling cfg).Reachable s) :
    (handling cfg).Settles Internal (fun t => (∀ c ∈ t.handlers, c.phase.done = true) ∧
      (cfg.loadBalancingEnabled = true → ∀ x h, lastSuccess x t.log = some h →
        t.sync.redis (getKey x) = some .handled)) s := by
  refine System.settles_of_measure (I := Goes cfg) State.left
    (fun s a t hi ha hs => ⟨hi.step hs, left_lt ha hs⟩) (fun t hi hrest => ?_)
    (goes_of_reachable hr)
  have hdone := done_of_atRest hi.placed hrest
  refine ⟨hdone, fun hlb x h hx => ?_⟩
  rcases hi.marked hlb x h hx with hm | ⟨g, c, hc, -, hs⟩
  · exact hm
  · -- a handler that has returned owes no marker
    have hret := hdone c (List.mem_of_getElem? hc)
    revert hret hs
    cases c.phase <;> simp [Phase.done, Phase.succeeded]

end

/-- Two agents passed the check for `"a"`: one is about to sign, the other one waits for its key. -/
theorem handles_all_sample : ∃ s, (handling balanced).Reachable s ∧
    s.handlers.map Handler.phase = [.locked, .waiting 1] ∧
    (handling balanced).Settles Internal (fun t => (∀ c ∈ t.handlers, c.phase.done = true) ∧
      (balanced.loadBalancingEnabled = true → ∀ x h, lastSuccess x t.log = some h →
        t.sync.redis (getKey x) = some .handled)) s := by
  obtain ⟨s, hr, hs⟩ := System.exists_reachable (M := handling balanced) (s := start) rfl
    [.enter 0 .message "a", .enter 1 .message "a", .move 0 .check, .move 1 .check,
      .move 0 .acquire, .move 0 (.lock true), .move 1 .acquire]
    (fun s => s.handlers.map Handler.phase = [.locked, .waiting 1]) (by decide +kernel)
  exact ⟨s, hr, of_decide_eq_true hs, handles_all hr⟩

end SigningAgent.Action
