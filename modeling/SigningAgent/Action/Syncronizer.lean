import Mathlib.Data.List.Basic
import Mathlib.Logic.Function.Basic

/-!
# The action synchronizer over a shared Redis (`internal/action/syncronizer.go`)

Every agent has one `syncronize` object, used by all its handlers; the agents share one Redis.

* `redis` is the key space that the markers, the mutexes and the cached feed messages share. Keys
  are plain strings, so a mutex named `"action_v2:" ++ x` and the marker of `x` are one entry.
* A redsync mutex object has a name, which is its Redis key, and the random value of its last
  successful `Lock`; `Unlock` deletes the key if it still holds that value. The model draws the
  number of the calling handler as the value: a handler locks once.
* `a.mutex` is a pointer field that `ShouldHandleAction` overwrites: `mutex agent` is the index of
  an object in `mutexes`.
* Redis answers every request. A marker expires some time after it is written.
-/

namespace SigningAgent.Action

/-- What Redis holds under a key: the marker's value `1`, or the value of a mutex. -/
inductive Entry where
  | handled
  | lock (value : Nat)
  deriving DecidableEq, Repr

/-- A redsync mutex object. -/
structure Mutex where
  name : String
  value : Option Nat
  deriving DecidableEq, Repr

/-- The shared Redis, the mutex objects created so far and the field `mutex` of each agent's
`syncronize`. -/
structure Sync where
  redis : String → Option Entry
  mutexes : List Mutex
  mutex : Nat → Option Nat

/-- `syncronize.getKey`. -/
def getKey (actionID : String) : String := "action_v2:" ++ actionID

/-- `distributedCache.getKey`. -/
def messageKey (ID : String) : String := "transaction:" ++ ID

namespace Sync

/-- `ShouldHandleAction`: false if the marker is there, else the field gets a fresh mutex. -/
def shouldHandleAction (agent : Nat) (actionID : String) (s : Sync) : Bool × Sync :=
  match s.redis (getKey actionID) with
  | some _ => (false, s)
  | none =>
    (true, { s with
      mutexes := s.mutexes ++ [⟨actionID, none⟩]
      mutex := Function.update s.mutex agent (some s.mutexes.length) })

/-- A successful `Lock` of the mutex object `m`; `none` while the key is taken. -/
def lock (m value : Nat) (s : Sync) : Option Sync :=
  match s.mutexes[m]? with
  | none => none
  | some x =>
    match s.redis x.name with
    | some _ => none
    | none => some { s with
        redis := Function.update s.redis x.name (some (.lock value))
        mutexes := s.mutexes.set m { x with value := some value } }

/-- `Lock` of the mutex object `m` gives up: the key is taken. -/
def lockFails (m : Nat) (s : Sync) : Bool :=
  match s.mutexes[m]? with
  | none => false
  | some x => (s.redis x.name).isSome

/-- `a.mutex.Unlock()`: the object in the field now, which deletes the key if it is its own. -/
def unlock (agent : Nat) (s : Sync) : Sync :=
  match (s.mutex agent).bind (s.mutexes[·]?) with
  | none => s
  | some x =>
    match x.value with
    | none => s
    | some v =>
      if s.redis x.name = some (.lock v) then
        { s with redis := Function.update s.redis x.name none }
      else s

/-- `a.cache.Set(a.getKey(actionID), 1, …)`. -/
def setHandled (actionID : String) (s : Sync) : Sync :=
  { s with redis := Function.update s.redis (getKey actionID) (some .handled) }

/-- `distributedCache.RemoveMessage`. -/
def removeMessage (ID : String) (s : Sync) : Sync :=
  { s with redis := Function.update s.redis (messageKey ID) none }

/-- A key goes away by itself. -/
def expire (key : String) (s : Sync) : Sync :=
  { s with redis := Function.update s.redis key none }

end Sync

/-! ## Keys -/

theorem getKey_inj {x y : String} (h : getKey x = getKey y) : x = y := by
  unfold getKey at h
  exact String.append_right_inj _ |>.mp h

theorem messageKey_inj {x y : String} (h : messageKey x = messageKey y) : x = y :=
  String.append_right_inj _ |>.mp h

theorem messageKey_ne_getKey (x y : String) : messageKey x ≠ getKey y := by
  intro h
  have := congrArg (fun s => s.toList.head?) h
  simp [messageKey, getKey] at this

/-! ## What each operation does to an entry -/

namespace Sync

variable {s s' : Sync} {k : String}

theorem redis_shouldHandleAction (agent : Nat) (actionID : String) (s : Sync) :
    (s.shouldHandleAction agent actionID).2.redis = s.redis := by
  unfold shouldHandleAction
  cases s.redis (getKey actionID) <;> rfl

/-- The check passes: the field points to a fresh mutex. -/
theorem shouldHandleAction_passes (agent : Nat) {actionID : String}
    (h : s.redis (getKey actionID) = none) :
    (s.shouldHandleAction agent actionID).2 = { s with
      mutexes := s.mutexes ++ [⟨actionID, none⟩]
      mutex := Function.update s.mutex agent (some s.mutexes.length) } := by
  simp [shouldHandleAction, h]

/-- The objects after `ShouldHandleAction`: the old ones, and perhaps one for the action. -/
theorem mem_mutexes_shouldHandleAction {agent : Nat} {actionID : String} {x : Mutex}
    (h : x ∈ (s.shouldHandleAction agent actionID).2.mutexes) :
    x ∈ s.mutexes ∨ x.name = actionID := by
  unfold shouldHandleAction at h
  cases hk : s.redis (getKey actionID) with
  | some e =>
    rw [hk] at h
    exact Or.inl h
  | none =>
    rw [hk] at h
    rcases List.mem_append.mp h with h | h
    · exact Or.inl h
    · rw [List.mem_singleton.mp h]
      exact Or.inr rfl

/-- A lock takes a free key, the name of an existing object, and leaves its value in both. -/
theorem lock_eq {m value : Nat} (h : s.lock m value = some s') :
    ∃ x, s.mutexes[m]? = some x ∧ s.redis x.name = none ∧ s' = { s with
      redis := Function.update s.redis x.name (some (.lock value))
      mutexes := s.mutexes.set m { x with value := some value } } := by
  unfold lock at h
  cases hm : s.mutexes[m]? with
  | none => simp [hm] at h
  | some x =>
    cases hx : s.redis x.name with
    | some e => simp [hm, hx] at h
    | none =>
      simp only [hm, hx, Option.some.injEq] at h
      exact ⟨x, rfl, hx, h.symm⟩

theorem lock_cases {m value : Nat} (h : s.lock m value = some s') :
    ∃ x ∈ s.mutexes, s.redis x.name = none ∧
      s'.redis = Function.update s.redis x.name (some (.lock value)) ∧
      s'.mutexes = s.mutexes.set m { x with value := some value } := by
  obtain ⟨x, hm, hx, rfl⟩ := lock_eq h
  exact ⟨x, List.mem_of_getElem? hm, hx, rfl, rfl⟩

/-- The unlock of one's own lock deletes it, and no other entry changes. -/
theorem unlock_own {agent m v : Nat} {x : Mutex} (hm : s.mutex agent = some m)
    (hx : s.mutexes[m]? = some x) (hv : x.value = some v)
    (hr : s.redis x.name = some (.lock v)) :
    s.unlock agent = { s with redis := Function.update s.redis x.name none } := by
  simp [unlock, hm, hx, hv, hr]

/-- An unlock leaves an entry alone or deletes it; it only deletes locks. -/
theorem redis_unlock (agent : Nat) (s : Sync) (k : String) :
    (s.unlock agent).redis k = s.redis k ∨
      ((s.unlock agent).redis k = none ∧ ∃ v, s.redis k = some (.lock v)) := by
  unfold unlock
  cases (s.mutex agent).bind (s.mutexes[·]?) with
  | none => exact Or.inl rfl
  | some x =>
    cases hv : x.value with
    | none => simp [hv]
    | some v =>
      simp only [hv]
      by_cases hx : s.redis x.name = some (.lock v)
      · rw [if_pos hx]
        by_cases hk : k = x.name
        · subst hk
          exact Or.inr ⟨Function.update_self .., v, hx⟩
        · exact Or.inl (Function.update_of_ne hk ..)
      · rw [if_neg hx]
        exact Or.inl rfl

theorem mutexes_unlock (agent : Nat) (s : Sync) : (s.unlock agent).mutexes = s.mutexes := by
  unfold unlock
  cases (s.mutex agent).bind (s.mutexes[·]?) with
  | none => rfl
  | some x =>
    cases hv : x.value with
    | none => simp only [hv]
    | some v =>
      simp only [hv]
      split <;> rfl

/-- A marker survives an unlock. -/
theorem handled_unlock {agent : Nat} (h : s.redis k = some .handled) :
    (s.unlock agent).redis k = some .handled := by
  rcases redis_unlock agent s k with hk | ⟨-, v, hv⟩
  · rw [hk, h]
  · rw [h] at hv
    cases hv

/-- A marker survives a lock: its key is taken. -/
theorem handled_lock {m value : Nat} (hl : s.lock m value = some s')
    (h : s.redis k = some .handled) : s'.redis k = some .handled := by
  obtain ⟨x, -, hx, hr, -⟩ := lock_cases hl
  have hne : k ≠ x.name := by
    rintro rfl
    rw [h] at hx
    cases hx
  rw [hr, Function.update_of_ne hne, h]

/-- `RemoveMessage` leaves every marker alone. -/
theorem redis_removeMessage (ID actionID : String) (s : Sync) :
    (s.removeMessage ID).redis (getKey actionID) = s.redis (getKey actionID) := by
  unfold removeMessage
  exact Function.update_of_ne (messageKey_ne_getKey ID actionID).symm none s.redis

theorem redis_setHandled_self (actionID : String) (s : Sync) :
    (s.setHandled actionID).redis (getKey actionID) = some .handled :=
  Function.update_self ..

theorem redis_setHandled_of_ne {x actionID : String} (s : Sync) (h : x ≠ actionID) :
    (s.setHandled actionID).redis (getKey x) = s.redis (getKey x) :=
  Function.update_of_ne (fun he => h (getKey_inj he)) ..

end Sync

end SigningAgent.Action
