import SigningAgent.Go
import SigningAgent.Action.Syncronizer
import SigningAgent.Lib.System

/-!
# The key space of the shared Redis

Three families of keys are built in two packages and live in one Redis: the bare action ID (the
redsync mutexes), `"action_v2:" ++ ID` (the markers of `syncronize`) and `"transaction:" ++ ID` (the
messages of `distributedCache`). Action IDs are arbitrary strings, and the mutexes have no prefix,
so an ID may itself be a key of another family.

* `Redis` is the content at an instant. What `syncronize` writes is an `Entry`, as in
  `Syncronizer.lean`; `entries` is that part of it, and the operations agree with those there.
* An operation is what it does to Redis: `release` is the one of a handler whose mutex is that of
  the action, and `addMessage` the one of a message that decodes with the action's ID and has not
  expired (another one is not stored).
* `Unchanged Y` compares what concerns action `Y`: the answer of `ShouldHandleAction`, whether the
  mutex is free, the cached message, and which of the keys that `GetMessages` scans hold something
  else than a message.

Results:
* **`unchanged_iff`**: the operations of `X` leave `Y` alone in a content if and only if the keys
  do not meet there (`Apart`).
* `unchanged_of_plain`: in every run in which no ID starts with one of the two prefixes, no two
  actions ever interfere.
-/

namespace SigningAgent.Action

open Transition

/-- What is under a key: an entry of `syncronize` or a cached message. -/
inductive Item where
  | entry (e : Entry)
  | message (m : Bytes)
  deriving DecidableEq, Repr

namespace Item

def entry? : Item → Option Entry
  | .entry e => some e
  | .message _ => none

def message? : Item → Option Bytes
  | .entry _ => none
  | .message m => some m

end Item

/-- The content of Redis at an instant. -/
abbrev Redis := String → Option Item

/-- `k` starts with `p`. -/
def startsWith (p k : String) : Bool := p.toList.isPrefixOf k.toList

/-- The glob `keyPattern`, `"transaction:*"`. -/
def keyPattern (k : String) : Bool := startsWith "transaction:" k

namespace Redis

/-- `Lock` of the mutex named `actionID`, with a fresh `value`; nothing while the key is taken. -/
def lock (actionID : String) (value : Nat) (r : Redis) : Redis :=
  match r actionID with
  | some _ => r
  | none => Function.update r actionID (some (.entry (.lock value)))

/-- `Unlock` of that mutex: the key goes if it still holds the value. -/
def unlock (actionID : String) (value : Nat) (r : Redis) : Redis :=
  if r actionID = some (.entry (.lock value)) then Function.update r actionID none else r

/-- `Release`. -/
def release (actionID : String) (value : Nat) (r : Redis) : Redis :=
  Function.update (r.unlock actionID value) (getKey actionID) (some (.entry .handled))

/-- `distributedCache.AddMessage`. -/
def addMessage (ID : String) (m : Bytes) (r : Redis) : Redis :=
  Function.update r (messageKey ID) (some (.message m))

/-- `distributedCache.RemoveMessage`. -/
def removeMessage (ID : String) (r : Redis) : Redis := Function.update r (messageKey ID) none

/-- The answer of `ShouldHandleAction`. -/
def shouldHandleAction (actionID : String) (r : Redis) : Bool := (r (getKey actionID)).isNone

/-- `Lock` would succeed. -/
def canLock (actionID : String) (r : Redis) : Bool := (r actionID).isNone

def cachedMessage (ID : String) (r : Redis) : Option Bytes := (r (messageKey ID)).bind Item.message?

/-- `GetMessages` finds something at the key that is not a message. -/
def stray (k : String) (r : Redis) : Bool := keyPattern k && ((r k).bind Item.entry?).isSome

/-- What `syncronize` has written. -/
def entries (r : Redis) : String → Option Entry := fun k => (r k).bind Item.entry?

end Redis

/-- An operation of an action. -/
inductive Operation where
  | lock (value : Nat)
  | unlock (value : Nat)
  | release (value : Nat)
  | addMessage (m : Bytes)
  | removeMessage
  deriving DecidableEq, Repr

def Operation.apply (X : String) : Operation → Redis → Redis
  | .lock value => Redis.lock X value
  | .unlock value => Redis.unlock X value
  | .release value => Redis.release X value
  | .addMessage m => Redis.addMessage X m
  | .removeMessage => Redis.removeMessage X

/-- A step of the shared Redis. -/
inductive Access where
  | operation (X : String) (o : Operation)
  | expire (key : String)
  deriving DecidableEq, Repr

/-- All contents that the operations of any actions, and expiries, lead to. -/
def sharing : System Redis Access where
  init r := r = fun _ => none
  step
    | .operation X o, r => some (o.apply X r)
    | .expire key, r => some (Function.update r key none)

/-- Nothing that concerns action `Y` has changed. -/
structure Unchanged (Y : String) (r r' : Redis) : Prop where
  check : r'.shouldHandleAction Y = r.shouldHandleAction Y
  lock : r'.canLock Y = r.canLock Y
  message : r'.cachedMessage Y = r.cachedMessage Y
  strays : ∀ k, r'.stray k = r.stray k

/-- The keys of `X` do not meet those of `Y` in the content `r`: the message key of `X` is not the
mutex of `Y` and holds no entry; if the marker of `X` is the mutex of `Y`, it is taken already; and
if the mutex of `X` is the marker of `Y` or a key that `GetMessages` scans, a marker or a message
is there, so that it can be neither locked nor unlocked. -/
structure Apart (X Y : String) (r : Redis) : Prop where
  message_ne : Y ≠ messageKey X
  message : r.entries (messageKey X) = none
  marker : Y = getKey X → r Y ≠ none
  mutex : X = getKey Y ∨ keyPattern X = true →
    r X ≠ none ∧ ∀ v, r X ≠ some (.entry (.lock v))

/-! ## Keys -/

theorem startsWith_append (p k : String) : startsWith p (p ++ k) = true := by
  simp [startsWith, List.isPrefixOf_iff_prefix]

@[simp] theorem keyPattern_messageKey (ID : String) : keyPattern (messageKey ID) = true :=
  startsWith_append ..

@[simp] theorem keyPattern_getKey (actionID : String) : keyPattern (getKey actionID) = false := by
  simp [keyPattern, startsWith, getKey, List.isPrefixOf]

/-! ## The operations on the entries -/

namespace Redis

variable {s s' : Sync} {r : Redis}

theorem entries_update (k : String) (e : Option Item) (r : Redis) :
    entries (Function.update r k e) = Function.update r.entries k (e.bind Item.entry?) := by
  funext j
  by_cases h : j = k
  · subst h
    simp [entries]
  · simp [entries, h]

/-- `Sync.lock` is `lock`, if no message is in its way. -/
theorem entries_lock {m value : Nat} {x : Mutex} (hr : r.entries = s.redis)
    (hx : s.mutexes[m]? = some x) (hfree : r x.name = none) (hl : s.lock m value = some s') :
    (r.lock x.name value).entries = s'.redis := by
  obtain ⟨y, hy, -, rfl⟩ := Sync.lock_eq hl
  obtain rfl : x = y := Option.some.inj (hx.symm.trans hy)
  simp only [lock, hfree, entries_update, hr]
  rfl

/-- `Sync.unlock` is `unlock` with the name and the value of the mutex in the field. -/
theorem entries_unlock {agent m v : Nat} {x : Mutex} (hr : r.entries = s.redis)
    (hm : s.mutex agent = some m) (hx : s.mutexes[m]? = some x) (hv : x.value = some v) :
    (r.unlock x.name v).entries = (s.unlock agent).redis := by
  have hentry : r x.name = some (.entry (.lock v)) ↔ s.redis x.name = some (.lock v) := by
    rw [← hr]
    unfold entries
    cases h : r x.name with
    | none => simp
    | some i => cases i <;> simp [Item.entry?]
  unfold unlock Sync.unlock
  simp only [hm, Option.bind_some, hx, hv]
  by_cases h : r x.name = some (.entry (.lock v))
  · rw [if_pos h, if_pos (hentry.mp h), entries_update, hr]
    rfl
  · rw [if_neg h, if_neg (fun he => h (hentry.mpr he)), hr]

theorem entries_setHandled (hr : r.entries = s.redis) (actionID : String) :
    entries (Function.update r (getKey actionID) (some (.entry .handled))) =
      (s.setHandled actionID).redis := by
  rw [entries_update, hr]
  rfl

theorem entries_removeMessage (hr : r.entries = s.redis) (ID : String) :
    (r.removeMessage ID).entries = (s.removeMessage ID).redis := by
  rw [removeMessage, entries_update, hr]
  rfl

end Redis

/-! ## Interference -/

section

variable {X Y : String} {r r' : Redis}

theorem Unchanged.refl (Y : String) (r : Redis) : Unchanged Y r r := ⟨rfl, rfl, rfl, fun _ => rfl⟩

theorem Unchanged.trans {r'' : Redis} (h : Unchanged Y r r') (h' : Unchanged Y r' r'') :
    Unchanged Y r r'' :=
  ⟨h'.check.trans h.check, h'.lock.trans h.lock, h'.message.trans h.message,
    fun k => (h'.strays k).trans (h.strays k)⟩

/-- Writing a key leaves `Y` alone if the key is none of `Y`'s and no stray comes or goes. -/
theorem unchanged_update {k : String} {i : Option Item} (hcheck : k ≠ getKey Y)
    (hlock : k = Y → i.isNone = (r Y).isNone) (hmessage : k ≠ messageKey Y)
    (hstray : keyPattern k = true →
      (i.bind Item.entry?).isSome = ((r k).bind Item.entry?).isSome) :
    Unchanged Y r (Function.update r k i) := by
  refine ⟨?_, ?_, ?_, fun j => ?_⟩
  · simp [Redis.shouldHandleAction, hcheck.symm]
  · by_cases hk : Y = k
    · subst hk
      simp [Redis.canLock, hlock rfl]
    · simp [Redis.canLock, hk]
  · simp [Redis.cachedMessage, hmessage.symm]
  · by_cases hj : j = k
    · subst hj
      cases hp : keyPattern j with
      | false => simp [Redis.stray, hp]
      | true => simp [Redis.stray, hp, hstray hp]
    · simp [Redis.stray, hj]

/-- What `Apart` says where the mutex of `X` could be taken or freed. -/
theorem Apart.mutex_of_open (h : Apart X Y r)
    (hopen : r X = none ∨ ∃ v, r X = some (.entry (.lock v))) :
    X ≠ getKey Y ∧ keyPattern X = false := by
  have hnot : ¬ (X = getKey Y ∨ keyPattern X = true) := by
    intro hk
    obtain ⟨hnone, hlock⟩ := h.mutex hk
    rcases hopen with hx | ⟨v, hx⟩
    · exact hnone hx
    · exact hlock v hx
  rw [not_or, Bool.not_eq_true] at hnot
  exact hnot

/-- The mutex of `X` is written: another action sees nothing of it. -/
theorem Apart.update (h : Apart X Y r) (hne : X ≠ Y)
    (hopen : r X = none ∨ ∃ v, r X = some (.entry (.lock v))) (i : Option Item) :
    Unchanged Y r (Function.update r X i) := by
  obtain ⟨hkey, hpattern⟩ := h.mutex_of_open hopen
  refine unchanged_update hkey (fun he => absurd he hne) ?_ (fun hp => ?_)
  · rintro rfl
    simp at hpattern
  · rw [hpattern] at hp
    cases hp

theorem Apart.lock (h : Apart X Y r) (hne : X ≠ Y) (value : Nat) :
    Unchanged Y r (r.lock X value) := by
  unfold Redis.lock
  cases hx : r X with
  | some i => exact Unchanged.refl Y r
  | none => exact h.update hne (Or.inl hx) _

theorem Apart.unlock (h : Apart X Y r) (hne : X ≠ Y) (value : Nat) :
    Unchanged Y r (r.unlock X value) := by
  unfold Redis.unlock
  split
  · rename_i hx
    exact h.update hne (Or.inr ⟨value, hx⟩) none
  · exact Unchanged.refl Y r

/-- The marker of `X` is no marker of `Y`, and not under the scanned keys. -/
theorem Apart.release (h : Apart X Y r) (hne : X ≠ Y) (value : Nat) :
    Unchanged Y r (r.release X value) := by
  have hunlock := h.unlock hne value
  refine hunlock.trans (unchanged_update (fun he => hne (getKey_inj he)) (fun he => ?_)
    (messageKey_ne_getKey Y X).symm (by simp))
  -- the mutex of `Y` is taken before the marker is written, and so it is afterwards
  have hlock := hunlock.lock
  unfold Redis.canLock at hlock
  rw [hlock]
  cases hy : r Y with
  | none => exact absurd hy (h.marker he.symm)
  | some i => rfl

/-- The message key of `X` gets a message, or nothing. -/
theorem Apart.writeMessage (h : Apart X Y r) (hne : X ≠ Y) {i : Option Item}
    (hi : i.bind Item.entry? = none) : Unchanged Y r (Function.update r (messageKey X) i) := by
  refine unchanged_update (messageKey_ne_getKey X Y) (fun he => absurd he.symm h.message_ne)
    (fun he => hne (messageKey_inj he)) (fun _ => ?_)
  have hmessage := h.message
  unfold Redis.entries at hmessage
  rw [hi, hmessage]

theorem Apart.unchanged (h : Apart X Y r) (hne : X ≠ Y) (o : Operation) :
    Unchanged Y r (o.apply X r) := by
  cases o with
  | lock value => exact h.lock hne value
  | unlock value => exact h.unlock hne value
  | release value => exact h.release hne value
  | addMessage m => exact h.writeMessage hne rfl
  | removeMessage => exact h.writeMessage hne rfl

/-- **When do actions interfere?** In any content of Redis, all operations of `X` leave `Y` alone
if and only if the keys of `X` do not meet those of `Y`. -/
theorem unchanged_iff (X Y : String) (hne : X ≠ Y) (r : Redis) :
    (∀ o : Operation, Unchanged Y r (o.apply X r)) ↔ Apart X Y r := by
  refine ⟨fun h => ⟨?_, ?_, ?_, ?_⟩, fun h => h.unchanged hne⟩
  · -- a message there takes the mutex of `Y`, and its removal frees it
    rintro rfl
    have hadd := (h (.addMessage [])).lock
    have hremove := (h .removeMessage).lock
    simp only [Operation.apply, Redis.addMessage, Redis.removeMessage, Redis.canLock,
      Function.update_self] at hadd hremove
    rw [← hadd] at hremove
    cases hremove
  · have hremove := (h .removeMessage).strays (messageKey X)
    simp only [Operation.apply, Redis.removeMessage, Redis.stray, keyPattern_messageKey,
      Function.update_self, Bool.true_and] at hremove
    rw [← Option.not_isSome_iff_eq_none, Redis.entries, ← hremove]
    simp
  · rintro rfl hy
    have hrelease := (h (.release 0)).lock
    simp only [Operation.apply, Redis.release, Redis.canLock, Function.update_self, hy] at hrelease
    cases hrelease
  · intro hk
    -- locking or unlocking there is seen by `ShouldHandleAction`, or by `GetMessages`
    have hseen : ∀ r' : Redis, Unchanged Y r r' → X = getKey Y → (r' X).isNone = (r X).isNone := by
      rintro r' hu rfl
      exact hu.check
    have hstray : ∀ r' : Redis, Unchanged Y r r' → keyPattern X = true →
        ((r' X).bind Item.entry?).isSome = ((r X).bind Item.entry?).isSome := by
      intro r' hu hp
      have := hu.strays X
      simpa only [Redis.stray, hp, Bool.true_and] using this
    constructor
    · intro hx
      have hu := h (.lock 0)
      simp only [Operation.apply, Redis.lock, hx] at hu
      rcases hk with hk | hk
      · have := hseen _ hu hk
        simp [hx] at this
      · have := hstray _ hu hk
        simp [hx, Item.entry?] at this
    · intro v hx
      have hu := h (.unlock v)
      simp only [Operation.apply, Redis.unlock, hx, if_true] at hu
      rcases hk with hk | hk
      · have := hseen _ hu hk
        simp [hx] at this
      · have := hstray _ hu hk
        simp [hx, Item.entry?] at this

end

/-- With the mutex of `"b"` locked and `"a"` marked and cached, `"a"` leaves `"b"` alone. -/
theorem unchanged_sample :
    let r : Redis := fun k =>
      if k = "b" then some (.entry (.lock 1))
      else if k = getKey "a" then some (.entry .handled)
      else if k = messageKey "a" then some (.message [1]) else none
    ∀ o : Operation, Unchanged "b" r (o.apply "a" r) := by
  intro r
  refine (unchanged_iff "a" "b" (by decide) r).mpr ⟨by decide, by decide, ?_, ?_⟩
  · intro h
    exact absurd h (by decide)
  · intro h
    exact absurd h (by decide)

/-- **A mutex that is a marker.** In the empty Redis, to lock the mutex of the action
`"action_v2:a"` makes `ShouldHandleAction("a")` false. -/
theorem lock_is_marker :
    ¬ ∀ X Y : String, X ≠ "" → Y ≠ "" → X ≠ Y → ∀ r, sharing.Reachable r →
      ∀ o : Operation, Unchanged Y r (o.apply X r) := by
  intro hall
  have h := hall "action_v2:a" "a" (by decide) (by decide) (by decide) (fun _ => none)
    (.init rfl) (.lock 0)
  exact absurd h.check (by decide)

/-! ## Runs -/

/-- An ID that starts with neither prefix. -/
def Plain (ID : String) : Prop := startsWith "action_v2:" ID = false ∧ keyPattern ID = false

/-- The operations are those of plain IDs. -/
def PlainAccess (_ : Redis) : Access → Prop
  | .operation X _ => Plain X
  | .expire _ => True

/-- A write keeps the scanned keys free of entries if it puts none there. -/
theorem clean_update {r : Redis} (h : ∀ k, keyPattern k = true → r.entries k = none) {key : String}
    {i : Option Item} (hi : keyPattern key = true → i.bind Item.entry? = none) (k : String)
    (hk : keyPattern k = true) : Redis.entries (Function.update r key i) k = none := by
  rw [Redis.entries_update]
  by_cases he : k = key
  · subst he
    rw [Function.update_self, hi hk]
  · rw [Function.update_of_ne he, h k hk]

/-- With plain IDs nothing but messages is under the scanned keys. -/
theorem clean_of_plain {r : Redis} (hr : sharing.ReachableBy PlainAccess r) :
    ∀ k, keyPattern k = true → r.entries k = none := by
  refine hr.invariant (I := fun r => ∀ k, keyPattern k = true → r.entries k = none) ?_ ?_
  · rintro r rfl k -
    rfl
  · intro r a r' hi hg hs
    cases a with
    | expire key =>
      cases hs
      exact clean_update hi fun _ => rfl
    | operation X o =>
      cases hs
      have hX : ∀ {i : Option Item}, keyPattern X = true → i.bind Item.entry? = none := by
        intro i hp
        exact absurd (hp.symm.trans hg.2) (by simp)
      have hunlock : ∀ value k, keyPattern k = true →
          Redis.entries (r.unlock X value) k = none := by
        intro value
        unfold Redis.unlock
        split
        · exact clean_update hi hX
        · exact hi
      cases o with
      | lock value =>
        simp only [Operation.apply, Redis.lock]
        split
        · exact hi
        · exact clean_update hi hX
      | unlock value => exact hunlock value
      | release value => exact clean_update (hunlock value) (by simp)
      | addMessage m => exact clean_update hi fun _ => rfl
      | removeMessage => exact clean_update hi fun _ => rfl

/-- **Plain IDs do not interfere.** In every run in which no ID starts with `"action_v2:"` or
`"transaction:"`, every operation of one such ID leaves every other one alone. -/
theorem unchanged_of_plain {r : Redis} (hr : sharing.ReachableBy PlainAccess r) {X Y : String}
    (hX : Plain X) (hY : Plain Y) (hne : X ≠ Y) (o : Operation) :
    Unchanged Y r (o.apply X r) := by
  have hapart : Apart X Y r := by
    refine ⟨?_, ?_, ?_, ?_⟩
    · rintro rfl
      simpa using hY.2
    · exact clean_of_plain hr _ (keyPattern_messageKey X)
    · rintro rfl
      exact absurd hY.1 (by simp [getKey, startsWith_append])
    · rintro (rfl | hp)
      · exact absurd hX.1 (by simp [getKey, startsWith_append])
      · exact absurd (hp.symm.trans hX.2) (by simp)
  exact hapart.unchanged hne o

end SigningAgent.Action
