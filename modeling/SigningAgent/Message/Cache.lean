import SigningAgent.Action.Syncronizer
import SigningAgent.Defs
import SigningAgent.Lib.Expiring

/-!
# The message caches (`internal/hub/message`)

`localCache` keeps the messages of a single agent in a Go map under their IDs; `distributedCache`
keeps those of all agents in Redis, under `"transaction:" ++ ID` and with a time to live. A new
client is sent what `GetMessages` returns.

* `Json` is `encoding/json` on a message: decoding into a `messageInfo`, and into a pointer to an
  `ActionInfo`, which the JSON text `null` sets to nil (`some none`). The two agree on the ID and
  the time of expiry.
* Times are whole Unix seconds. Redis keeps deadlines in nanoseconds and drops a key exactly when
  its deadline is reached.
* The order in which Go visits a map, and the keys that SCAN returns, are parameters. SCAN returns
  every key at least once.
* To read a field of a nil `ActionInfo` panics.
-/

namespace SigningAgent.Message

open SigningAgent.Action (messageKey)

/-- `messageInfo`. -/
structure MessageInfo where
  id : String
  expireTime : Int
  deriving DecidableEq, Repr

/-- `getExpiration`, at the time `now`. -/
def MessageInfo.getExpiration (now : Nat) (i : MessageInfo) : Int := seconds (i.expireTime - now)

/-- `encoding/json` on a message. -/
structure Json where
  /-- `json.Unmarshal(message, &info)` -/
  info : Bytes → Option MessageInfo
  /-- `json.Unmarshal(message, &action)`, of a pointer `action` -/
  action : Bytes → Option (Option ActionInfo)
  agree : ∀ m a i, action m = some (some a) → info m = some i →
    i.id = a.id ∧ i.expireTime = a.expireTime
  /-- `null` leaves a struct as it is. -/
  null : ∀ m i, action m = some none → info m = some i → i = ⟨"", 0⟩

/-- An action `"a"`, an action `"b"`, and a message `"c"` whose status is no number. -/
def sampleA : Bytes := utf8 "\x7b\"id\":\"a\",\"status\":1,\"expireTime\":100\x7d"

def sampleB : Bytes := utf8 "\x7b\"id\":\"b\",\"status\":1,\"expireTime\":200\x7d"

def sampleC : Bytes := utf8 "\x7b\"id\":\"c\",\"status\":\"1\",\"expireTime\":100\x7d"

/-- The decoder on these three. -/
def sampleJson : Json where
  info m :=
    if m = sampleA then some ⟨"a", 100⟩ else if m = sampleB then some ⟨"b", 200⟩
    else if m = sampleC then some ⟨"c", 100⟩ else none
  action m :=
    if m = sampleA then some (some ⟨"a", statusPending, [], 100⟩)
    else if m = sampleB then some (some ⟨"b", statusPending, [], 200⟩) else none
  agree m a i ha hi := by
    split at ha
    · rename_i h
      rw [if_pos h] at hi
      cases ha
      cases hi
      exact ⟨rfl, rfl⟩
    · rename_i h
      split at ha
      · rename_i h'
        rw [if_neg h, if_pos h'] at hi
        cases ha
        cases hi
        exact ⟨rfl, rfl⟩
      · cases ha
  null m i ha hi := by
    split at ha
    · cases ha
    · split at ha <;> cases ha

/-- `localCache.messages`. -/
abbrev LocalCache := Finmap fun _ : String => Bytes

namespace LocalCache

/-- `AddMessage`. -/
def addMessage (j : Json) (now : Nat) (m : Bytes) (c : LocalCache) : LocalCache :=
  match j.info m with
  | none => c
  | some i => if 0 < i.getExpiration now then c.insert i.id m else c

/-- One round of the loop of `GetMessages`. -/
def visit (j : Json) (now : Nat) (x : LocalCache × List Bytes) (id : String) :
    Outcome Empty (LocalCache × List Bytes) :=
  match x.1.lookup id with
  | none => .ok x
  | some m =>
    match j.action m with
    | none => .ok (x.1.erase id, x.2)
    | some none => .error .panic
    | some (some a) =>
      if a.isExpired now then .ok (x.1.erase id, x.2) else .ok (x.1, x.2 ++ [m])

/-- `GetMessages`, which visits the IDs in the given order. -/
def getMessages (j : Json) (now : Nat) (order : List String) (c : LocalCache) :
    Outcome Empty (LocalCache × List Bytes) :=
  order.foldlM (visit j now) (c, [])

/-- `RemoveMessage`. -/
def removeMessage (ID : String) (c : LocalCache) : LocalCache := c.erase ID

/-- The order is one in which Go may visit the map. -/
def Visits (order : List String) (c : LocalCache) : Prop := order.Nodup ∧ order.toFinset = c.keys

instance (order : List String) (c : LocalCache) : Decidable (Visits order c) :=
  inferInstanceAs (Decidable (_ ∧ _))

/-- The message of `id` that `GetMessages` returns at the time `now`. -/
def valid (j : Json) (now : Nat) (c : LocalCache) (id : String) : Option Bytes :=
  (c.lookup id).bind fun m =>
    match j.action m with
    | some (some a) => if a.isExpired now then none else some m
    | _ => none

end LocalCache

/-- What `distributedCache` keeps in Redis. -/
abbrev KVStore := Expiring.Map String Bytes

/-- The instant of a Redis clock, in nanoseconds. -/
def instant (now : Nat) : Int := now * 1000000000

namespace KVStore

/-- `AddMessage`. -/
def addMessage (j : Json) (now : Nat) (m : Bytes) (s : KVStore) : KVStore :=
  match j.info m with
  | none => s
  | some i =>
    if 0 < i.getExpiration now then
      Expiring.set (messageKey i.id) m (instant now + i.getExpiration now) s
    else s

/-- `GetMessages`, when SCAN returns the keys `scan`: a key that is gone by then is left out. -/
def getMessages (now : Nat) (scan : List String) (s : KVStore) : List Bytes :=
  scan.filterMap fun key => Expiring.get (instant now) key s

/-- `RemoveMessage`. -/
def removeMessage (ID : String) (s : KVStore) : KVStore := Expiring.del (messageKey ID) s

end KVStore

/-! ## Expirations -/

/-- Without overflow the expiration is positive until the message expires. -/
theorem getExpiration_eq {now : Nat} {i : MessageInfo} (h : FitsDuration (i.expireTime - now)) :
    i.getExpiration now = (i.expireTime - now) * 1000000000 := seconds_eq h

theorem getExpiration_pos {now : Nat} {i : MessageInfo} (h : FitsDuration (i.expireTime - now)) :
    0 < i.getExpiration now ↔ (now : Int) < i.expireTime := by
  rw [getExpiration_eq h]
  omega

/-! ## `GetMessages` of the local cache -/

namespace LocalCache

variable {j : Json} {now : Nat} {c c' : LocalCache} {order : List String} {id : String} {m : Bytes}

/-- No entry is JSON `null`. -/
def NoNull (j : Json) (c : LocalCache) : Prop :=
  ∀ id m, c.lookup id = some m → j.action m ≠ some none

theorem valid_congr (h : c.lookup id = c'.lookup id) : valid j now c id = valid j now c' id := by
  unfold valid
  rw [h]

theorem valid_eq_some : valid j now c id = some m ↔ c.lookup id = some m ∧
    ∃ a, j.action m = some (some a) ∧ (now : Int) < a.expireTime := by
  unfold valid
  rw [Option.bind_eq_some_iff]
  constructor
  · rintro ⟨m', hm, hv⟩
    split at hv
    · rename_i a ha
      split at hv
      · cases hv
      · rename_i hexp
        cases hv
        exact ⟨hm, a, ha, by simpa [ActionInfo.isExpired] using hexp⟩
    · cases hv
  · rintro ⟨hm, a, ha, hlt⟩
    refine ⟨m, hm, ?_⟩
    simp [ha, ActionInfo.isExpired, hlt]

/-- One round: the entry is returned, or deleted because it is not valid. -/
theorem visit_eq {res : List Bytes} (hnull : ∀ m, c.lookup id = some m → j.action m ≠ some none) :
    visit j now (c, res) id =
      .ok (match valid j now c id with
        | some m => (c, res ++ [m])
        | none => (c.erase id, res)) := by
  unfold visit valid
  cases hm : c.lookup id with
  | none =>
    simp [Expiring.erase_of_notMem (Finmap.lookup_eq_none.mp hm)]
  | some m =>
    cases ha : j.action m with
    | none => simp [ha]
    | some o =>
      cases o with
      | none => exact absurd ha (hnull m hm)
      | some a => cases he : a.isExpired now <;> simp [ha, he]

/-- The whole loop, from any result so far. -/
theorem foldlM_visit (now : Nat) (res : List Bytes) (hnull : NoNull j c) (hnodup : order.Nodup) :
    ∃ c', order.foldlM (visit j now) (c, res) =
        (.ok (c', res ++ order.filterMap (valid j now c)) : Outcome Empty _) ∧
      ∀ k, c'.lookup k = if k ∈ order then valid j now c k else c.lookup k := by
  induction order generalizing c res with
  | nil => exact ⟨c, by simp [pure, Except.pure], fun k => by simp⟩
  | cons id order ih =>
    rw [List.nodup_cons] at hnodup
    obtain ⟨hnot, hnodup⟩ := hnodup
    rw [List.foldlM_cons, visit_eq (hnull id)]
    cases hv : valid j now c id with
    | some m =>
      obtain ⟨c', hc', hlookup⟩ := ih (res ++ [m]) hnull hnodup
      refine ⟨c', by simpa [bind, Except.bind, hv] using hc', fun k => ?_⟩
      rw [hlookup k]
      by_cases hk : k = id
      · subst hk
        simp [hnot, hv, (valid_eq_some.mp hv).1]
      · simp [hk]
    | none =>
      have hne : ∀ k, k ≠ id → (c.erase id).lookup k = c.lookup k :=
        fun k hk => Finmap.lookup_erase_ne hk
      have hnull' : NoNull j (c.erase id) := by
        intro k m hm
        by_cases hk : k = id
        · subst hk
          simp at hm
        · exact hnull k m ((hne k hk).symm.trans hm)
      obtain ⟨c', hc', hlookup⟩ := ih res hnull' hnodup
      have hcongr :
          order.filterMap (valid j now (c.erase id)) = order.filterMap (valid j now c) := by
        refine List.filterMap_congr fun k hk => valid_congr (hne k ?_)
        rintro rfl
        exact hnot hk
      refine ⟨c', by simpa [bind, Except.bind, hv, hcongr] using hc', fun k => ?_⟩
      rw [hlookup k]
      by_cases hk : k = id
      · subst hk
        simp [hnot, hv]
      · rw [valid_congr (hne k hk), hne k hk]
        simp [hk]

/-- **`GetMessages`** does not panic if no entry is `null`; it returns the valid entries, and
deletes all others. -/
theorem getMessages_eq (now : Nat) (hnull : NoNull j c) (hv : Visits order c) :
    ∃ c', getMessages j now order c = .ok (c', order.filterMap (valid j now c)) ∧
      ∀ k, c'.lookup k = valid j now c k := by
  obtain ⟨hnodup, hkeys⟩ := hv
  obtain ⟨c', hc', hlookup⟩ := foldlM_visit now [] hnull hnodup
  refine ⟨c', by simpa [getMessages] using hc', fun k => ?_⟩
  rw [hlookup k]
  split
  · rfl
  · rename_i hk
    have hnone : c.lookup k = none := by
      rw [Finmap.lookup_eq_none, ← Finmap.mem_keys, ← hkeys, List.mem_toFinset]
      exact hk
    rw [hnone, valid, hnone]
    rfl

end LocalCache

end SigningAgent.Message
