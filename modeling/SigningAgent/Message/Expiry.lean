import SigningAgent.Message.Cache

/-!
# Two notions of expiry

`messageInfo.getExpiration` scales the seconds left to nanoseconds, in 64 bits;
`ActionInfo.IsExpired` compares seconds. `AddMessage` of both caches asks the first,
`GetMessages` and the auto-approver ask the second.

`getExpiration_wraps` says that the `getExpiration` of `Cache.lean`, which wraps once, is what Go
computes with a wrap of its own for the subtraction. `FarOff` are the times of expiry whose distance
does not fit.

**`expiry_agrees_iff`**: the two agree, and the time to live is what is left, if and only if the
time of expiry is not far off. A message that expires in more than 292 years is taken for expired or
given a wrong time to live, and one that expired so long ago may be stored.
-/

namespace SigningAgent.Message

open SigningAgent.Action (messageKey)

/-- The value of an `int64` operation whose exact result is `n`. -/
def wrap64 (n : Int) : Int := n.bmod (2 ^ 64)

/-- `time.Duration(m.ExpireTime - time.Now().Unix()) * time.Second`. -/
theorem getExpiration_wraps (now : Nat) (i : MessageInfo) :
    i.getExpiration now = wrap64 (wrap64 (i.expireTime - now) * 1000000000) :=
  Int.bmod_mul_bmod.symm

/-- The code's two notions of expiry agree, and so do both caches with them. -/
structure ExpiryAgrees (now : Nat) (i : MessageInfo) : Prop where
  positive : ∀ a : ActionInfo, a.expireTime = i.expireTime →
    (0 < i.getExpiration now ↔ a.isExpired now = false)
  /-- `localCache.AddMessage` -/
  stored : ∀ (j : Json) (m : Bytes) (c : LocalCache) (a : ActionInfo), j.info m = some i →
    a.expireTime = i.expireTime →
    c.addMessage j now m = if a.isExpired now then c else c.insert i.id m
  /-- `distributedCache.AddMessage` -/
  set : ∀ (j : Json) (m : Bytes) (s : KVStore) (a : ActionInfo), j.info m = some i →
    a.expireTime = i.expireTime →
    s.addMessage j now m = if a.isExpired now then s
      else Expiring.set (messageKey i.id) m (instant now + i.getExpiration now) s
  /-- the expiration passed to `Set` -/
  ttl : 0 < i.getExpiration now → i.getExpiration now = (i.expireTime - now) * 1000000000

/-- The distance from `now` does not fit: it is ahead, or behind and wraps to a positive number. -/
def FarOff (now : Nat) (expireTime : Int) : Prop :=
  9223372036 < expireTime - now ∨
    expireTime ≤ now ∧ 2 ^ 63 < (now - expireTime) * 1000000000 % 2 ^ 64

instance (now : Nat) (expireTime : Int) : Decidable (FarOff now expireTime) :=
  inferInstanceAs (Decidable (_ ∨ _))

variable {now : Nat} {i : MessageInfo}

/-- When a negative number wraps to a positive one. -/
theorem neg_bmod_pos (y : Int) : 0 < (-y).bmod (2 ^ 64) ↔ 2 ^ 63 < y % 2 ^ 64 := by
  rw [Int.bmod_def]
  split_ifs <;> omega

/-- What is behind has a positive expiration just if it is far off. -/
theorem getExpiration_behind (h : i.expireTime ≤ now) :
    0 < i.getExpiration now ↔ FarOff now i.expireTime := by
  have hneg : (i.expireTime - now) * 1000000000 = -((now - i.expireTime) * 1000000000) := by
    omega
  rw [MessageInfo.getExpiration, seconds, hneg, neg_bmod_pos]
  unfold FarOff
  constructor
  · exact fun hwrap => .inr ⟨h, hwrap⟩
  · rintro (hahead | ⟨-, hwrap⟩)
    · omega
    · exact hwrap

/-- What is ahead has its distance as expiration, unless it is far off. -/
theorem getExpiration_ahead (h : (now : Int) < i.expireTime) (hnear : ¬ FarOff now i.expireTime) :
    i.getExpiration now = (i.expireTime - now) * 1000000000 := by
  have hle : i.expireTime - now ≤ 9223372036 := Int.not_lt.mp fun hlt => hnear (.inl hlt)
  exact getExpiration_eq ⟨by omega, by omega⟩

theorem getExpiration_pos_of_near (hnear : ¬ FarOff now i.expireTime) :
    0 < i.getExpiration now ↔ (now : Int) < i.expireTime := by
  rcases lt_or_ge (now : Int) i.expireTime with hahead | hbehind
  · rw [getExpiration_ahead hahead hnear]
    omega
  · rw [getExpiration_behind hbehind]
    exact iff_of_false hnear (Int.not_lt.mpr hbehind)

/-- `IsExpired` of an action with the time of expiry of `i`. -/
theorem isExpired_eq {a : ActionInfo} (ha : a.expireTime = i.expireTime) :
    a.isExpired now = !decide ((now : Int) < i.expireTime) := by
  rw [ActionInfo.isExpired, ha, ← decide_not, decide_eq_decide, Int.not_lt]

/-- **The two notions agree** if and only if the time of expiry is not far off. -/
theorem expiry_agrees_iff (now : Nat) (i : MessageInfo) :
    ExpiryAgrees now i ↔ ¬ FarOff now i.expireTime := by
  constructor
  · intro h hfar
    have hpos := h.positive ⟨i.id, statusPending, [], i.expireTime⟩ rfl
    rw [isExpired_eq rfl] at hpos
    rcases lt_or_ge (now : Int) i.expireTime with hahead | hbehind
    · -- the exact distance is no `int64`
      have httl := h.ttl (hpos.mpr (by simpa using hahead))
      have hlt : i.getExpiration now < 2 ^ 63 := Int.bmod_lt (by decide)
      have hdist : 9223372036 < i.expireTime - now :=
        hfar.resolve_right fun hb => absurd hahead (Int.not_lt.mpr hb.1)
      omega
    · have hexp := hpos.mp ((getExpiration_behind hbehind).mpr hfar)
      exact absurd hexp (by simpa using hbehind)
  · intro hnear
    have hpos := getExpiration_pos_of_near hnear
    refine ⟨fun a ha => ?_, fun j m c a hm ha => ?_, fun j m s a hm ha => ?_,
      fun hlt => getExpiration_ahead (hpos.mp hlt) hnear⟩
    · rw [hpos, isExpired_eq ha]
      simp
    · rw [isExpired_eq ha, LocalCache.addMessage, hm]
      by_cases hahead : (now : Int) < i.expireTime <;> simp [hpos, hahead]
    · rw [isExpired_eq ha, KVStore.addMessage, hm]
      by_cases hahead : (now : Int) < i.expireTime <;> simp [hpos, hahead]

/-- **A message that expires in 292 years** is taken for expired. -/
theorem far_expiry_refused : ¬ ∀ now i, ExpiryAgrees now i := by
  intro hall
  have hpos := (hall 0 ⟨"a", 9223372037⟩).positive ⟨"a", statusPending, [], 9223372037⟩ rfl
  exact absurd hpos (by decide +kernel)

end SigningAgent.Message
