import SigningAgent.Lib.System
import SigningAgent.Message.Cache

/-!
# Are the two message caches interchangeable?

One agent makes the same calls on a `localCache` and on a `distributedCache`, at times that never go
back. `answers` records what each `GetMessages` returned on both.

The local cache decodes a message again when it reads it and drops what is no `ActionInfo`, or has
expired by then. The distributed one returns everything under the keys that SCAN reports, once for
each report; a message goes only with its time to live, which was fixed when it was stored. So the
answers differ if a message is stored that is no `ActionInfo` (`not_interchangeable`), if SCAN
reports a key twice, or if the expiration wraps. `Regular` is the condition on a call that none of
this happens.

**`interchangeable`**: in every run whose calls are all `Regular`, the local cache never panics and
each time both caches return the same messages, up to order. The invariant is `Same`: at every time
from now on, the two have the same message to return for every ID.
-/

namespace SigningAgent.Message

open Transition
open SigningAgent.Action (messageKey messageKey_inj)

/-- Both caches, and what they have returned so far. -/
structure Caches where
  now : Nat
  localCache : LocalCache
  distributedCache : KVStore
  answers : List (Outcome Empty (List Bytes) × List Bytes)

inductive Call where
  | addMessage (m : Bytes)
  | removeMessage (ID : String)
  /-- Go visits the map in this order, and SCAN returns these keys -/
  | getMessages (order scan : List String)
  | advance (seconds : Nat)
  deriving DecidableEq

/-- The local cache after `GetMessages`. -/
def LocalCache.afterGet (j : Json) (now : Nat) (order : List String) (c : LocalCache) :
    LocalCache :=
  match c.getMessages j now order with
  | .ok x => x.1
  | .error _ => c

def callStep (j : Json) : Call → Caches → Option Caches
  | .addMessage m, s => some { s with
      localCache := s.localCache.addMessage j s.now m
      distributedCache := s.distributedCache.addMessage j s.now m }
  | .removeMessage ID, s => some { s with
      localCache := s.localCache.removeMessage ID
      distributedCache := s.distributedCache.removeMessage ID }
  | .getMessages order scan, s =>
    if LocalCache.Visits order s.localCache ∧
        Expiring.live (instant s.now) s.distributedCache ⊆ scan.toFinset then
      some { s with
        localCache := s.localCache.afterGet j s.now order
        answers := s.answers ++ [((s.localCache.getMessages j s.now order).map Prod.snd,
          s.distributedCache.getMessages s.now scan)] }
    else none
  | .advance n, s => some { s with now := s.now + n }

/-- All sequences of calls, from empty caches. -/
def caching (j : Json) : System Caches Call where
  init s := s.localCache = ∅ ∧ s.distributedCache = ∅ ∧ s.answers = []
  step := callStep j

/-- Each time both caches returned the same messages, up to order. -/
def Interchangeable (s : Caches) : Prop :=
  ∀ p ∈ s.answers, ∃ res, p.1 = .ok res ∧ res.Perm p.2

/-- The condition on a call: what is stored is an `ActionInfo` and its expiration does not wrap, and
SCAN reports no key twice. -/
def Regular (j : Json) (s : Caches) : Call → Prop
  | .addMessage m => ∀ i ∈ j.info m, 0 < i.getExpiration s.now →
      FitsDuration (i.expireTime - s.now) ∧ (j.action m).join.isSome = true
  | .getMessages _ scan => scan.Nodup
  | _ => True

instance (j : Json) (s : Caches) : ∀ a, Decidable (Regular j s a)
  | .addMessage _ | .getMessages .. => by unfold Regular; infer_instance
  | .removeMessage _ | .advance _ => isTrue trivial

/-- At every time from now on, both caches have the same message for every ID. -/
structure Same (j : Json) (s : Caches) : Prop where
  actions : ∀ id m, s.localCache.lookup id = some m → (j.action m).join.isSome = true
  same : ∀ t, s.now ≤ t → ∀ id,
    s.localCache.valid j t id = Expiring.get (instant t) (messageKey id) s.distributedCache
  keys : ∀ k ∈ s.distributedCache, ∃ id, k = messageKey id

/-! ## The calls keep the caches the same -/

section

variable {j : Json} {s : Caches} {m : Bytes}

/-- What a regular message decodes to. -/
theorem action_of_join (h : (j.action m).join.isSome = true) : ∃ a, j.action m = some (some a) := by
  obtain ⟨a, ha⟩ := Option.isSome_iff_exists.mp h
  exact ⟨a, Option.join_eq_some_iff.mp ha⟩

theorem Same.noNull (h : Same j s) : LocalCache.NoNull j s.localCache := by
  intro id m hm hnull
  obtain ⟨a, ha⟩ := action_of_join (h.actions id m hm)
  rw [ha] at hnull
  cases hnull

/-- A message is stored on both sides, until it expires. -/
theorem Same.insert (h : Same j s) {i : MessageInfo} {a : ActionInfo} (hi : j.info m = some i)
    (hfits : FitsDuration (i.expireTime - s.now)) (ha : j.action m = some (some a)) :
    Same j { s with
      localCache := s.localCache.insert i.id m
      distributedCache := Expiring.set (messageKey i.id) m
        (instant s.now + i.getExpiration s.now) s.distributedCache } := by
  obtain ⟨-, htime⟩ := j.agree m a i ha hi
  have hdeadline : instant s.now + i.getExpiration s.now = a.expireTime * 1000000000 := by
    rw [getExpiration_eq hfits, ← htime, instant]
    omega
  refine ⟨fun id m' hm' => ?_, fun t ht id => ?_, fun k hk => ?_⟩
  · by_cases hid : id = i.id
    · subst hid
      obtain rfl : m = m' := by simpa using hm'
      simp [ha]
    · rw [Finmap.lookup_insert_of_ne _ hid] at hm'
      exact h.actions id m' hm'
  · by_cases hid : id = i.id
    · subst hid
      rw [hdeadline, Expiring.get_set_self, LocalCache.valid, Finmap.lookup_insert]
      simp only [Option.bind_some, ha, ActionInfo.isExpired, decide_eq_true_eq]
      by_cases hexp : a.expireTime ≤ t
      · rw [if_pos hexp, if_neg]
        unfold instant
        omega
      · rw [if_neg hexp, if_pos]
        unfold instant
        omega
    · rw [Expiring.get_set_of_ne (fun he => hid (messageKey_inj he)), ← h.same t ht id]
      exact LocalCache.valid_congr (Finmap.lookup_insert_of_ne _ hid)
  · rcases Finmap.mem_insert.mp hk with rfl | hk
    · exact ⟨i.id, rfl⟩
    · exact h.keys k hk

theorem Same.addMessage (h : Same j s) (hg : Regular j s (.addMessage m)) :
    Same j { s with
      localCache := s.localCache.addMessage j s.now m
      distributedCache := s.distributedCache.addMessage j s.now m } := by
  unfold LocalCache.addMessage KVStore.addMessage
  cases hi : j.info m with
  | none => exact h
  | some i =>
    by_cases hpos : 0 < i.getExpiration s.now
    · obtain ⟨hfits, hjoin⟩ := hg i hi hpos
      obtain ⟨a, ha⟩ := action_of_join hjoin
      simp only [hpos, if_true]
      exact h.insert hi hfits ha
    · simp only [hpos, if_false]
      exact h

theorem Same.removeMessage (h : Same j s) (ID : String) :
    Same j { s with
      localCache := s.localCache.removeMessage ID
      distributedCache := s.distributedCache.removeMessage ID } := by
  refine ⟨fun id m hm => ?_, fun t ht id => ?_, fun k hk => ?_⟩
  · by_cases hid : id = ID
    · subst hid
      simp [LocalCache.removeMessage] at hm
    · exact h.actions id m ((Finmap.lookup_erase_ne hid).symm.trans hm)
  · by_cases hid : id = ID
    · subst hid
      simp [LocalCache.valid, LocalCache.removeMessage, KVStore.removeMessage]
    · rw [KVStore.removeMessage, Expiring.get_del_of_ne (fun he => hid (messageKey_inj he)),
        ← h.same t ht id]
      exact LocalCache.valid_congr (Finmap.lookup_erase_ne hid)
  · exact h.keys k (Finmap.mem_erase.mp hk).2

/-- What the local cache drops has expired for good. -/
theorem LocalCache.valid_of_le {c : LocalCache} {now t : Nat} (ht : now ≤ t) {id : String}
    (hm : c.valid j t id = some m) : c.valid j now id = some m := by
  obtain ⟨hm, a, ha, hlt⟩ := LocalCache.valid_eq_some.mp hm
  exact LocalCache.valid_eq_some.mpr ⟨hm, a, ha, by omega⟩

theorem Same.getMessages (h : Same j s) {order scan : List String}
    (hv : LocalCache.Visits order s.localCache) (hscan : scan.Nodup)
    (hlive : Expiring.live (instant s.now) s.distributedCache ⊆ scan.toFinset) :
    Same j { s with localCache := s.localCache.afterGet j s.now order } ∧
      ∃ res, (s.localCache.getMessages j s.now order).map Prod.snd = .ok res ∧
        res.Perm (s.distributedCache.getMessages s.now scan) := by
  obtain ⟨c', hc', hlookup⟩ := LocalCache.getMessages_eq s.now h.noNull hv
  obtain ⟨hnodup, hkeys⟩ := hv
  refine ⟨?_, order.filterMap (s.localCache.valid j s.now), by rw [hc']; rfl, ?_⟩
  · -- an entry of the local cache stays if it is valid now, and the others never will be
    unfold LocalCache.afterGet
    rw [hc']
    refine ⟨fun id m hm => ?_, fun t ht id => ?_, h.keys⟩
    · rw [hlookup] at hm
      exact h.actions id m (LocalCache.valid_eq_some.mp hm).1
    · rw [← h.same t ht id]
      refine Option.ext fun m => ?_
      constructor <;> intro hm
      · obtain ⟨hm, hrest⟩ := LocalCache.valid_eq_some.mp hm
        rw [hlookup] at hm
        exact LocalCache.valid_eq_some.mpr ⟨(LocalCache.valid_eq_some.mp hm).1, hrest⟩
      · have hnow := LocalCache.valid_of_le ht hm
        exact LocalCache.valid_eq_some.mpr
          ⟨(hlookup id).trans hnow, (LocalCache.valid_eq_some.mp hm).2⟩
  · -- both are read through the keys in Redis
    have hread : s.localCache.valid j s.now =
        (fun k => Expiring.get (instant s.now) k s.distributedCache) ∘ messageKey := by
      funext id
      exact h.same s.now le_rfl id
    rw [hread, ← List.filterMap_map]
    refine Expiring.filterMap_perm (hnodup.map fun _ _ he => messageKey_inj he) hscan fun k hk => ?_
    obtain ⟨id, rfl⟩ := h.keys k (by
      obtain ⟨m, hm⟩ := Option.isSome_iff_exists.mp hk
      exact Expiring.mem_of_get hm)
    have hin : id ∈ order := by
      rw [← h.same s.now le_rfl id] at hk
      obtain ⟨m, hm⟩ := Option.isSome_iff_exists.mp hk
      have hmem := Finmap.mem_of_lookup_eq_some (LocalCache.valid_eq_some.mp hm).1
      rwa [← Finmap.mem_keys, ← hkeys, List.mem_toFinset] at hmem
    have hscanned := List.mem_toFinset.mp (hlive (Expiring.mem_live.mpr hk))
    exact ⟨fun _ => hscanned, fun _ => List.mem_map_of_mem hin⟩

/-- The step lemma. -/
theorem Same.step {a : Call} {s' : Caches} (h : Same j s) (hi : Interchangeable s)
    (hg : Regular j s a) (hs : callStep j a s = some s') : Same j s' ∧ Interchangeable s' := by
  cases a with
  | addMessage m =>
    cases hs
    exact ⟨h.addMessage hg, hi⟩
  | removeMessage ID =>
    cases hs
    exact ⟨h.removeMessage ID, hi⟩
  | getMessages order scan =>
    simp only [callStep] at hs
    split at hs
    · rename_i hv
      cases hs
      obtain ⟨hsame, hres⟩ := h.getMessages hv.1 hg hv.2
      refine ⟨⟨hsame.actions, hsame.same, hsame.keys⟩, fun p hp => ?_⟩
      rcases List.mem_append.mp hp with hp | hp
      · exact hi p hp
      · rw [List.mem_singleton.mp hp]
        exact hres
    · cases hs
  | advance n =>
    cases hs
    exact ⟨⟨h.actions, fun t ht => h.same t (Nat.le_trans (Nat.le_add_right ..) ht), h.keys⟩, hi⟩

end

/-- **The caches are interchangeable** in every run whose calls are all `Regular`. -/
theorem interchangeable {j : Json} {s : Caches} (hr : (caching j).ReachableBy (Regular j) s) :
    Interchangeable s := by
  refine (hr.invariant (I := fun s => Same j s ∧ Interchangeable s) ?_ ?_).2
  · rintro s ⟨hl, hd, ha⟩
    refine ⟨⟨fun id m hm => ?_, fun t _ id => ?_, fun k hk => ?_⟩, fun p hp => ?_⟩
    · simp [hl] at hm
    · rw [hl, hd]
      rfl
    · rw [hd] at hk
      exact absurd hk Finmap.notMem_empty
    · rw [ha] at hp
      cases hp
  · rintro s a s' ⟨h, hi⟩ hg hs
    exact h.step hi hg hs

/-- Two actions are stored, one expires, the other one is returned by both. -/
theorem interchangeable_sample :
    ∃ s, (caching sampleJson).ReachableBy (Regular sampleJson) s ∧ Interchangeable s ∧
      s.answers = [(.ok [sampleA, sampleB], [sampleB, sampleA]), (.ok [sampleB], [sampleB])] := by
  obtain ⟨s, hr, hs⟩ := System.exists_reachableBy (M := caching sampleJson)
    (G := Regular sampleJson) (g := fun s a => decide (Regular sampleJson s a))
    (fun _ _ => of_decide_eq_true) (s := ⟨7, ∅, ∅, []⟩) ⟨rfl, rfl, rfl⟩
    [.addMessage sampleA, .addMessage sampleB,
      .getMessages ["a", "b"] ["transaction:b", "transaction:a"], .advance 93,
      .getMessages ["b", "a"] ["transaction:b"]]
    (fun s => s.answers =
      [(.ok [sampleA, sampleB], [sampleB, sampleA]), (.ok [sampleB], [sampleB])])
    (by decide +kernel)
  exact ⟨s, hr, interchangeable hr, of_decide_eq_true hs⟩

/-- **Not interchangeable.** A message whose status is no number is stored by both caches and
returned by the distributed one only. -/
theorem not_interchangeable :
    ¬ ∀ (j : Json) (s : Caches), (caching j).Reachable s → Interchangeable s := by
  intro hall
  obtain ⟨s, hr, hs⟩ := System.exists_reachable (M := caching sampleJson)
    (s := ⟨7, ∅, ∅, []⟩) ⟨rfl, rfl, rfl⟩
    [.addMessage sampleC, .getMessages ["c"] ["transaction:c"]]
    (fun s => s.answers = [(.ok [], [sampleC])]) (by decide +kernel)
  have h := hall sampleJson s hr
  rw [Interchangeable, of_decide_eq_true hs] at h
  obtain ⟨res, hres, hperm⟩ := h _ (List.mem_singleton.mpr rfl)
  cases hres
  exact absurd hperm.length_eq (by decide)

end SigningAgent.Message
