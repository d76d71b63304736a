import SigningAgent.Action.AtMostOnce

/-!
# How soon an action may be signed again

`Release` writes the marker of an action with an expiry, `ActionIDExpirationSec`. In `Handlers.lean`
a marker may expire at any time, and `signed_once` says that some marker has expired between two
successes for one action. It need not be the one that the first of them left: a marker of an earlier
handler may expire before that one is written. Here the handlers run under a clock, and a marker
lives for `E` after it was last written.

* `Clocked`: the handlers, the clock, when each marker was written, and the events with their times
  (`history_log`: those of the log).
* `Since x h τ`: the success of handler `h` for `x` at the time `τ` still counts. The handler has
  yet to write the marker, or it is there and was written at `τ` or later; and nobody else is on the
  way to the signer.
* **`signed_apart`**: in every run under load balancing whose steps all meet `Window`, two
  successful signer calls for one action are at least `E` apart.
-/

namespace SigningAgent.Action

open Transition

structure Clocked where
  state : State
  clock : Nat
  /-- when the marker under the key was last written -/
  setAt : String → Nat
  /-- the events with their times, the last one first -/
  history : List (Nat × Event)

namespace Clocked

inductive Label where
  /-- time passes -/
  | wait (d : Nat)
  | act (a : Action.Label)

/-- A marker expires when its time is up. -/
def may (E : Nat) (t : Clocked) : Action.Label → Bool
  | .expire key =>
    decide (t.state.sync.redis key = some .handled → t.setAt key + E ≤ t.clock)
  | _ => true

/-- The markers' times after a step. -/
def marked (t : Clocked) : Action.Label → String → Nat
  | .move h .mark => match t.state.handlers[h]? with
    | some c => Function.update t.setAt (getKey c.actionID) t.clock
    | none => t.setAt
  | _ => t.setAt

/-- What a step leaves: its events are the new ones of the log. -/
def after (t : Clocked) (a : Action.Label) (s : State) : Clocked where
  state := s
  clock := t.clock
  setAt := t.marked a
  history := (s.log.take (s.log.length - t.state.log.length)).map (t.clock, ·) ++ t.history

/-- The handlers under a clock. -/
def clocked (cfg : Config) (E : Nat) : System Clocked Label where
  init t := t.state = start ∧ t.history = []
  step
    | .wait d, t => some { t with clock := t.clock + d }
    | .act a, t =>
      if t.may E a then (Action.step cfg a t.state).map (t.after a) else none

/-- The condition of `AtMostOnce.lean`. -/
def Window (t : Clocked) : Label → Prop
  | .wait _ => True
  | .act a => Action.Window t.state a

instance (t : Clocked) : ∀ a, Decidable (t.Window a)
  | .wait _ => isTrue trivial
  | .act a => inferInstanceAs (Decidable (Action.Window t.state a))

end Clocked

/-- The successes for the action are at least `E` apart. -/
def ApartBy (E : Nat) (actionID : String) (history : List (Nat × Event)) : Prop :=
  ∀ newer between older τ g cg τ' h ch,
    history = newer ++ (τ, .signed g cg actionID true) :: between ++
      (τ', .signed h ch actionID true) :: older → τ' + E ≤ τ

/-- The success of handler `h` for the action at the time `τ` still counts: see the header. -/
structure Since (x : String) (h τ : Nat) (t : Clocked) : Prop where
  signer : (∃ c, t.state.handlers[h]? = some c ∧ c.actionID = x ∧ c.phase.succeeded = true) ∨
    t.state.sync.redis (getKey x) = some .handled ∧ τ ≤ t.setAt (getKey x)
  others : ∀ (g : Nat) (c : Handler), t.state.handlers[g]? = some c → c.actionID = x →
    c.phase.pending = false

variable {cfg : Config} {E : Nat} {x : String} {h τ g : Nat} {t : Clocked} {s' : State}
  {c : Handler} {m : Move}

/-! ## The history -/

theorem history_after {a : Label} {new : List Event} (hnew : s'.log = new ++ t.state.log) :
    (t.after a s').history = new.map (t.clock, ·) ++ t.history := by
  have hlen : s'.log.length - t.state.log.length = new.length := by
    rw [hnew, List.length_append]
    omega
  rw [Clocked.after, hlen, hnew, List.take_left]

/-- **The history is the log**, with the times of its events. -/
theorem history_log (hlb : cfg.loadBalancingEnabled = true)
    (ht : (Clocked.clocked cfg E).Reachable t) : t.history.map Prod.snd = t.state.log := by
  refine ht.invariant (I := fun t => t.history.map Prod.snd = t.state.log) ?_ ?_
  · rintro t ⟨hstart, hhistory⟩
    rw [hstart, hhistory]
    rfl
  · intro t a t' hi hstep
    cases a with
    | wait d =>
      obtain rfl := Option.some.inj hstep
      exact hi
    | act a =>
      simp only [Clocked.clocked] at hstep
      split_ifs at hstep
      obtain ⟨s', hs, rfl⟩ := Option.map_eq_some_iff.mp hstep
      obtain ⟨new, hnew, -⟩ := step_log hlb hs
      have hmap : (new.map (t.clock, ·)).map Prod.snd = new := by
        rw [List.map_map]
        exact List.map_id new
      rw [history_after hnew, List.map_append, hi, hmap]
      exact hnew.symm

/-- An event keeps the successes apart, unless it is one too soon. -/
theorem ApartBy.cons {history : List (Nat × Event)} {e : Event} {σ : Nat}
    (hold : ApartBy E x history)
    (he : ∀ g cg, e = .signed g cg x true → ∀ τ h ch, (τ, .signed h ch x true) ∈ history →
      τ + E ≤ σ) : ApartBy E x ((σ, e) :: history) := by
  intro newer between older τ g cg τ' h ch heq
  cases newer with
  | nil =>
    obtain ⟨hfirst, rfl⟩ := List.cons.inj heq
    obtain ⟨rfl, rfl⟩ := Prod.mk.inj hfirst
    exact he g cg rfl τ' h ch (List.mem_append_right _ (List.mem_cons_self ..))
  | cons y newer =>
    obtain ⟨-, rfl⟩ := List.cons.inj heq
    exact hold newer between older τ g cg τ' h ch (by simp)

/-! ## A success counts until its marker expires -/

/-- What a handler's step has to respect. -/
theorem Since.move {a : Label} {p : Phase} (hs : Since x h τ t)
    (hc : t.state.handlers[g]? = some c)
    (hh : s'.handlers = t.state.handlers.set g { c with phase := p })
    (hmark : t.state.sync.redis (getKey x) = some .handled →
      s'.sync.redis (getKey x) = some .handled)
    (hset : τ ≤ t.setAt (getKey x) → τ ≤ t.marked a (getKey x))
    (hpend : c.actionID = x → p.pending = false)
    (hsucc : c.actionID = x → c.phase.succeeded = true → p.succeeded = true ∨
      s'.sync.redis (getKey x) = some .handled ∧ τ ≤ t.marked a (getKey x)) :
    Since x h τ (t.after a s') := by
  have hlt : g < t.state.handlers.length := (List.getElem?_eq_some_iff.mp hc).1
  constructor
  · simp only [Clocked.after, hh]
    rcases hs.signer with ⟨d, hd, hid, hdone⟩ | ⟨hm, hle⟩
    · by_cases hgh : h = g
      · subst hgh
        obtain rfl : c = d := Option.some.inj (hc.symm.trans hd)
        rcases hsucc hid hdone with hp | hm
        · exact Or.inl ⟨_, List.getElem?_set_self hlt, hid, hp⟩
        · exact Or.inr hm
      · exact Or.inl ⟨d, (List.getElem?_set_ne (Ne.symm hgh)).trans hd, hid, hdone⟩
    · exact Or.inr ⟨hmark hm, hset hle⟩
  · intro i d hd hid
    simp only [Clocked.after, hh] at hd
    rcases getElem?_set_cases hd with ⟨-, rfl⟩ | ⟨-, hd⟩
    · exact hpend hid
    · exact hs.others i d hd hid

/-- A handler on the way to the signer has another action. -/
theorem Since.ne_of_pending (hs : Since x h τ t) (hc : t.state.handlers[g]? = some c)
    (hp : c.phase.pending = true) : c.actionID ≠ x := by
  intro hid
  rw [hs.others g c hc hid] at hp
  cases hp

/-- So has one that passes the check. -/
theorem Since.ne_of_passed (hs : Since x h τ t) (hc : t.state.handlers[g]? = some c)
    (hk : t.state.sync.redis (getKey c.actionID) = none)
    (hw : Action.Window t.state (.move g .check)) : c.actionID ≠ x := by
  rintro rfl
  rcases hs.signer with ⟨d, hd, hid, hdone⟩ | ⟨hm, -⟩
  · rw [hw c hc hk d (List.mem_of_getElem? hd) hid] at hdone
    cases hdone
  · rw [hk] at hm
    cases hm

/-- The steps of the handlers. -/
theorem Since.effect (hs : Since x h τ t) (hτ : τ ≤ t.clock)
    (hc : t.state.handlers[g]? = some c) (hw : Action.Window t.state (.move g m))
    (he : Effect cfg g c t.state m s') : Since x h τ (t.after (.move g m) s') := by
  -- a handler of another action leaves the marker, and nobody else's place changes
  have hother : ∀ {p : Phase}, c.actionID ≠ x →
      s'.handlers = t.state.handlers.set g { c with phase := p } →
      (t.state.sync.redis (getKey x) = some .handled →
        s'.sync.redis (getKey x) = some .handled) →
      (τ ≤ t.setAt (getKey x) → τ ≤ t.marked (.move g m) (getKey x)) →
      Since x h τ (t.after (.move g m) s') := fun hne hh hmark hset =>
    hs.move hc hh hmark hset (fun hid => absurd hid hne) (fun hid => absurd hid hne)
  cases he with
  | handled hp hk =>
    refine hs.move hc rfl id id (fun _ => rfl) (fun _ hdone => ?_)
    simp [hp, Phase.succeeded] at hdone
  | passed hp hk =>
    refine hother (hs.ne_of_passed hc hk hw) rfl ?_ id
    simp only [Sync.redis_shouldHandleAction]
    exact id
  | acquired hp => exact hother (hs.ne_of_pending hc (by simp [hp, Phase.pending])) rfl id id
  | locked hp hl =>
    exact hother (hs.ne_of_pending hc (by simp [hp, Phase.pending])) rfl (Sync.handled_lock hl) id
  | gaveUp hp => exact hother (hs.ne_of_pending hc (by simp [hp, Phase.pending])) rfl id id
  | succeeded hp =>
    refine hother (hs.ne_of_pending hc (by simp [hp, Phase.pending])) rfl ?_ id
    unfold removeCached
    split
    · simp only [Sync.redis_removeMessage]
      exact id
    · exact id
  | failed hp => exact hother (hs.ne_of_pending hc (by simp [hp, Phase.pending])) rfl id id
  | retried hp => exact hother (hs.ne_of_pending hc (by simp [hp, Phase.pending])) rfl id id
  | unlocked hp =>
    refine hs.move hc rfl Sync.handled_unlock id (fun _ => rfl) (fun _ hdone => Or.inl ?_)
    rw [hp] at hdone
    exact hdone
  | marked hp =>
    have hset : t.marked (.move g .mark) = Function.update t.setAt (getKey c.actionID) t.clock := by
      simp only [Clocked.marked, hc]
    by_cases hid : c.actionID = x
    · subst hid
      have hnow : τ ≤ t.marked (.move g .mark) (getKey c.actionID) := by
        rw [hset, Function.update_self]
        exact hτ
      have hmarked := Sync.redis_setHandled_self c.actionID t.state.sync
      exact hs.move hc rfl (fun _ => hmarked) (fun _ => hnow) (fun _ => rfl)
        (fun _ _ => Or.inr ⟨hmarked, hnow⟩)
    · refine hother hid rfl (fun hm => ?_) (fun hle => ?_)
      · rw [← hm]
        exact Sync.redis_setHandled_of_ne _ (Ne.symm hid)
      · rwa [hset, Function.update_of_ne fun he => hid (getKey_inj he).symm]

/-- A new handler has not passed the check. -/
theorem Since.enter (hs : Since x h τ t) (agent : Nat) (caller : Caller) (actionID : String) :
    Since x h τ (t.after (.enter agent caller actionID) { t.state with
      handlers := t.state.handlers ++ [⟨agent, caller, actionID, .entered⟩] }) := by
  constructor
  · refine hs.signer.imp_left ?_
    rintro ⟨c, hc, hid, hdone⟩
    have hlt : h < t.state.handlers.length := (List.getElem?_eq_some_iff.mp hc).1
    exact ⟨c, (List.getElem?_append_left hlt).trans hc, hid, hdone⟩
  · intro g d hd hid
    simp only [Clocked.after] at hd
    by_cases hg : g < t.state.handlers.length
    · rw [List.getElem?_append_left hg] at hd
      exact hs.others g d hd hid
    · rw [List.getElem?_append_right (by omega)] at hd
      obtain rfl := List.mem_singleton.mp (List.mem_of_getElem? hd)
      rfl

/-- A marker that counts expires only when `E` has passed since the success. -/
theorem Since.expire (hs : Since x h τ t) {key : String} (hmay : t.may E (.expire key) = true) :
    τ + E ≤ t.clock ∨ Since x h τ (t.after (.expire key)
      { t.state.emit (.expired key) with sync := t.state.sync.expire key }) := by
  rcases hs.signer with hsigner | ⟨hm, hle⟩
  · exact Or.inr ⟨Or.inl hsigner, hs.others⟩
  · by_cases hk : key = getKey x
    · subst hk
      have hripe : t.setAt (getKey x) + E ≤ t.clock := of_decide_eq_true hmay hm
      exact Or.inl (by omega)
    · refine Or.inr ⟨Or.inr ⟨?_, hle⟩, hs.others⟩
      rw [← hm]
      exact Function.update_of_ne (Ne.symm hk) ..

/-! ## The invariant -/

/-- Every success counts, or `E` has passed since; and those of one action are `E` apart. -/
structure Spaced (E : Nat) (t : Clocked) : Prop where
  counts : ∀ τ h ch x, (τ, .signed h ch x true) ∈ t.history →
    τ ≤ t.clock ∧ (τ + E ≤ t.clock ∨ Since x h τ t)
  apart : ∀ x, ApartBy E x t.history

/-- The events of a step, of which at most one is a success. -/
theorem Spaced.after {a : Action.Label} {new : List Event} (hi : Spaced E t)
    (hnew : s'.log = new ++ t.state.log)
    (hold : ∀ x h τ, τ ≤ t.clock → Since x h τ t →
      τ + E ≤ t.clock ∨ Since x h τ (t.after a s'))
    (hsucc : ∀ h ch x, .signed h ch x true ∈ new →
      new = [.signed h ch x true] ∧ Since x h t.clock (t.after a s') ∧
        ∀ g τ, ¬ Since x g τ t) : Spaced E (t.after a s') := by
  have hhistory := @history_after t s' a new hnew
  constructor
  · intro τ h ch x hmem
    rw [hhistory, List.mem_append, List.mem_map] at hmem
    rcases hmem with ⟨e, he, heq⟩ | hmem
    · obtain ⟨rfl, rfl⟩ := Prod.mk.inj heq
      exact ⟨Nat.le_refl _, Or.inr (hsucc h ch x he).2.1⟩
    · obtain ⟨hle, hcount⟩ := hi.counts τ h ch x hmem
      exact ⟨hle, hcount.elim Or.inl (hold x h τ hle)⟩
  · intro x
    rw [hhistory]
    by_cases hex : ∃ h ch, .signed h ch x true ∈ new
    · obtain ⟨h, ch, hmem⟩ := hex
      obtain ⟨rfl, -, hnone⟩ := hsucc h ch x hmem
      refine (hi.apart x).cons fun g cg heq τ' h' ch' hmem' => ?_
      exact ((hi.counts τ' h' ch' x hmem').2).resolve_right (hnone h' τ')
    · have hquiet : ∀ l : List Event, (∀ h ch, .signed h ch x true ∉ l) →
          ApartBy E x (l.map (t.clock, ·) ++ t.history) := by
        intro l hl
        induction l with
        | nil => exact hi.apart x
        | cons e l ih =>
          refine (ih fun h ch hmem => hl h ch (List.mem_cons_of_mem _ hmem)).cons ?_
          rintro g cg rfl
          exact absurd (List.mem_cons_self ..) (hl g cg)
      exact hquiet new fun h ch hmem => hex ⟨h, ch, hmem⟩

/-- The events of a handler's step: if there is a success, it is this handler's and alone. -/
theorem effect_log {s : State} (he : Effect cfg g c s m s') :
    ∃ new, s'.log = new ++ s.log ∧ ∀ h ch x, .signed h ch x true ∈ new →
      new = [.signed h ch x true] ∧ m = .sign .ok ∧ h = g ∧ x = c.actionID ∧
        c.phase = .locked ∧ s'.handlers = s.handlers.set g { c with phase := .signed true } := by
  cases he with
  | succeeded hp =>
    refine ⟨[.signed g c.caller c.actionID true], rfl, fun h ch x hmem => ?_⟩
    obtain ⟨rfl, rfl, rfl, -⟩ := Event.signed.inj (List.mem_singleton.mp hmem)
    exact ⟨rfl, rfl, rfl, rfl, hp, rfl⟩
  | handled | gaveUp | marked => exact ⟨[.returned ..], rfl, by simp⟩
  | failed | retried => exact ⟨[.signed ..], rfl, by simp⟩
  | passed | acquired | locked | unlocked => exact ⟨[], rfl, by simp⟩

/-- A success counts from its own time on: nobody else is on the way to the signer. -/
theorem since_of_success (hc : t.state.handlers[g]? = some c)
    (hw : Action.Window t.state (.move g (.sign .ok)))
    (hh : s'.handlers = t.state.handlers.set g { c with phase := .signed true }) :
    Since c.actionID g t.clock (t.after (.move g (.sign .ok)) s') := by
  have hlt : g < t.state.handlers.length := (List.getElem?_eq_some_iff.mp hc).1
  constructor
  · refine Or.inl ⟨{ c with phase := .signed true }, ?_, rfl, rfl⟩
    simp only [Clocked.after, hh, List.getElem?_set_self hlt]
  · intro i d hd hid
    simp only [Clocked.after, hh] at hd
    rcases getElem?_set_cases hd with ⟨-, rfl⟩ | ⟨hne, hd⟩
    · rfl
    · exact hw c hc d (List.mem_eraseIdx_iff_getElem?.mpr ⟨i, hne, hd⟩) hid

/-- The step lemma. -/
theorem Spaced.step (hlb : cfg.loadBalancingEnabled = true) {a : Clocked.Label} {t' : Clocked}
    (hi : Spaced E t) (hw : t.Window a) (hstep : (Clocked.clocked cfg E).step a t = some t') :
    Spaced E t' := by
  cases a with
  | wait d =>
    obtain rfl := Option.some.inj hstep
    refine ⟨fun τ h ch x hmem => ?_, hi.apart⟩
    obtain ⟨hle, hcount⟩ := hi.counts τ h ch x hmem
    refine ⟨Nat.le_add_right_of_le hle, hcount.imp Nat.le_add_right_of_le fun hs => ?_⟩
    exact ⟨hs.signer, hs.others⟩
  | act a =>
    simp only [Clocked.clocked] at hstep
    split_ifs at hstep with hmay
    obtain ⟨s', hs, rfl⟩ := Option.map_eq_some_iff.mp hstep
    rcases step_cases hlb hs with ⟨agent, caller, id, rfl, rfl⟩ | ⟨g, m, c, rfl, hc, he⟩ |
      ⟨key, rfl, rfl⟩
    · exact hi.after (List.nil_append _).symm (fun _ _ _ _ hs => Or.inr (hs.enter agent caller id))
        (by simp)
    · obtain ⟨new, hnew, hsucc⟩ := effect_log he
      refine hi.after hnew (fun _ _ _ hle hs => Or.inr (hs.effect hle hc hw he)) ?_
      intro h ch x hmem
      obtain ⟨hsingle, rfl, rfl, rfl, hp, hh⟩ := hsucc h ch x hmem
      refine ⟨hsingle, since_of_success hc hw hh, fun g' τ hs => ?_⟩
      exact hs.ne_of_pending hc (by simp [hp, Phase.pending]) rfl
    · exact hi.after (show _ = [Event.expired key] ++ t.state.log from rfl)
        (fun _ _ _ _ hs => hs.expire hmay) (by simp)

/-- **How soon an action may be signed again.** In every run under load balancing whose steps all
meet `Window`, two successful signer calls for one action are at least as far apart as a marker
lives. -/
theorem signed_apart (hlb : cfg.loadBalancingEnabled = true)
    (ht : (Clocked.clocked cfg E).ReachableBy Clocked.Window t) (actionID : String) :
    ApartBy E actionID t.history := by
  refine (ht.invariant (I := Spaced E) ?_ ?_).apart actionID
  · rintro t ⟨-, hhistory⟩
    constructor
    · intro τ h ch x hmem
      rw [hhistory] at hmem
      cases hmem
    · intro x newer between older τ g cg τ' h ch heq
      rw [hhistory] at heq
      cases newer <;> cases heq
  · intro t a t' hi hw hstep
    exact hi.step hlb hw hstep

/-- The auto-approver of agent 0 handles `"a"`; 6 seconds after its marker was written, agent 1
does. -/
theorem signed_apart_sample :
    ∃ t, (Clocked.clocked balanced 6).ReachableBy Clocked.Window t ∧ ApartBy 6 "a" t.history ∧
      t.history.filter (fun e => e.2 = .signed 0 .message "a" true ∨
        e.2 = .signed 1 .approve "a" true) =
          [(7, .signed 1 .approve "a" true), (1, .signed 0 .message "a" true)] := by
  obtain ⟨t, hr, hs⟩ := System.exists_reachableBy (M := Clocked.clocked balanced 6)
    (G := Clocked.Window) (g := fun t a => decide (t.Window a)) (fun _ _ => of_decide_eq_true)
    (s := ⟨start, 0, fun _ => 0, []⟩) ⟨rfl, rfl⟩
    ([.act (.enter 0 .message "a"), .act (.enter 1 .approve "a"), .wait 1] ++
      (wholeRun 0).map .act ++ [.wait 6, .act (.expire (getKey "a"))] ++ (wholeRun 1).map .act)
    (fun t => decide (t.history.filter (fun e => e.2 = .signed 0 .message "a" true ∨
        e.2 = .signed 1 .approve "a" true) =
          [(7, .signed 1 .approve "a" true), (1, .signed 0 .message "a" true)])) (by decide +kernel)
  exact ⟨t, hr, signed_apart rfl hr "a", of_decide_eq_true hs⟩

end SigningAgent.Action
