import SigningAgent.Action.Handlers

/-!
# Is an action signed at most once?

Between the check of the marker and the signer call nothing looks at the marker again, so a
handler that passed the check before another one finished will sign as well, as soon as the lock
is free (`signed_twice`). What the steps do guarantee is that this is the only way:

* `Window` is the condition on a step: no handler passes the check while another handler whose
  signer call for the action succeeded has yet to write the marker, and no signer call for the
  action succeeds while another handler of the action is between the check and its own call.
* **`signed_once`**: in every run under load balancing whose steps all meet `Window`, every two
  successful signer calls for one action have an expiry of the action's marker between them.

The invariant is `Settled`: after a success, and until the marker expires, the handler that signed
has either written the marker or is about to, and nobody else is on the way to the signer.
-/

namespace SigningAgent.Action

open Transition

/-- At most one success for `actionID` per life of the marker. Newest events come first. -/
def AtMostOnce (actionID : String) (log : List Event) : Prop :=
  ∀ newer between older g h cg ch,
    log = newer ++ .signed g cg actionID true :: between ++ .signed h ch actionID true :: older →
      .expired (getKey actionID) ∈ between

/-- The handler of the last success for `actionID`, unless the marker has expired since. -/
def lastSuccess (actionID : String) : List Event → Option Nat
  | [] => none
  | .signed h _ x ok :: log =>
    if x = actionID ∧ ok = true then some h else lastSuccess actionID log
  | .expired key :: log => if key = getKey actionID then none else lastSuccess actionID log
  | .returned .. :: log => lastSuccess actionID log

/-- The condition on a step: see the header. -/
def Window (s : State) : Label → Prop
  | .move h .check => ∀ c ∈ s.handlers[h]?, s.sync.redis (getKey c.actionID) = none →
      ∀ d ∈ s.handlers, d.actionID = c.actionID → d.phase.succeeded = false
  | .move h (.sign .ok) => ∀ c ∈ s.handlers[h]?,
      ∀ d ∈ s.handlers.eraseIdx h, d.actionID = c.actionID → d.phase.pending = false
  | _ => True

instance (s : State) : ∀ a, Decidable (Window s a)
  | .move _ .check | .move _ (.sign .ok) => by unfold Window; infer_instance
  | .move _ (.sign .failed) | .move _ (.sign .retry) | .move _ .acquire | .move _ (.lock _)
  | .move _ .unlock | .move _ .mark | .enter .. | .expire _ => isTrue trivial

/-! ## The history -/

/-- Without a success in force, an earlier success is followed by an expiry. -/
theorem expired_of_lastSuccess {actionID : String} {h : Nat} {ch : Caller} {older : List Event} :
    ∀ {between : List Event},
      lastSuccess actionID (between ++ .signed h ch actionID true :: older) = none →
      .expired (getKey actionID) ∈ between
  | [], hn => by simp [lastSuccess] at hn
  | .signed g _ x ok :: between, hn => by
    simp only [List.cons_append, lastSuccess] at hn
    split at hn
    · cases hn
    · exact List.mem_cons_of_mem _ (expired_of_lastSuccess hn)
  | .expired key :: between, hn => by
    simp only [List.cons_append, lastSuccess] at hn
    by_cases hk : key = getKey actionID
    · subst hk
      exact List.mem_cons_self ..
    · rw [if_neg hk] at hn
      exact List.mem_cons_of_mem _ (expired_of_lastSuccess hn)
  | .returned .. :: between, hn => by
    simp only [List.cons_append, lastSuccess] at hn
    exact List.mem_cons_of_mem _ (expired_of_lastSuccess hn)

/-- An event keeps the property unless it is a success while another one is in force. -/
theorem AtMostOnce.cons {actionID : String} {log : List Event} {e : Event}
    (hlog : AtMostOnce actionID log)
    (he : ∀ g cg, e = .signed g cg actionID true → lastSuccess actionID log = none) :
    AtMostOnce actionID (e :: log) := by
  intro newer between older g h cg ch heq
  cases newer with
  | nil =>
    obtain ⟨rfl, rfl⟩ := List.cons.inj heq
    exact expired_of_lastSuccess (he g cg rfl)
  | cons x newer =>
    obtain ⟨rfl, rfl⟩ := List.cons.inj heq
    exact hlog newer between older g h cg ch (by simp)

/-! ## The invariant -/

/-- After the success of handler `h`: it has written the marker or is about to, and no handler of
the action is on the way to the signer. -/
structure Settled (actionID : String) (h : Nat) (s : State) : Prop where
  signer : ∃ c, s.handlers[h]? = some c ∧ c.actionID = actionID ∧
    (s.sync.redis (getKey actionID) = some .handled ∨ c.phase.succeeded = true)
  others : ∀ (g : Nat) (c : Handler), s.handlers[g]? = some c → c.actionID = actionID →
    c.phase.pending = false

structure Inv (s : State) : Prop where
  settled : ∀ actionID h, lastSuccess actionID s.log = some h → Settled actionID h s
  once : ∀ actionID, AtMostOnce actionID s.log

/-- What a handler's step has to respect so that a success stays settled. -/
theorem Settled.move {actionID : String} {h g : Nat} {s s' : State} {c : Handler} {p : Phase}
    (hs : Settled actionID h s) (hc : s.handlers[g]? = some c)
    (hh : s'.handlers = s.handlers.set g { c with phase := p })
    (hmark : s.sync.redis (getKey actionID) = some .handled →
      s'.sync.redis (getKey actionID) = some .handled)
    (hpend : c.actionID = actionID → p.pending = false)
    (hsucc : c.actionID = actionID → c.phase.succeeded = true →
      p.succeeded = true ∨ s'.sync.redis (getKey actionID) = some .handled) :
    Settled actionID h s' := by
  have hlt : g < s.handlers.length := (List.getElem?_eq_some_iff.mp hc).1
  constructor
  · obtain ⟨d, hd, hid, hor⟩ := hs.signer
    by_cases hgh : h = g
    · subst hgh
      obtain rfl : c = d := Option.some.inj (hc.symm.trans hd)
      refine ⟨{ c with phase := p }, by rw [hh, List.getElem?_set_self hlt], hid, ?_⟩
      rcases hor with hor | hor
      · exact Or.inl (hmark hor)
      · exact (hsucc hid hor).symm
    · exact ⟨d, by rw [hh, List.getElem?_set_ne (Ne.symm hgh), hd], hid, hor.imp_left hmark⟩
  · intro g' d hd hid
    rw [hh] at hd
    rcases getElem?_set_cases hd with ⟨-, rfl⟩ | ⟨-, hd⟩
    · exact hpend hid
    · exact hs.others g' d hd hid

/-- A handler that is on the way to the signer is not one of a settled action. -/
theorem Settled.ne_of_pending {actionID : String} {h g : Nat} {s : State} {c : Handler}
    (hs : Settled actionID h s) (hc : s.handlers[g]? = some c) (hp : c.phase.pending = true) :
    c.actionID ≠ actionID := by
  intro hid
  rw [hs.others g c hc hid] at hp
  cases hp

/-- The check does not pass for a settled action. -/
theorem Settled.ne_of_passed {actionID : String} {h g : Nat} {s : State} {c : Handler}
    (hs : Settled actionID h s) (hc : s.handlers[g]? = some c)
    (hk : s.sync.redis (getKey c.actionID) = none) (hw : Window s (.move g .check)) :
    c.actionID ≠ actionID := by
  rintro rfl
  obtain ⟨d, hd, hid, hor⟩ := hs.signer
  rcases hor with hor | hor
  · rw [hk] at hor
    cases hor
  · rw [hw c hc hk d (List.mem_of_getElem? hd) hid] at hor
    cases hor

/-- A success settles its action: nobody else was on the way to the signer. -/
theorem settled_of_success {h : Nat} {s : State} {c : Handler} {y : Sync} {log : List Event}
    (hc : s.handlers[h]? = some c) (hw : Window s (.move h (.sign .ok))) :
    Settled c.actionID h ⟨y, s.handlers.set h { c with phase := .signed true }, log⟩ := by
  have hlt : h < s.handlers.length := (List.getElem?_eq_some_iff.mp hc).1
  constructor
  · exact ⟨{ c with phase := .signed true }, List.getElem?_set_self hlt, rfl, Or.inr rfl⟩
  · intro g d hd hid
    rcases getElem?_set_cases hd with ⟨-, rfl⟩ | ⟨hne, hd⟩
    · rfl
    · exact hw c hc d (List.mem_eraseIdx_iff_getElem?.mpr ⟨g, hne, hd⟩) hid

/-- A signed event that is no success changes nothing. -/
theorem lastSuccess_failed (actionID x : String) (h : Nat) (ch : Caller) (log : List Event) :
    lastSuccess actionID (.signed h ch x false :: log) = lastSuccess actionID log := by
  simp [lastSuccess]

/-- The step lemma for the steps of a handler. -/
theorem Inv.effect {cfg : Config} {g : Nat} {c : Handler} {s s' : State} {m : Move} (hi : Inv s)
    (hc : s.handlers[g]? = some c) (hw : Window s (.move g m)) (he : Effect cfg g c s m s') :
    Inv s' := by
  cases he with
  | handled hp hk =>
    refine ⟨fun x h hx => ?_, fun x => (hi.once x).cons (by intro _ _ he; cases he)⟩
    exact (hi.settled x h hx).move hc rfl id (fun _ => rfl) (by simp [hp, Phase.succeeded])
  | passed hp hk =>
    refine ⟨fun x h hx => ?_, hi.once⟩
    have hne := (hi.settled x h hx).ne_of_passed hc hk hw
    refine (hi.settled x h hx).move hc rfl ?_ (fun h => absurd h hne) (fun h => absurd h hne)
    simp only [Sync.redis_shouldHandleAction]
    exact id
  | acquired hp =>
    refine ⟨fun x h hx => ?_, hi.once⟩
    have hne := (hi.settled x h hx).ne_of_pending hc (by simp [hp, Phase.pending])
    exact (hi.settled x h hx).move hc rfl id (fun h => absurd h hne) (fun h => absurd h hne)
  | locked hp hl =>
    refine ⟨fun x h hx => ?_, hi.once⟩
    have hne := (hi.settled x h hx).ne_of_pending hc (by simp [hp, Phase.pending])
    exact (hi.settled x h hx).move hc rfl (Sync.handled_lock hl) (fun h => absurd h hne)
      (fun h => absurd h hne)
  | gaveUp hp =>
    refine ⟨fun x h hx => ?_, fun x => (hi.once x).cons (by intro _ _ he; cases he)⟩
    exact (hi.settled x h hx).move hc rfl id (fun _ => rfl) (by simp [hp, Phase.succeeded])
  | succeeded hp =>
    constructor
    · intro x h hx
      by_cases hid : c.actionID = x
      · subst hid
        obtain rfl : g = h := by simpa [State.emit, State.goto, lastSuccess] using hx
        exact settled_of_success hc hw
      · have hx' : lastSuccess x s.log = some h := by
          simpa [State.emit, State.goto, lastSuccess, hid] using hx
        refine (hi.settled x h hx').move hc rfl ?_ (fun h => absurd h hid)
          (fun h => absurd h hid)
        unfold removeCached
        split
        · simp only [Sync.redis_removeMessage]
          exact id
        · exact id
    · intro x
      refine (hi.once x).cons ?_
      rintro g' cg he
      obtain ⟨-, -, rfl, -⟩ := Event.signed.inj he
      -- a success in force would be settled, and this handler is on the way to the signer
      cases hl : lastSuccess c.actionID s.log with
      | none => rfl
      | some h =>
        exact absurd rfl ((hi.settled _ h hl).ne_of_pending hc (by simp [hp, Phase.pending]))
  | failed hp =>
    refine ⟨fun x h hx => ?_, fun x => (hi.once x).cons (by intro _ _ he; cases he)⟩
    rw [show (State.emit _ (s.goto g c (.signed false))).log = _ :: s.log from rfl,
      lastSuccess_failed] at hx
    exact (hi.settled x h hx).move hc rfl id (fun _ => rfl) (by simp [hp, Phase.succeeded])
  | retried hp hm =>
    refine ⟨fun x h hx => ?_, fun x => (hi.once x).cons (by intro _ _ he; cases he)⟩
    rw [show (State.emit _ (s.goto g c .locked)).log = _ :: s.log from rfl,
      lastSuccess_failed] at hx
    have hne := (hi.settled x h hx).ne_of_pending hc (by simp [hp, Phase.pending])
    exact (hi.settled x h hx).move hc rfl id (fun h => absurd h hne) (fun h => absurd h hne)
  | unlocked hp =>
    refine ⟨fun x h hx => ?_, hi.once⟩
    refine (hi.settled x h hx).move hc rfl Sync.handled_unlock (fun _ => rfl) (fun _ hs => ?_)
    rw [hp] at hs
    exact Or.inl hs
  | marked hp =>
    refine ⟨fun x h hx => ?_, fun x => (hi.once x).cons (by intro _ _ he; cases he)⟩
    refine (hi.settled x h hx).move hc rfl (fun hm => ?_) (fun _ => rfl) (fun hid _ => Or.inr ?_)
    · by_cases hid : x = c.actionID
      · subst hid
        exact Sync.redis_setHandled_self ..
      · rw [← hm]
        exact Sync.redis_setHandled_of_ne _ hid
    · subst hid
      exact Sync.redis_setHandled_self ..

/-- The step lemma. -/
theorem Inv.step {cfg : Config} (hlb : cfg.loadBalancingEnabled = true) {s s' : State} {a : Label}
    (hi : Inv s) (hw : Window s a) (hs : step cfg a s = some s') : Inv s' := by
  rcases step_cases hlb hs with ⟨agent, caller, id, rfl, rfl⟩ | ⟨h, m, c, rfl, hc, he⟩ |
    ⟨key, rfl, rfl⟩
  · -- a new handler has not passed the check
    refine ⟨fun x h hx => ?_, hi.once⟩
    obtain ⟨⟨c, hc, hid, hor⟩, hothers⟩ := hi.settled x h hx
    have hlt : h < s.handlers.length := (List.getElem?_eq_some_iff.mp hc).1
    refine ⟨⟨c, by rw [List.getElem?_append_left hlt, hc], hid, hor⟩, fun g d hd hdid => ?_⟩
    by_cases hg : g < s.handlers.length
    · rw [List.getElem?_append_left hg] at hd
      exact hothers g d hd hdid
    · rw [List.getElem?_append_right (by omega)] at hd
      obtain rfl := List.mem_singleton.mp (List.mem_of_getElem? hd)
      rfl
  · exact hi.effect hc hw he
  · refine ⟨fun x h hx => ?_, fun x => (hi.once x).cons (by intro _ _ he; cases he)⟩
    by_cases hk : key = getKey x
    · simp [State.emit, lastSuccess, hk] at hx
    · have hx' : lastSuccess x s.log = some h := by
        simpa [State.emit, lastSuccess, hk] using hx
      obtain ⟨⟨c, hc, hid, hor⟩, hothers⟩ := hi.settled x h hx'
      refine ⟨⟨c, hc, hid, hor.imp_left fun hm => ?_⟩, hothers⟩
      rw [← hm]
      exact Function.update_of_ne (Ne.symm hk) ..

theorem inv_start : Inv start :=
  ⟨fun _ _ hx => by simp [start, lastSuccess] at hx, fun _ newer _ _ _ _ _ _ heq => by
    cases newer <;> simp [start] at heq⟩

/-- **At most one success per marker.** In every run under load balancing whose steps all meet
`Window`, two successful signer calls for one action have an expiry of its marker between them. -/
theorem signed_once {cfg : Config} (hlb : cfg.loadBalancingEnabled = true) {s : State}
    (hr : (handling cfg).ReachableBy Window s) (actionID : String) :
    AtMostOnce actionID s.log := by
  refine (hr.invariant (I := Inv) ?_ ?_).once actionID
  · rintro s rfl
    exact inv_start
  · intro s a s' hi hw hs
    exact hi.step hlb hw hs

/-! ## Samples -/

/-- Load balancing without a message cache, which is how auto-approval is set up. -/
def balanced : Config := ⟨true, false⟩

/-- A handler's steps from its check to its return, with one successful signer call. -/
def wholeRun (h : Nat) : List Label :=
  [.move h .check, .move h .acquire, .move h (.lock true), .move h (.sign .ok), .move h .unlock,
    .move h .mark]

/-- The auto-approver of agent 0 handles `"a"`; after the marker has expired, agent 1 does. -/
theorem signed_once_sample :
    ∃ s, (handling balanced).ReachableBy Window s ∧ AtMostOnce "a" s.log ∧
      Event.signed 0 .message "a" true ∈ s.log ∧ Event.signed 1 .approve "a" true ∈ s.log := by
  obtain ⟨s, hr, hs⟩ := System.exists_reachableBy (M := handling balanced) (G := Window)
    (g := fun s a => decide (Window s a)) (fun _ _ => of_decide_eq_true) (s := start) rfl
    ([.enter 0 .message "a", .enter 1 .approve "a"] ++ wholeRun 0 ++
      [.expire (getKey "a")] ++ wholeRun 1)
    (fun s => s.log.contains (.signed 0 .message "a" true) &&
      s.log.contains (.signed 1 .approve "a" true)) (by decide +kernel)
  rw [Bool.and_eq_true, List.contains_iff_mem, List.contains_iff_mem] at hs
  exact ⟨s, hr, signed_once rfl hr "a", hs⟩

/-- **Signed twice.** Two agents pass the check, then handle the action one after the other: both
signer calls succeed, and no marker has expired. -/
theorem signed_twice :
    ¬ ∀ s, (handling balanced).Reachable s → ∀ actionID, AtMostOnce actionID s.log := by
  intro hall
  obtain ⟨s, hr, hs⟩ := System.exists_reachable (M := handling balanced) (s := start) rfl
    ([.enter 0 .message "a", .enter 1 .message "a", .move 0 .check, .move 1 .check] ++
      (wholeRun 0).tail ++ (wholeRun 1).tail)
    (fun s => s.log = [.returned 1 .message "a" true, .signed 1 .message "a" true,
      .returned 0 .message "a" true, .signed 0 .message "a" true]) (by decide +kernel)
  have h := hall s hr "a" [.returned 1 .message "a" true] [.returned 0 .message "a" true] []
    1 0 .message .message (by rw [of_decide_eq_true hs]; rfl)
  simp at h

end SigningAgent.Action
