import SigningAgent.Action.Handlers

/-!
# What a nil reply of the action service says

`actionSrv.act` returns nil either after its own signer call succeeded, or because the marker of
the action is there. The marker says that somebody has finished with the action; it does not say
what was done to it. So an approved action can be "rejected" (`reject_after_approve`), and what a
nil reply does say is this:

* **`nil_truthful`**: in every run under load balancing, when `Approve` or `Reject` returns nil
  its own signer call has succeeded, or it made none and another handler's signer call for the
  action has been answered. In particular, if no signer call for the action failed before, one
  succeeded.

The one proviso is about keys: markers and mutexes share the key space, and a handler of the
action `"action_v2:" ++ x` locks the marker key of `x` (`nil_under_foreign_lock`).
-/

namespace SigningAgent.Action

open Transition

/-- Some handler of the action has started. -/
def Known (handlers : List Handler) (actionID : String) : Prop :=
  ∃ c ∈ handlers, c.actionID = actionID

/-- Some signer call for the action has been answered. -/
def Answered (log : List Event) (actionID : String) : Prop :=
  ∃ g cg ok, .signed g cg actionID ok ∈ log

/-! ## Where the entries of Redis come from -/

/-- Every marker is of an answered action, every lock and mutex of a known one. -/
structure Sync.From (known answered : String → Prop) (y : Sync) : Prop where
  marker : ∀ x, y.redis (getKey x) = some .handled → answered x
  lock : ∀ x v, y.redis (getKey x) = some (.lock v) → known (getKey x)
  mutexes : ∀ m ∈ y.mutexes, known m.name

namespace Sync.From

variable {known answered : String → Prop} {y y' : Sync}

theorem mono {known' answered' : String → Prop} (h : y.From known answered)
    (hk : ∀ x, known x → known' x) (ha : ∀ x, answered x → answered' x) :
    y.From known' answered' :=
  ⟨fun x hx => ha x (h.marker x hx), fun x v hx => hk _ (h.lock x v hx),
    fun m hm => hk _ (h.mutexes m hm)⟩

theorem shouldHandleAction {agent : Nat} {actionID : String} (h : y.From known answered)
    (hid : known actionID) : (y.shouldHandleAction agent actionID).2.From known answered := by
  refine ⟨?_, ?_, fun m hm => ?_⟩
  · simpa only [redis_shouldHandleAction] using h.marker
  · simpa only [redis_shouldHandleAction] using h.lock
  · rcases mem_mutexes_shouldHandleAction hm with hm | hm
    · exact h.mutexes m hm
    · rwa [hm]

theorem lockMutex {m value : Nat} (h : y.From known answered) (hl : y.lock m value = some y') :
    y'.From known answered := by
  obtain ⟨x, hx, -, hr, hm⟩ := lock_cases hl
  have hold : ∀ k e, y'.redis k = some e → k = x.name ∨ y.redis k = some e := by
    intro k e he
    by_cases hk : k = x.name
    · exact Or.inl hk
    · rw [hr, Function.update_of_ne hk] at he
      exact Or.inr he
  refine ⟨fun z hz => ?_, fun z v hz => ?_, fun n hn => ?_⟩
  · rcases hold _ _ hz with hk | hz
    · rw [hr, hk, Function.update_self] at hz
      cases hz
    · exact h.marker z hz
  · rcases hold _ _ hz with hk | hz
    · rw [hk]
      exact h.mutexes x hx
    · exact h.lock z v hz
  · rw [hm] at hn
    rcases List.mem_or_eq_of_mem_set hn with hn | rfl
    · exact h.mutexes n hn
    · exact h.mutexes x hx

theorem unlock {agent : Nat} (h : y.From known answered) :
    (y.unlock agent).From known answered := by
  refine ⟨fun x hx => ?_, fun x v hx => ?_, fun m hm => ?_⟩
  · rcases redis_unlock agent y (getKey x) with hk | ⟨hk, -⟩
    · exact h.marker x (hk ▸ hx)
    · rw [hk] at hx
      cases hx
  · rcases redis_unlock agent y (getKey x) with hk | ⟨hk, -⟩
    · exact h.lock x v (hk ▸ hx)
    · rw [hk] at hx
      cases hx
  · rw [mutexes_unlock] at hm
    exact h.mutexes m hm

/-- Deleting a key keeps the rest. -/
theorem delete {k : String} (h : y.From known answered) :
    Sync.From known answered { y with redis := Function.update y.redis k none } := by
  have hold : ∀ x e, Function.update y.redis k none x = some e → y.redis x = some e := by
    intro x e he
    by_cases hx : x = k
    · rw [hx, Function.update_self] at he
      cases he
    · rwa [Function.update_of_ne hx] at he
  exact ⟨fun x hx => h.marker x (hold _ _ hx), fun x v hx => h.lock x v (hold _ _ hx), h.mutexes⟩

theorem setHandled {actionID : String} (h : y.From known answered) (ha : answered actionID) :
    (y.setHandled actionID).From known answered := by
  refine ⟨fun x hx => ?_, fun x v hx => ?_, h.mutexes⟩
  · by_cases hid : x = actionID
    · rwa [hid]
    · rw [redis_setHandled_of_ne y hid] at hx
      exact h.marker x hx
  · by_cases hid : x = actionID
    · rw [hid, redis_setHandled_self] at hx
      cases hx
    · rw [redis_setHandled_of_ne y hid] at hx
      exact h.lock x v hx

end Sync.From

/-! ## The invariant -/

/-- What the return of handler `h` with a nil error says about the events before it. -/
def Truthful (handlers : List Handler) (older : List Event) (h : Nat) (caller : Caller)
    (actionID : String) : Prop :=
  .signed h caller actionID true ∈ older ∨
    (∀ cg x ok, .signed h cg x ok ∉ older) ∧
      (Answered older actionID ∨ Known handlers (getKey actionID))

structure Sourced (s : State) : Prop where
  sync : s.sync.From (Known s.handlers) (Answered s.log)
  signed : ∀ (h : Nat) (c : Handler) (ok : Bool), s.handlers[h]? = some c →
    c.phase = .signed ok ∨ c.phase = .unlocked ok → .signed h c.caller c.actionID ok ∈ s.log
  fresh : ∀ h : Nat, (∀ c, s.handlers[h]? = some c → c.phase = .entered) →
    ∀ cg x ok, .signed h cg x ok ∉ s.log
  truthful : ∀ newer older h caller actionID,
    s.log = newer ++ .returned h caller actionID true :: older →
      Truthful s.handlers older h caller actionID

theorem Truthful.mono {handlers handlers' : List Handler} {older : List Event} {h : Nat}
    {caller : Caller} {actionID : String} (ht : Truthful handlers older h caller actionID)
    (hk : ∀ x, Known handlers x → Known handlers' x) :
    Truthful handlers' older h caller actionID :=
  ht.imp_right fun ⟨hno, hor⟩ => ⟨hno, hor.imp_right (hk _)⟩

theorem Answered.append {log : List Event} {x : String} (es : List Event) (h : Answered log x) :
    Answered (es ++ log) x := by
  obtain ⟨g, cg, ok, hm⟩ := h
  exact ⟨g, cg, ok, List.mem_append_right _ hm⟩

/-- Moving on does not change which actions are known. -/
theorem Known.set {handlers : List Handler} {g : Nat} {c : Handler} {p : Phase} {x : String}
    (hc : handlers[g]? = some c) (h : Known handlers x) :
    Known (handlers.set g { c with phase := p }) x := by
  obtain ⟨d, hd, hx⟩ := h
  obtain ⟨i, hi⟩ := List.mem_iff_getElem?.mp hd
  have hlt : g < handlers.length := (List.getElem?_eq_some_iff.mp hc).1
  by_cases hig : i = g
  · subst hig
    obtain rfl : c = d := Option.some.inj (hc.symm.trans hi)
    exact ⟨{ c with phase := p }, List.mem_of_getElem? (List.getElem?_set_self hlt), hx⟩
  · refine ⟨d, List.mem_of_getElem? (i := i) ?_, hx⟩
    rw [List.getElem?_set_ne (Ne.symm hig), hi]

/-- What a handler's step that logs `e`, if anything, has to respect. -/
theorem Sourced.move {g : Nat} {s s' : State} {c : Handler} {p : Phase} (e : Option Event)
    (hs : Sourced s) (hc : s.handlers[g]? = some c)
    (hh : s'.handlers = s.handlers.set g { c with phase := p }) (hlog : s'.log = e.toList ++ s.log)
    (hsync : s'.sync.From (Known s.handlers) (Answered s'.log)) (hp : p ≠ .entered)
    (hsigned : ∀ ok, p = .signed ok ∨ p = .unlocked ok →
      .signed g c.caller c.actionID ok ∈ s'.log)
    (hself : ∀ h cg x ok, e = some (.signed h cg x ok) → h = g)
    (htrue : ∀ h caller x, e = some (.returned h caller x true) →
      Truthful s.handlers s.log h caller x) :
    Sourced s' := by
  have hknown : ∀ x, Known s.handlers x → Known s'.handlers x := fun x hx => hh ▸ hx.set hc
  have hlt : g < s.handlers.length := (List.getElem?_eq_some_iff.mp hc).1
  refine ⟨hsync.mono hknown fun _ => id, fun h d ok hd hphase => ?_, fun h hent cg x ok hm => ?_,
    fun newer older h caller x heq => ?_⟩
  · rw [hh] at hd
    rcases getElem?_set_cases hd with ⟨rfl, rfl⟩ | ⟨-, hd⟩
    · exact hsigned ok hphase
    · rw [hlog]
      exact List.mem_append_right _ (hs.signed h d ok hd hphase)
  · -- the mover has left its entry, and for the others nothing is logged
    have hhg : h ≠ g := by
      rintro rfl
      exact hp (hent { c with phase := p } (by rw [hh, List.getElem?_set_self hlt]))
    rw [hlog, List.mem_append, Option.mem_toList] at hm
    rcases hm with hm | hm
    · exact hhg (hself h cg x ok hm)
    · refine hs.fresh h (fun d hd => hent d ?_) cg x ok hm
      rw [hh, List.getElem?_set_ne (Ne.symm hhg), hd]
  · rw [hlog] at heq
    cases e with
    | none => exact (hs.truthful newer older h caller x heq).mono hknown
    | some e =>
      cases newer with
      | nil =>
        obtain ⟨rfl, rfl⟩ := List.cons.inj heq
        exact (htrue h caller x rfl).mono hknown
      | cons y newer =>
        obtain ⟨-, heq⟩ := List.cons.inj heq
        exact (hs.truthful newer older h caller x heq).mono hknown

/-- A returned event makes nobody's call. -/
theorem returned_ne_signed {g : Nat} {caller : Caller} {y : String} {ok' : Bool} :
    ∀ h cg x ok, some (Event.returned g caller y ok') = some (.signed h cg x ok) → h = g := by
  intro h cg x ok he
  cases he

theorem signed_ne_returned {g : Nat} {caller : Caller} {y : String} {ok : Bool}
    {P : Nat → Caller → String → Prop} :
    ∀ h cg x, some (Event.signed g caller y ok) = some (.returned h cg x true) → P h cg x := by
  intro h cg x he
  cases he

/-- The step lemma for the steps of a handler. -/
theorem Sourced.effect {cfg : Config} {g : Nat} {c : Handler} {s s' : State} {m : Move}
    (hs : Sourced s) (hc : s.handlers[g]? = some c) (he : Effect cfg g c s m s') :
    Sourced s' := by
  have hknown : Known s.handlers c.actionID := ⟨c, List.mem_of_getElem? hc, rfl⟩
  have hsync : ∀ e, s.sync.From (Known s.handlers) (Answered (e :: s.log)) := fun e =>
    hs.sync.mono (fun _ => id) fun _ => Answered.append [e]
  cases he with
  | handled hp hk =>
    refine hs.move (some (.returned g c.caller c.actionID true)) hc rfl rfl (hsync _) (by simp)
      (by simp) returned_ne_signed ?_
    intro h caller x he
    obtain ⟨rfl, rfl, rfl, -⟩ := Event.returned.inj (Option.some.inj he)
    refine Or.inr ⟨hs.fresh g fun d hd => ?_, ?_⟩
    · obtain rfl : c = d := Option.some.inj (hc.symm.trans hd)
      exact hp
    · cases hx : s.sync.redis (getKey c.actionID) with
      | none => exact absurd hx hk
      | some e =>
        cases e with
        | handled => exact Or.inl (hs.sync.marker _ hx)
        | lock v => exact Or.inr (hs.sync.lock _ v hx)
  | passed hp hk =>
    exact hs.move none hc rfl rfl (hs.sync.shouldHandleAction hknown) (by simp) (by simp) (by simp)
      (by simp)
  | acquired hp =>
    exact hs.move none hc rfl rfl hs.sync (by simp) (by simp) (by simp) (by simp)
  | locked hp hl =>
    exact hs.move none hc rfl rfl (hs.sync.lockMutex hl) (by simp) (by simp) (by simp) (by simp)
  | gaveUp hp =>
    exact hs.move (some (.returned g c.caller c.actionID false)) hc rfl rfl (hsync _) (by simp)
      (by simp) returned_ne_signed (by simp)
  | succeeded hp =>
    refine hs.move (some (.signed g c.caller c.actionID true)) hc rfl rfl ?_ (by simp) ?_ ?_
      signed_ne_returned
    · unfold removeCached
      split
      · exact (hsync _).delete
      · exact hsync _
    · intro ok hok
      obtain rfl : true = ok := by simpa using hok
      exact List.mem_cons_self ..
    · intro h cg x ok he
      exact (Event.signed.inj (Option.some.inj he)).1.symm
  | failed hp =>
    refine hs.move (some (.signed g c.caller c.actionID false)) hc rfl rfl (hsync _) (by simp) ?_ ?_
      signed_ne_returned
    · intro ok hok
      obtain rfl : false = ok := by simpa using hok
      exact List.mem_cons_self ..
    · intro h cg x ok he
      exact (Event.signed.inj (Option.some.inj he)).1.symm
  | retried hp hm =>
    refine hs.move (some (.signed g c.caller c.actionID false)) hc rfl rfl (hsync _) (by simp)
      (by simp) ?_ signed_ne_returned
    intro h cg x ok he
    exact (Event.signed.inj (Option.some.inj he)).1.symm
  | unlocked hp =>
    refine hs.move none hc rfl rfl hs.sync.unlock (by simp) ?_ (by simp) (by simp)
    intro ok hok
    obtain rfl : _ = ok := by simpa using hok
    exact hs.signed g c _ hc (Or.inl hp)
  | @marked ok hp =>
    have hcall := hs.signed g c ok hc (Or.inr hp)
    refine hs.move (some (.returned g c.caller c.actionID ok)) hc rfl rfl
      ((hsync _).setHandled ⟨g, c.caller, ok, List.mem_cons_of_mem _ hcall⟩) (by simp) (by simp)
      returned_ne_signed ?_
    intro h caller x he
    obtain ⟨rfl, rfl, rfl, rfl⟩ := Event.returned.inj (Option.some.inj he)
    exact Or.inl hcall

/-- The step lemma. -/
theorem Sourced.step {cfg : Config} (hlb : cfg.loadBalancingEnabled = true) {s s' : State}
    {a : Label} (hi : Sourced s) (hs : step cfg a s = some s') : Sourced s' := by
  rcases step_cases hlb hs with ⟨agent, caller, x, rfl, rfl⟩ | ⟨h, m, c, rfl, hc, he⟩ |
    ⟨key, rfl, rfl⟩
  · have hknown : ∀ x', Known s.handlers x' →
        Known (s.handlers ++ [⟨agent, caller, x, .entered⟩]) x' := by
      rintro x' ⟨c, hc, hx⟩
      exact ⟨c, List.mem_append_left _ hc, hx⟩
    refine ⟨hi.sync.mono hknown fun _ => id, fun h c ok hc hphase => ?_, fun h hent => ?_,
      fun newer older h caller x heq => (hi.truthful newer older h caller x heq).mono hknown⟩
    · by_cases hlt : h < s.handlers.length
      · rw [List.getElem?_append_left hlt] at hc
        exact hi.signed h c ok hc hphase
      · rw [List.getElem?_append_right (by omega)] at hc
        obtain rfl := List.mem_singleton.mp (List.mem_of_getElem? hc)
        simp at hphase
    · refine hi.fresh h fun c hc => hent c ?_
      have hlt : h < s.handlers.length := (List.getElem?_eq_some_iff.mp hc).1
      rw [List.getElem?_append_left hlt, hc]
  · exact hi.effect hc he
  · refine ⟨(hi.sync.mono (fun _ => id) fun _ => Answered.append [.expired key]).delete,
      fun h c ok hc hphase => List.mem_cons_of_mem _ (hi.signed h c ok hc hphase),
      fun h hent cg x ok hm => ?_, fun newer older h caller x heq => ?_⟩
    · rcases List.mem_cons.mp hm with hm | hm
      · cases hm
      · exact hi.fresh h hent cg x ok hm
    · cases newer with
      | nil => exact absurd (List.cons.inj heq).1 (by simp)
      | cons y newer => exact hi.truthful newer older h caller x (List.cons.inj heq).2

theorem sourced_start : Sourced start := by
  refine ⟨⟨fun x hx => ?_, fun x v hx => ?_, fun m hm => ?_⟩, fun h c ok hc => ?_,
    fun _ _ _ _ _ hm => ?_, fun newer older h caller x heq => ?_⟩
  · cases hx
  · cases hx
  · cases hm
  · cases hc
  · cases hm
  · cases newer <;> cases heq

/-- **What a nil reply says.** When a handler returns nil, its own signer call has succeeded, or it
made none and another handler's call for the action has been answered; if no call for the action
failed before, one succeeded. Provided no handler runs for the action `"action_v2:" ++ actionID`. -/
theorem nil_truthful {cfg : Config} (hlb : cfg.loadBalancingEnabled = true) {s : State}
    (hr : (handling cfg).Reachable s) {newer older : List Event} {h : Nat} {caller : Caller}
    {actionID : String} (hlog : s.log = newer ++ .returned h caller actionID true :: older)
    (hkey : ∀ c ∈ s.handlers, c.actionID ≠ getKey actionID) :
    (.signed h caller actionID true ∈ older ∨
      (∀ cg x ok, .signed h cg x ok ∉ older) ∧
        ∃ g cg ok, g ≠ h ∧ .signed g cg actionID ok ∈ older) ∧
    ((∀ g cg, .signed g cg actionID false ∉ older) →
      ∃ g cg, .signed g cg actionID true ∈ older) := by
  have hi : Sourced s := hr.invariant
    (by
      rintro s rfl
      exact sourced_start)
    fun s a s' hi hs => hi.step hlb hs
  rcases hi.truthful newer older h caller actionID hlog with hown | ⟨hno, hans | ⟨c, hc, hid⟩⟩
  · exact ⟨Or.inl hown, fun _ => ⟨h, caller, hown⟩⟩
  · obtain ⟨g, cg, ok, hm⟩ := hans
    refine ⟨Or.inr ⟨hno, g, cg, ok, ?_, hm⟩, fun hnone => ⟨g, cg, ?_⟩⟩
    · rintro rfl
      exact hno cg actionID ok hm
    · cases ok with
      | true => exact hm
      | false => exact absurd hm (hnone g cg)
  · exact absurd hid (hkey c hc)

/-! ## Samples -/

/-- Load balancing with a message cache, which is how agents without auto-approval are set up. -/
def balancedCache : Config := ⟨true, true⟩

/-- A `Reject` that makes no call and returns nil: the marker of an `Approve` is there. -/
theorem nil_truthful_sample :
    ∃ s, (handling balancedCache).Reachable s ∧
      s.log = [.returned 1 .reject "a" true, .returned 0 .approve "a" true,
        .signed 0 .approve "a" true] ∧
      (∀ cg x ok, Event.signed 1 cg x ok ∉
        [.returned 0 .approve "a" true, .signed 0 .approve "a" true]) ∧
      ∃ g cg ok, g ≠ 1 ∧ Event.signed g cg "a" ok ∈
        [.returned 0 .approve "a" true, .signed 0 .approve "a" true] := by
  obtain ⟨s, hr, hs⟩ := System.exists_reachable (M := handling balancedCache) (s := start) rfl
    [.enter 0 .approve "a", .move 0 .check, .move 0 .acquire, .move 0 (.lock true),
      .move 0 (.sign .ok), .move 0 .unlock, .move 0 .mark, .enter 1 .reject "a", .move 1 .check]
    (fun s => s.log = [.returned 1 .reject "a" true, .returned 0 .approve "a" true,
      .signed 0 .approve "a" true] &&
      s.handlers.all (fun c => c.actionID != getKey "a")) (by decide +kernel)
  rw [Bool.and_eq_true, decide_eq_true_iff, List.all_eq_true] at hs
  have hkey : ∀ c ∈ s.handlers, c.actionID ≠ getKey "a" := fun c hc => by
    simpa using hs.2 c hc
  refine ⟨s, hr, hs.1,
    (@nil_truthful balancedCache rfl s hr [] _ _ _ _ hs.1 hkey).1.resolve_left ?_⟩
  simp

/-- **A nil reply is not about the call asked for.** After an approval, `Reject` of the action
returns nil, and nobody has called `ActionReject`. -/
theorem reject_after_approve :
    ¬ ∀ s, (handling balancedCache).Reachable s → ∀ newer older h caller actionID,
      caller ≠ .message → s.log = newer ++ .returned h caller actionID true :: older →
        ∃ g, .signed g caller actionID true ∈ older := by
  intro hall
  obtain ⟨s, hr, hs⟩ := System.exists_reachable (M := handling balancedCache) (s := start) rfl
    [.enter 0 .approve "a", .move 0 .check, .move 0 .acquire, .move 0 (.lock true),
      .move 0 (.sign .ok), .move 0 .unlock, .move 0 .mark, .enter 1 .reject "a", .move 1 .check]
    (fun s => s.log = [.returned 1 .reject "a" true, .returned 0 .approve "a" true,
      .signed 0 .approve "a" true]) (by decide +kernel)
  obtain ⟨g, hg⟩ := hall s hr [] _ 1 .reject "a" (by simp) (of_decide_eq_true hs)
  simp at hg

/-- Why `nil_truthful` has its proviso: while the action `"action_v2:a"` is locked, `Approve` of
`"a"` returns nil, and no signer call has been answered at all. -/
theorem nil_under_foreign_lock :
    ∃ s, (handling balancedCache).Reachable s ∧ s.log = [.returned 1 .approve "a" true] := by
  obtain ⟨s, hr, hs⟩ := System.exists_reachable (M := handling balancedCache) (s := start) rfl
    [.enter 0 .approve (getKey "a"), .move 0 .check, .move 0 .acquire, .move 0 (.lock true),
      .enter 0 .approve "a", .move 1 .check]
    (fun s => s.log = [.returned 1 .approve "a" true]) (by decide +kernel)
  exact ⟨s, hr, of_decide_eq_true hs⟩

end SigningAgent.Action
