import SigningAgent.Feed.ClientLoops
import SigningAgent.Lib.Settling

/-!
# What becomes of a client feed whose `Feed` is closed

The steps of `Start` and `Listen` are internal; the environment registers the client, closes the
`Feed` and decides what becomes of a ping. A write to the connection does not wait for ever (it has
a deadline), so the two loops wait for each other and the hub only.

* `work` counts the internal steps that are left.
* `Calm`: no ping has failed and `Start` does not know yet, and a `Listen` that waits has a `Start`
  that hears it. A `Timely` run leads to such states, but for the moment after a failed ping
  (`calm_of_timely`).

Results:
* **`feed_winds_down`**: once the hub has closed the `Feed`, in whatever state the loops are then,
  if no further ping is made, every schedule ends with `Start` returned and the connection closed
  once; and every schedule ends with both loops returned if and only if the state is calm.
-/

namespace SigningAgent.ClientLoops

open Transition

/-- The steps in which the environment has no part. -/
def Internal : Label → Prop
  | .register | .hubCloses | .ping _ => False
  | _ => True

/-- The steps that `Start` has yet to make at most. -/
def Start.work : Start → Nat
  | .starting => 5
  | .selecting | .pingFailed => 4
  | .notReady | .closing => 3
  | .leaving => 2
  | .connClosed => 1
  | .returned => 0

/-- The steps that `Listen` has yet to make at most. -/
def Listen.work : Listen → Nat
  | .receiving => 3
  | .feedClosed => 2
  | .sending => 1
  | .returned => 0

def State.work (s : State) : Nat := s.start.work + s.listen.work

/-- `Start` hears what is sent on `closeConn`, now or when it is ready. -/
def Start.hears : Start → Bool
  | .starting | .selecting => true
  | _ => false

/-- See the header. -/
structure Calm (s : State) : Prop where
  pinged : s.start ≠ .pingFailed
  heard : s.listen = .sending → s.start.hears = true

/-- Where a run of internal steps ends. -/
structure Closed (s : State) : Prop where
  start : s.start = .returned
  closes : s.closes = 1
  listen : s.listen = .returned ∨ s.listen = .sending

section

variable {s s' : State} {a : Label}

/-- **Every internal step is work done.** -/
theorem work_lt (hs : step a s = some s') (ha : Internal a) : s'.work < s.work := by
  obtain ⟨hen, rfl⟩ := step_eq_some.mp hs
  cases a with
  | register | hubCloses | ping => exact ha.elim
  | ready | setClosed | unregister | writeClose | closeConnection | finish =>
    have hstart := beq_iff_eq.mp hen
    simp [State.work, effect, hstart, Start.work]
  | seeClosed =>
    have hlisten := beq_iff_eq.mp (Bool.and_eq_true_iff.mp hen).1
    simp [State.work, effect, hlisten, Listen.work]
  | testReady =>
    have hlisten := beq_iff_eq.mp hen
    cases hready : s.readyState <;> simp [State.work, effect, hlisten, hready, Listen.work]
  | handOver =>
    obtain ⟨hlisten, hstart⟩ := Bool.and_eq_true_iff.mp hen
    simp [State.work, effect, beq_iff_eq.mp hlisten, beq_iff_eq.mp hstart, Start.work, Listen.work]

/-! ## What holds in every run -/

/-- As long as `readyState` is `Open`, `Listen` returns when `Start` leaves its loop, not before. -/
structure Ends (s : State) : Prop where
  loops : s.start.looping = true → s.listen ≠ .returned
  left : s.readyState = .isOpen → s.start.looping = false → s.listen = .returned

theorem Ends.step (h : Ends s) (hb : Basic s) (hs : step a s = some s') : Ends s' := by
  obtain ⟨hen, rfl⟩ := step_eq_some.mp hs
  obtain ⟨hloops, hleft⟩ := h
  cases a with
  | register | hubCloses => exact ⟨hloops, hleft⟩
  | ready =>
    rw [beq_iff_eq.mp hen] at hloops
    exact ⟨fun _ => hloops rfl, fun _ hl => by cases hl⟩
  | ping ok =>
    cases ok with
    | true => exact ⟨hloops, hleft⟩
    | false =>
      rw [beq_iff_eq.mp hen] at hloops
      exact ⟨fun _ => hloops rfl, fun _ hl => by cases hl⟩
  | setClosed | finish => exact ⟨fun hl => (by cases hl), fun ho => (by cases ho)⟩
  | unregister | writeClose | closeConnection =>
    rw [beq_iff_eq.mp hen] at hleft
    exact ⟨fun hl => (by cases hl), fun ho _ => hleft ho rfl⟩
  | seeClosed =>
    have hlisten := beq_iff_eq.mp (Bool.and_eq_true_iff.mp hen).1
    rw [hlisten] at hleft
    exact ⟨fun _ hr => (by cases hr), fun ho hl => by cases hleft ho hl⟩
  | testReady =>
    have hlisten := beq_iff_eq.mp hen
    rw [hlisten] at hleft
    refine ⟨fun hl => ?_, fun ho hl => by cases hleft ho hl⟩
    simp [effect, hb.isOpen hl]
  | handOver => exact ⟨fun hl => (by cases hl), fun _ _ => rfl⟩

theorem ends_of_reachable (h : clientFeed.Reachable s) : Basic s ∧ Ends s := by
  refine h.invariant (I := fun s => Basic s ∧ Ends s) ?_ fun _ _ _ hi hs =>
    ⟨hi.1.step hs, hi.2.step hi.1 hs⟩
  rintro s rfl
  exact ⟨⟨rfl, fun _ => rfl⟩, fun _ hr => (by cases hr), fun _ hl => by cases hl⟩

/-- A closed `Feed` stays closed. -/
theorem feed_closed_of_step (hs : step a s = some s') (hfeed : s.feed = .closed)
    (ha : Internal a) : s'.feed = .closed := by
  obtain ⟨-, rfl⟩ := step_eq_some.mp hs
  cases a with
  | register | hubCloses | ping => exact ha.elim
  | unregister => simp [effect, hfeed]
  | _ => exact hfeed

/-! ## At rest -/

/-- Where no internal step is left and the `Feed` is closed, `Start` has returned, and `Listen` too
if it does not wait. -/
theorem closed_of_atRest (hb : Basic s) (he : Ends s) (hfeed : s.feed = .closed)
    (h : clientFeed.AtRest Internal s) : Closed s := by
  have hen : ∀ a, Internal a → enabled s a = false := by
    intro a ha
    by_contra hne
    have hs : step a s = none := h a ha
    rw [step, if_pos (eq_true_of_ne_false hne)] at hs
    cases hs
  have hlisten : s.listen = .returned ∨ s.listen = .sending := by
    have hsee := hen .seeClosed trivial
    have htest := hen .testReady trivial
    cases hl : s.listen <;> simp [enabled, hl, hfeed] at hsee htest ⊢
  have hstart : s.start = .returned := by
    have hready := hen .ready trivial
    have hset := hen .setClosed trivial
    have hunregister := hen .unregister trivial
    have hwrite := hen .writeClose trivial
    have hclose := hen .closeConnection trivial
    have hfinish := hen .finish trivial
    have hhand := hen .handOver trivial
    have hloops := he.loops
    rcases hlisten with hl | hl <;> cases hst : s.start <;>
      simp_all [enabled, Start.looping]
  exact ⟨hstart, by rw [hb.closes, hstart]; rfl, hlisten⟩

/-! ## Calm states -/

/-- An internal step from a calm state leads to a calm state. -/
theorem Calm.step (h : Calm s) (he : Ends s) (hs : step a s = some s') (ha : Internal a) :
    Calm s' := by
  obtain ⟨hen, rfl⟩ := step_eq_some.mp hs
  obtain ⟨hpinged, hheard⟩ := h
  cases a with
  | register | hubCloses | ping => exact ha.elim
  | ready => exact ⟨fun hp => (by cases hp), fun _ => rfl⟩
  | setClosed => exact absurd (beq_iff_eq.mp hen) hpinged
  | unregister | writeClose | closeConnection | finish =>
    rw [beq_iff_eq.mp hen] at hheard
    exact ⟨fun hp => (by cases hp), fun hl => by cases hheard hl⟩
  | seeClosed => exact ⟨hpinged, fun hl => by cases hl⟩
  | testReady =>
    have hlisten := beq_iff_eq.mp hen
    refine ⟨hpinged, fun hl => ?_⟩
    cases hready : s.readyState with
    | closed => simp [effect, hready] at hl
    | isOpen =>
      -- `Listen` has not returned, so `Start` loops, and no ping has failed
      have hloop : s.start.looping = true := by
        by_contra hne
        rw [he.left hready (eq_false_of_ne_true hne)] at hlisten
        cases hlisten
      show s.start.hears = true
      cases hst : s.start <;> simp_all [Start.looping, Start.hears]
  | handOver => exact ⟨fun hp => (by cases hp), fun hl => (by cases hl)⟩

/-- A state that is not calm, with a `Feed` that is closed: `Listen` may come to wait for ever. -/
structure Lost (s : State) : Prop where
  feed : s.feed = .closed
  lost : s.start = .pingFailed ∧ s.readyState = .isOpen ∧ s.listen ≠ .returned ∨
    s.listen = .sending ∧ s.start.hears = false

theorem lost_of_not_calm (hb : Basic s) (he : Ends s) (hfeed : s.feed = .closed)
    (h : ¬ Calm s) : Lost s := by
  refine ⟨hfeed, ?_⟩
  by_cases hp : s.start = .pingFailed
  · exact Or.inl ⟨hp, hb.isOpen (by rw [hp]; rfl), he.loops (by rw [hp]; rfl)⟩
  · refine Or.inr ⟨?_, ?_⟩
    · by_contra hl
      exact h ⟨hp, fun hl' => absurd hl' hl⟩
    · by_contra hh
      exact h ⟨hp, fun _ => eq_true_of_ne_false hh⟩

/-- From there `Listen` can go on to the send, and `Start` to its end. -/
theorem Lost.goes_on (h : Lost s) :
    (clientFeed.AtRest Internal s ∧ ¬ (s.start = .returned ∧ s.listen = .returned)) ∨
      ∃ a t, Internal a ∧ clientFeed.step a s = some t ∧ Lost t := by
  have hgo : ∀ a, enabled s a = true → Internal a → Lost (effect s a) →
      ∃ a t, Internal a ∧ clientFeed.step a s = some t ∧ Lost t := fun a hen ha ht =>
    ⟨a, _, ha, step_eq_some.mpr ⟨hen, rfl⟩, ht⟩
  obtain ⟨hfeed, ⟨hstart, hready, hlisten⟩ | ⟨hlisten, hhears⟩⟩ := h
  · refine Or.inr ?_
    cases hl : s.listen with
    | receiving =>
      exact hgo .seeClosed (by simp [enabled, hl, hfeed]) trivial
        ⟨hfeed, Or.inl ⟨hstart, hready, nofun⟩⟩
    | feedClosed =>
      refine hgo .testReady (by simp [enabled, hl]) trivial ⟨hfeed, Or.inl ⟨hstart, hready, ?_⟩⟩
      simp [effect, hready]
    | sending =>
      exact hgo .setClosed (by simp [enabled, hstart]) trivial ⟨hfeed, Or.inr ⟨hl, rfl⟩⟩
    | returned => exact absurd hl hlisten
  · cases hst : s.start with
    | starting | selecting =>
      rw [hst] at hhears
      cases hhears
    | pingFailed =>
      exact Or.inr (hgo .setClosed (by simp [enabled, hst]) trivial
        ⟨hfeed, Or.inr ⟨hlisten, rfl⟩⟩)
    | notReady =>
      refine Or.inr (hgo .unregister (by simp [enabled, hst]) trivial ⟨?_, Or.inr ⟨hlisten, rfl⟩⟩)
      simp [effect, hfeed]
    | closing =>
      exact Or.inr (hgo .writeClose (by simp [enabled, hst]) trivial
        ⟨hfeed, Or.inr ⟨hlisten, rfl⟩⟩)
    | leaving =>
      exact Or.inr (hgo .closeConnection (by simp [enabled, hst]) trivial
        ⟨hfeed, Or.inr ⟨hlisten, rfl⟩⟩)
    | connClosed =>
      exact Or.inr (hgo .finish (by simp [enabled, hst]) trivial ⟨hfeed, Or.inr ⟨hlisten, rfl⟩⟩)
    | returned =>
      refine Or.inl ⟨fun a ha => ?_, fun hboth => ?_⟩
      · show step a s = none
        cases a with
        | register | hubCloses | ping => exact ha.elim
        | _ => simp [step, enabled, hst, hlisten]
      · rw [hlisten] at hboth
        cases hboth.2

/-! ## Results -/

/-- **A client feed winds down.** Once its `Feed` is closed, if no further ping is made, whatever
the scheduler does: `Start` returns and the connection is closed once; and both loops return exactly
from a calm state. -/
theorem feed_winds_down (h : clientFeed.Reachable s) (hfeed : s.feed = .closed) :
    clientFeed.Settles Internal Closed s ∧
      (clientFeed.Settles Internal (fun t => t.start = .returned ∧ t.listen = .returned) s ↔
        Calm s) := by
  obtain ⟨hb, he⟩ := ends_of_reachable h
  constructor
  · refine System.settles_of_measure (I := fun s => Basic s ∧ Ends s ∧ s.feed = .closed) State.work
      ?_ ?_ ⟨hb, he, hfeed⟩
    · rintro s a t ⟨hb, he, hfeed⟩ ha hs
      exact ⟨⟨hb.step hs, he.step hb hs, feed_closed_of_step hs hfeed ha⟩, work_lt hs ha⟩
    · rintro s ⟨hb, he, hfeed⟩ hrest
      exact closed_of_atRest hb he hfeed hrest
  constructor
  · intro hsettles
    by_contra hcalm
    exact System.not_settles (fun _ => Lost.goes_on) (lost_of_not_calm hb he hfeed hcalm) hsettles
  · intro hcalm
    refine System.settles_of_measure (I := fun s => (Basic s ∧ Ends s ∧ s.feed = .closed) ∧ Calm s)
      State.work ?_ ?_ ⟨⟨hb, he, hfeed⟩, hcalm⟩
    · rintro s a t ⟨⟨hb, he, hfeed⟩, hcalm⟩ ha hs
      exact ⟨⟨⟨hb.step hs, he.step hb hs, feed_closed_of_step hs hfeed ha⟩,
        hcalm.step he hs ha⟩, work_lt hs ha⟩
    · rintro s ⟨⟨hb, he, hfeed⟩, hcalm⟩ hrest
      obtain ⟨hstart, -, hlisten⟩ := closed_of_atRest hb he hfeed hrest
      refine ⟨hstart, hlisten.resolve_right fun hl => ?_⟩
      have hhears := hcalm.heard hl
      rw [hstart] at hhears
      cases hhears

/-- A timely run leads to calm states, but for the moment after a failed ping. -/
theorem calm_of_timely (h : clientFeed.ReachableBy Timely s) (hp : s.start ≠ .pingFailed) :
    Calm s := by
  refine ⟨hp, fun hl => ?_⟩
  rcases (heard_of_timely h).sending hl with hst | hst <;> rw [hst] <;> rfl

end

/-- The hub closes the `Feed` while `Start` is in its `select`. -/
theorem feed_winds_down_sample : ∃ s, s.start = .selecting ∧ s.listen = .receiving ∧
    clientFeed.Settles Internal (fun t => t.start = .returned ∧ t.listen = .returned) s := by
  obtain ⟨s, hr, hs⟩ := System.exists_reachable (M := clientFeed) (s := newClientFeed) rfl
    [.ready, .register, .ping true, .hubCloses]
    (fun s => decide (s.start = .selecting) && decide (s.listen = .receiving) &&
      decide (s.feed = .closed)) (by decide +kernel)
  simp only [Bool.and_eq_true, decide_eq_true_eq] at hs
  obtain ⟨⟨hstart, hlisten⟩, hfeed⟩ := hs
  have hcalm : Calm s := ⟨by rw [hstart]; decide, fun _ => by rw [hstart]; rfl⟩
  exact ⟨s, hstart, hlisten, (feed_winds_down hr hfeed).2.mpr hcalm⟩

end SigningAgent.ClientLoops
