import SigningAgent.Lib.System

/-!
# Systems that come to rest

Some labels of a system are internal: the scheduler takes such steps as long as there is one. The
others are the environment's. `M.Settles internal Q s` says that, if the environment does nothing
more, every scheduler is at an end after finitely many steps from `s`, and that `Q` holds where it
ends. So it is both the absence of a deadlock before `Q` and the absence of an endless run.

* **`settles_of_measure`**: it is enough that every internal step keeps an invariant and makes a
  measure smaller, and that the invariant gives `Q` where no internal step is left.
* `not_settles`: and it is refuted by a set of states from which the scheduler can always go on, or
  stop where `Q` fails.
* `total`: the measure of a list of processes.
-/

namespace Transition.System

variable {S A : Type*} (M : System S A) (internal : A → Prop)

/-- No internal step is left. -/
def AtRest (s : S) : Prop := ∀ a, internal a → M.step a s = none

/-- Every run of internal steps from the state ends, where `Q` holds. -/
inductive Settles (Q : S → Prop) : S → Prop
  | intro {s : S} : (M.AtRest internal s → Q s) →
      (∀ a t, internal a → M.step a s = some t → Settles Q t) → Settles Q s

variable {M internal}

/-- **The measure rule.** -/
theorem settles_of_measure {I Q : S → Prop} (μ : S → Nat)
    (hstep : ∀ s a t, I s → internal a → M.step a s = some t → I t ∧ μ t < μ s)
    (hrest : ∀ s, I s → M.AtRest internal s → Q s) {s : S} (hs : I s) :
    M.Settles internal Q s := by
  induction hn : μ s using Nat.strongRecOn generalizing s with
  | _ n ih =>
    subst hn
    refine ⟨hrest s hs, fun a t ha ht => ?_⟩
    obtain ⟨hinv, hlt⟩ := hstep s a t hs ha ht
    exact ih (μ t) hlt hinv rfl

/-- **The rule for the contrary**: from `D` an internal step leads to `D` again, or there is none
left and `Q` fails. -/
theorem not_settles {D Q : S → Prop}
    (hD : ∀ s, D s → (M.AtRest internal s ∧ ¬ Q s) ∨ ∃ a t, internal a ∧ M.step a s = some t ∧ D t)
    {s : S} (hs : D s) : ¬ M.Settles internal Q s := by
  intro h
  induction h with
  | intro hrest _ ih =>
    rcases hD _ hs with ⟨hr, hq⟩ | ⟨a, t, ha, ht, hdt⟩
    · exact hq (hrest hr)
    · exact ih a t ha ht hdt

theorem Settles.mono {Q Q' : S → Prop} (hQ : ∀ s, Q s → Q' s) {s : S}
    (h : M.Settles internal Q s) : M.Settles internal Q' s := by
  induction h with
  | intro hrest _ ih => exact ⟨fun hr => hQ _ (hrest hr), ih⟩

end Transition.System

namespace Transition

/-! ## The measure of processes in a list -/

/-- What the processes have to do, all together. -/
def total {α : Type*} (f : α → Nat) : List α → Nat
  | [] => 0
  | a :: l => f a + total f l

/-- One of the processes has less to do, the others have as much as before. -/
theorem total_set_lt {α : Type*} (f : α → Nat) {b : α} :
    ∀ {l : List α} {i : Nat} {a : α}, l[i]? = some a → f b < f a → total f (l.set i b) < total f l
  | x :: l, 0, a, ha, hlt => by
    obtain rfl : x = a := Option.some.inj ha
    simpa [total] using hlt
  | x :: l, i + 1, a, ha, hlt => by
    have := total_set_lt f (l := l) (i := i) ha hlt
    simpa [total] using this

end Transition
