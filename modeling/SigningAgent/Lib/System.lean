import Mathlib.Data.List.Basic
import Mathlib.Logic.Function.Basic

/-!
# Labelled transition systems with an executable step

A `System` is a set of initial states and a partial step `step : A → S → Option S`: the label
names who moves and how its environment answers, so that one label from one state has at most
one successor. An interleaving of concurrent calls is a list of labels.

* `ReachableBy G`: the states reached by runs all of whose steps meet the guard `G`, a condition
  on the label and the state **before** the step. `Reachable` has no guard.
* `run as s` executes a list of labels; `runBy g` also checks a guard at each step.

Results:
* **`ReachableBy.invariant`**: a property that holds initially and is kept by every guarded step
  holds in every state reached. Every invariant of the development goes through it.
* `ReachableBy.mono`: weaker guards reach more.
* `exists_reachableBy`: an executed list of labels is a run, which is how concrete
  interleavings are checked.
* `getElem?_set_cases`, `mem_set_of_ne`: the states of several processes, in a list, after a step of
  one of them.
-/

namespace Transition

/-- A labelled transition system with a partial, executable step. -/
structure System (S A : Type*) where
  init : S → Prop
  step : A → S → Option S

namespace System

variable {S A : Type*} (M : System S A)

/-- The states reached by steps that all meet `G` in the state before them. -/
inductive ReachableBy (G : S → A → Prop) : S → Prop
  | init {s : S} : M.init s → ReachableBy G s
  | step {s s' : S} {a : A} : ReachableBy G s → G s a → M.step a s = some s' → ReachableBy G s'

/-- The states reached by any steps. -/
def Reachable : S → Prop := M.ReachableBy fun _ _ => True

variable {M}

/-- **Invariants.** What holds initially and is kept by every step that meets the guard holds in
every state reached. -/
theorem ReachableBy.invariant {G : S → A → Prop} {I : S → Prop} {s : S}
    (h : M.ReachableBy G s) (h0 : ∀ s, M.init s → I s)
    (hstep : ∀ s a s', I s → G s a → M.step a s = some s' → I s') : I s := by
  induction h with
  | init h => exact h0 _ h
  | step _ hg hs ih => exact hstep _ _ _ ih hg hs

theorem Reachable.invariant {I : S → Prop} {s : S} (h : M.Reachable s)
    (h0 : ∀ s, M.init s → I s) (hstep : ∀ s a s', I s → M.step a s = some s' → I s') : I s :=
  ReachableBy.invariant h h0 fun s a s' hi _ => hstep s a s' hi

/-- A weaker guard reaches more. -/
theorem ReachableBy.mono {G G' : S → A → Prop} (hG : ∀ s a, G s a → G' s a) {s : S}
    (h : M.ReachableBy G s) : M.ReachableBy G' s := by
  induction h with
  | init h => exact ReachableBy.init h
  | step _ hg hs ih => exact ReachableBy.step ih (hG _ _ hg) hs

/-! ## Executing a list of labels -/

variable (M)

/-- Execute `as` in order. -/
def run : List A → S → Option S
  | [], s => some s
  | a :: as, s => (M.step a s).bind (run as)

/-- Execute `as` in order, checking the guard `g` before each step. -/
def runBy (g : S → A → Bool) : List A → S → Option S
  | [], s => some s
  | a :: as, s => if g s a then (M.step a s).bind (runBy g as) else none

variable {M}

theorem ReachableBy.runBy {G : S → A → Prop} {g : S → A → Bool}
    (hg : ∀ s a, g s a = true → G s a) :
    ∀ {as : List A} {s s' : S}, M.ReachableBy G s → M.runBy g as s = some s' →
      M.ReachableBy G s'
  | [], s, s', hr, h => by
    obtain rfl : s = s' := by simpa [System.runBy] using h
    exact hr
  | a :: as, s, s', hr, h => by
    simp only [System.runBy] at h
    split at h
    · rename_i ha
      obtain ⟨t, ht, h⟩ := Option.bind_eq_some_iff.mp h
      exact ReachableBy.runBy hg (ReachableBy.step hr (hg s a ha) ht) h
    · exact absurd h (by simp)

theorem run_eq_runBy : ∀ (as : List A) (s : S), M.run as s = M.runBy (fun _ _ => true) as s
  | [], _ => rfl
  | a :: as, s => by
    simp only [run, runBy, if_true]
    congr 1
    funext t
    exact run_eq_runBy as t

/-- **An executed interleaving is a run**: if executing `as` under the guard ends in a state
where `p` holds, such a state is reachable under the guard. -/
theorem exists_reachableBy {G : S → A → Prop} {g : S → A → Bool}
    (hg : ∀ s a, g s a = true → G s a) {s : S} (h0 : M.init s) (as : List A) (p : S → Bool)
    (h : (M.runBy g as s).map p = some true) : ∃ t, M.ReachableBy G t ∧ p t = true := by
  obtain ⟨t, ht, hp⟩ := Option.map_eq_some_iff.mp h
  exact ⟨t, (ReachableBy.init h0).runBy hg ht, hp⟩

/-- The same without a guard. -/
theorem exists_reachable {s : S} (h0 : M.init s) (as : List A) (p : S → Bool)
    (h : (M.run as s).map p = some true) : ∃ t, M.Reachable t ∧ p t = true := by
  rw [run_eq_runBy] at h
  exact exists_reachableBy (fun _ _ _ => trivial) h0 as p h

end System

/-! ## Processes in a list -/

/-- The processes after the `i`-th one moved on. -/
theorem getElem?_set_cases {α : Type*} {l : List α} {i j : Nat} {a b : α}
    (h : (l.set i a)[j]? = some b) : (j = i ∧ b = a) ∨ (j ≠ i ∧ l[j]? = some b) := by
  by_cases hij : j = i
  · subst hij
    have hlt : j < (l.set j a).length := (List.getElem?_eq_some_iff.mp h).1
    rw [List.length_set] at hlt
    rw [List.getElem?_set_self hlt] at h
    exact Or.inl ⟨rfl, (Option.some.inj h).symm⟩
  · rw [List.getElem?_set_ne (Ne.symm hij)] at h
    exact Or.inr ⟨hij, h⟩

/-- A process stays what it is while another one, which was something else, moves on. -/
theorem mem_set_of_ne {α : Type*} {l : List α} {i : Nat} {a b : α} (h : l[i]? = some a)
    (hne : a ≠ b) (a' : α) (hb : b ∈ l) : b ∈ l.set i a' := by
  obtain ⟨j, hj⟩ := List.mem_iff_getElem?.mp hb
  have hij : i ≠ j := by
    rintro rfl
    exact hne (Option.some.inj (h.symm.trans hj))
  exact List.mem_of_getElem? ((List.getElem?_set_ne hij).trans hj)

end Transition
