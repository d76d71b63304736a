import Mathlib.Data.List.Basic

/-!
# Refinement up to failed calls

A `Machine` answers calls; what its environment does meanwhile is part of the call. A `Spec` is the
abstract machine: it answers operations, and it does not fail. The concrete one may fail a call, and
its caller can tell. It refines the abstract one if, seen through a relation of their states, each
call does and answers what its operation does, or says that it failed and has done nothing.

* `Explains os rs m m'`: the answers `rs` to the operations `os` are those of the abstract machine
  from `m` to `m'`, without the operations that failed.
* **`Implements.run`**: a refinement of single calls is one of runs. `Met` is the condition on the
  calls, each in the state that the ones before have left.
* `Explains.answers`: where nothing fails, the answers are those of the abstract machine, and so the
  same for all its refinements.
-/

namespace Refinement

variable {S C M O R : Type*}

/-- Calls with their answers, on a state. -/
structure Machine (S C R : Type*) where
  call : C → S → R × S

/-- Operations with their answers, on an abstract state; which answers say that a call failed. -/
structure Spec (M O R : Type*) where
  apply : O → M → R × M
  failed : R → Bool

/-- The answers to calls in order, and the state that they leave. -/
def Machine.run (K : Machine S C R) : List C → S → List R × S
  | [], s => ([], s)
  | c :: cs, s => ((K.call c s).1 :: (run K cs (K.call c s).2).1, (run K cs (K.call c s).2).2)

/-- Every call meets the condition in the state before it. -/
def Machine.Met (K : Machine S C R) (G : S → C → Prop) : List C → S → Prop
  | [], _ => True
  | c :: cs, s => G s c ∧ Met K G cs (K.call c s).2

/-- The answers of the abstract machine, and its last state. -/
def Spec.run (P : Spec M O R) : List O → M → List R × M
  | [], m => ([], m)
  | o :: os, m => ((P.apply o m).1 :: (run P os (P.apply o m).2).1, (run P os (P.apply o m).2).2)

/-- The answers are those of the abstract machine, without the operations that failed. -/
inductive Spec.Explains (P : Spec M O R) : List O → List R → M → M → Prop
  | nil {m : M} : Explains P [] [] m m
  | failed {o : O} {os : List O} {r : R} {rs : List R} {m m' : M} :
      P.failed r = true → Explains P os rs m m' → Explains P (o :: os) (r :: rs) m m'
  | done {o : O} {os : List O} {rs : List R} {m m' : M} :
      Explains P os rs (P.apply o m).2 m' → Explains P (o :: os) ((P.apply o m).1 :: rs) m m'

/-- **Refinement of a call**: it does what its operation does, or it fails and does nothing. -/
def Implements (K : Machine S C R) (P : Spec M O R) (op : C → O) (G : S → C → Prop)
    (rep : S → M → Prop) : Prop :=
  ∀ s m c, rep s m → G s c →
    P.failed (K.call c s).1 = true ∧ rep (K.call c s).2 m ∨
      (K.call c s).1 = (P.apply (op c) m).1 ∧ rep (K.call c s).2 (P.apply (op c) m).2

variable {K : Machine S C R} {P : Spec M O R} {op : C → O} {G : S → C → Prop} {rep : S → M → Prop}

/-- **Refinement of a run.** -/
theorem Implements.run (h : Implements K P op G rep) {cs : List C} {s : S} {m : M}
    (hrep : rep s m) (hmet : K.Met G cs s) :
    ∃ m', P.Explains (cs.map op) (K.run cs s).1 m m' ∧ rep (K.run cs s).2 m' := by
  induction cs generalizing s m with
  | nil => exact ⟨m, .nil, hrep⟩
  | cons c cs ih =>
    obtain ⟨hc, hmet⟩ := hmet
    rcases h s m c hrep hc with ⟨hfailed, hrep'⟩ | ⟨hr, hrep'⟩
    · obtain ⟨m', hex, hlast⟩ := ih hrep' hmet
      exact ⟨m', .failed hfailed hex, hlast⟩
    · obtain ⟨m', hex, hlast⟩ := ih hrep' hmet
      refine ⟨m', ?_, hlast⟩
      have := Spec.Explains.done (o := op c) hex
      rwa [← hr] at this

/-- Where nothing fails, the abstract machine gives the answers. -/
theorem Spec.Explains.answers {os : List O} {rs : List R} {m m' : M} (h : P.Explains os rs m m')
    (hok : ∀ r ∈ rs, P.failed r = false) : P.run os m = (rs, m') := by
  induction h with
  | nil => rfl
  | failed hf _ _ =>
    rw [hok _ List.mem_cons_self] at hf
    cases hf
  | done _ ih =>
    rw [Spec.run, ih fun r hr => hok r (List.mem_cons_of_mem _ hr)]

end Refinement
