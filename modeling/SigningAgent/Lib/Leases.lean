import SigningAgent.Lib.System

/-!
# Leases

A process takes a lease on a resource, works under it and gives it back. Without a clock, a model of
this lets a lease end by itself only if its process is not under it any more. With a clock, a lease
ends `L` after it was taken, whatever its process does.

* `Leasing`: who is under a lease, which labels take one, whose lease is on a resource, and what is
  left when that lease ends.
* `leased`: the system under a clock. Each process has the time at which it last took a lease.
* `Within H`: no process is kept under a lease for longer than `H`.

Results:
* **`refines`**: if `H < L`, the clock adds nothing: every state reached is one that the system
  without a clock reaches.
* `timeless`: and it takes nothing away, since a run need not take any time.
* **`revoked`**: if `L ≤ H`, every lease in every state reached can end under its process.
-/

namespace Transition

/-- Processes `ι` with leases on resources `R`. -/
structure Leasing (S A ι R : Type*) where
  /-- the process works under a lease -/
  under : S → ι → Prop
  /-- the process that takes a lease by this step -/
  takes : A → Option ι
  /-- whose lease is on the resource -/
  owner : R → S → Option ι
  /-- the lease on the resource ends -/
  revoke : R → S → S

variable {S A ι R : Type*}

/-- A process is under a lease only if it took one, and the system itself can end a lease that no
process is under. `G` is the condition on its steps. -/
structure Leasing.Lawful (K : Leasing S A ι R) (M : System S A) (G : S → A → Prop) : Prop where
  init : ∀ {s i}, M.init s → ¬ K.under s i
  step : ∀ {a s s' i}, M.step a s = some s' → K.under s' i → K.takes a = some i ∨ K.under s i
  revoke : ∀ {r s i}, K.owner r s = some i → ¬ K.under s i →
    ∃ a, G s a ∧ K.takes a = none ∧ M.step a s = some (K.revoke r s)

/-- A state under a clock. -/
structure Leased (S ι : Type*) where
  state : S
  clock : Nat
  /-- when the process last took a lease -/
  takenAt : ι → Nat

namespace Leased

inductive Label (A R : Type*) where
  /-- time passes -/
  | wait (d : Nat)
  | act (a : A)
  /-- the lease on the resource ends -/
  | runOut (r : R)

variable [DecidableEq ι]

/-- The state after a step of the system, which may have taken a lease. -/
def after (K : Leasing S A ι R) (a : A) (s : S) (t : Leased S ι) : Leased S ι :=
  { t with
    state := s
    takenAt := match K.takes a with
      | some i => Function.update t.takenAt i t.clock
      | none => t.takenAt }

/-- The system under a clock, with leases of the length `L`. -/
def leased (M : System S A) (K : Leasing S A ι R) (L : Nat) : System (Leased S ι) (Label A R) where
  init t := M.init t.state
  step
    | .wait d, t => some { t with clock := t.clock + d }
    | .act a, t => (M.step a t.state).map fun s => t.after K a s
    | .runOut r, t => (K.owner r t.state).bind fun i =>
      if t.takenAt i + L ≤ t.clock then some { t with state := K.revoke r t.state } else none

/-- No process is kept under a lease for longer than `H`, and the steps meet the condition of the
system. -/
def Within (K : Leasing S A ι R) (G : S → A → Prop) (H : Nat) (t : Leased S ι) :
    Label A R → Prop
  | .wait d => ∀ i, K.under t.state i → t.clock + d ≤ t.takenAt i + H
  | .act a => G t.state a
  | .runOut _ => True

variable {M : System S A} {K : Leasing S A ι R} {G : S → A → Prop} {L H : Nat}

/-! ## Short enough -/

/-- Every process under a lease took it at most `H` ago. -/
def Recent (K : Leasing S A ι R) (H : Nat) (t : Leased S ι) : Prop :=
  ∀ i, K.under t.state i → t.clock ≤ t.takenAt i + H

theorem Recent.after (hK : K.Lawful M G) {t : Leased S ι} (ht : t.Recent K H) {a : A} {s : S}
    (hs : M.step a t.state = some s) : (t.after K a s).Recent K H := by
  intro i hi
  by_cases htakes : K.takes a = some i
  · simp only [Leased.after, htakes, Function.update_self]
    exact Nat.le_add_right ..
  · have hold := ht i ((hK.step hs hi).resolve_left htakes)
    simp only [Leased.after]
    cases hj : K.takes a with
    | none => exact hold
    | some j =>
      have hne : i ≠ j := by
        rintro rfl
        exact htakes hj
      simp only [Function.update_of_ne hne]
      exact hold

/-- **Leases that are long enough.** -/
theorem refines (hK : K.Lawful M G) (hlong : H < L) {t : Leased S ι}
    (ht : (leased M K L).ReachableBy (Within K G H) t) : M.ReachableBy G t.state := by
  refine (ht.invariant (I := fun t => t.Recent K H ∧ M.ReachableBy G t.state) ?_ ?_).2
  · exact fun t h0 => ⟨fun i hi => absurd hi (hK.init h0), .init h0⟩
  · rintro t x t' ⟨hrecent, hreach⟩ hwithin hstep
    cases x with
    | wait d =>
      obtain rfl := Option.some.inj hstep
      exact ⟨hwithin, hreach⟩
    | act a =>
      obtain ⟨s, hs, rfl⟩ := Option.map_eq_some_iff.mp hstep
      exact ⟨hrecent.after hK hs, hreach.step hwithin hs⟩
    | runOut r =>
      obtain ⟨i, howner, hend⟩ := Option.bind_eq_some_iff.mp hstep
      split_ifs at hend with hdue
      obtain rfl := Option.some.inj hend
      -- a process that is still under its lease took it less than `L` ago
      have hfree : ¬ K.under t.state i := fun hi => by
        have := hrecent i hi
        omega
      obtain ⟨a, hG, htakes, hs⟩ := hK.revoke howner hfree
      refine ⟨fun j hj => hrecent j ?_, hreach.step hG hs⟩
      exact (hK.step hs hj).resolve_left (by simp [htakes])

/-! ## Too short -/

section

variable {E : Leased S ι → Label A R → Prop} {t : Leased S ι}

/-- A step of the system. -/
theorem reachableBy_act (ht : (leased M K L).ReachableBy E t) {a : A} {s : S} (ha : E t (.act a))
    (hs : M.step a t.state = some s) : (leased M K L).ReachableBy E (t.after K a s) :=
  ht.step ha (by simp only [leased, hs, Option.map_some])

/-- Time passes until `T`. -/
theorem reachableBy_wait (ht : (leased M K L).ReachableBy E t) {T : Nat} (hle : t.clock ≤ T)
    (hwait : E t (.wait (T - t.clock))) : (leased M K L).ReachableBy E { t with clock := T } :=
  ht.step hwait (by simp only [leased, Nat.add_sub_of_le hle])

/-- A lease that is over ends. -/
theorem reachableBy_runOut (ht : (leased M K L).ReachableBy E t) {r : R} {i : ι}
    (howner : K.owner r t.state = some i) (hdue : t.takenAt i + L ≤ t.clock)
    (hr : E t (.runOut r)) :
    (leased M K L).ReachableBy E { t with state := K.revoke r t.state } :=
  ht.step hr (by simp only [leased, howner, Option.bind_some, if_pos hdue])

/-- **A run that takes no time.** -/
theorem timeless (hE : ∀ s a, G s a → E ⟨s, 0, fun _ => 0⟩ (.act a)) {s : S}
    (hs : M.ReachableBy G s) : (leased M K L).ReachableBy E ⟨s, 0, fun _ => 0⟩ := by
  induction hs with
  | init h0 => exact .init h0
  | @step s s' a _ hG hstep ih =>
    have hact := reachableBy_act ih (hE s a hG) hstep
    have hafter : (⟨s, 0, fun _ => 0⟩ : Leased S ι).after K a s' = ⟨s', 0, fun _ => 0⟩ := by
      simp only [after]
      cases K.takes a with
      | none => rfl
      | some i =>
        have hsame : Function.update (fun _ : ι => 0) i 0 = fun _ => 0 :=
          Function.update_eq_self i _
        simp only [hsame]
    rwa [hafter] at hact

end

omit [DecidableEq ι] in
theorem Within.wait_until {t : Leased S ι} {T : Nat} (hle : t.clock ≤ T)
    (hT : ∀ i, K.under t.state i → T ≤ t.takenAt i + H) :
    Within K G H t (.wait (T - t.clock) : Label A R) := fun i hi => by
  rw [Nat.add_sub_of_le hle]
  exact hT i hi

/-- **Leases that are too short.** -/
theorem revoked (hshort : L ≤ H) {s : S} (hs : M.ReachableBy G s) {r : R} {i : ι}
    (howner : K.owner r s = some i) :
    (leased M K L).ReachableBy (Within K G H) ⟨K.revoke r s, L, fun _ => 0⟩ := by
  have hstart : (leased M K L).ReachableBy (Within K G H) ⟨s, 0, fun _ => 0⟩ :=
    timeless (fun _ _ ha => ha) hs
  have hwait := reachableBy_wait hstart (Nat.zero_le L)
    (Within.wait_until (Nat.zero_le L) fun i _ => by simpa using hshort)
  exact reachableBy_runOut hwait howner (Nat.le_of_eq (Nat.zero_add L)) trivial

end Leased

end Transition
