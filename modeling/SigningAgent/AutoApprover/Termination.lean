import SigningAgent.AutoApprover.Timing
import Mathlib.Tactic.Positivity

/-!
# The retry loop ends

The loop of `approveAction` has no counter: it ends because the pauses add up. `approveActionAt`
runs the loop of `Timing.lean` with fuel and collects the calls, and `approveAction_events` says
that the untimed run has these calls, with the pauses between them.

* `CallsMade p w tm k`: the calls are those from 0 to `k`; all but the last one are retried.
* `NoOverflow`: neither the maximum nor a pause that is taken overflows when it is multiplied with
  `time.Second`.

Results:
* `le_starts`: after `i` retries the pauses have taken `r * (1 + … + i)` seconds.
* **`approveAction_terminates`**: whatever the signer answers and however long its calls take, the
  loop ends; it makes a call, none after a success, and pauses `j * r` seconds after the `j`-th; and
  `N` calls are made only if `r * (N - 1) * (N - 2) / 2` is below the maximum.
-/

namespace SigningAgent.AutoApprover

section

variable (p : Approver) (w : World) (tm : Timing)

/-- The loop of `approveAction`, from the `i`-th call on. -/
def approveLoopAt (began : Int) : (fuel : Nat) → (i : Nat) → Attempt → Option (List Attempt)
  | 0, _, _ => none
  | fuel + 1, i, a =>
    match retryAfter w tm began i a with
    | none => some [a]
    | some b => (approveLoopAt began fuel (i + 1) b).map fun calls => a :: calls

/-- `approveAction`, started at `began`: its calls of the signer. -/
def approveActionAt (fuel : Nat) (began : Int) : Option (List Attempt) :=
  approveLoopAt w tm began fuel 0 ⟨began, newRetryTimer p.retryInterval p.retryIntervalMax⟩

/-- The products with `time.Second` do not overflow. -/
structure NoOverflow : Prop where
  max : FitsDuration p.retryIntervalMax
  /-- a pause that is taken -/
  pause : ∀ i : Nat, (∀ j, j ≤ i → Retried p w tm j) →
    FitsDuration ((i + 1) * p.retryInterval)

/-- The `k`-th call is the last one. -/
structure CallsMade (k : Nat) : Prop where
  retried : ∀ j, j < k → Retried p w tm j
  last : ¬ Retried p w tm k

end

variable {p : Approver} {w : World} {tm : Timing}

/-! ## The calls -/

/-- From a call that is made, the loop makes those up to the last one. -/
theorem approveLoopAt_eq {k : Nat} (h : CallsMade p w tm k) (began : Int) {n i fuel : Nat}
    (hn : i + n = k) (hfuel : n < fuel) :
    approveLoopAt w tm began fuel i (attempt p tm began i) =
      some ((List.range' i (n + 1)).map (attempt p tm began)) := by
  induction n generalizing i fuel with
  | zero =>
    obtain ⟨fuel, rfl⟩ := Nat.exists_eq_succ_of_ne_zero (Nat.ne_of_gt hfuel)
    rw [Nat.add_zero] at hn
    subst hn
    rw [approveLoopAt, retryAfter_of_not_retried began h.last]
    rfl
  | succ n ih =>
    obtain ⟨fuel, rfl⟩ := Nat.exists_eq_succ_of_ne_zero (Nat.ne_of_gt (Nat.zero_lt_of_lt hfuel))
    rw [approveLoopAt, retryAfter_of_retried began (h.retried i (by omega))]
    simp only
    rw [ih (by omega) (by omega), Option.map_some, @List.range'_succ i (n + 1), List.map_cons]

theorem approveActionAt_eq {k : Nat} (h : CallsMade p w tm k) (began : Int) {fuel : Nat}
    (hfuel : k < fuel) : approveActionAt p w tm fuel began =
      some ((List.range (k + 1)).map (attempt p tm began)) := by
  rw [approveActionAt, ← @attempt_zero p tm began, approveLoopAt_eq h began (Nat.zero_add k) hfuel,
    List.range_eq_range']

theorem getElem?_calls {began : Int} {k i : Nat} {a : Attempt} :
    ((List.range (k + 1)).map (attempt p tm began))[i]? = some a ↔
      i ≤ k ∧ a = attempt p tm began i := by
  rw [List.getElem?_map, Option.map_eq_some_iff]
  by_cases hi : i < k + 1
  · rw [List.getElem?_range hi]
    simp [Nat.le_of_lt_succ hi, eq_comm]
  · rw [List.getElem?_eq_none (by rw [List.length_range]; omega)]
    simp only [reduceCtorEq, false_and, exists_false, false_iff, not_and]
    exact fun hle => absurd (Nat.lt_succ_of_le hle) hi

/-! ## The untimed run -/

/-- What the loop does in these calls, the first of which is the `i`-th: the calls, and the pauses
between them. -/
def callEvents (w : World) (actionID : String) (message : Bytes) :
    Nat → List Attempt → List Event
  | _, [] => []
  | i, [_] => [.approveActionMessage actionID message (w.approveErr i)]
  | i, a :: b :: rest => .approveActionMessage actionID message (w.approveErr i) ::
      .sleep a.timer.baseInc :: callEvents w actionID message (i + 1) (b :: rest)

theorem head_approveLoopAt {began : Int} {fuel i : Nat} {a : Attempt} {calls : List Attempt}
    (h : approveLoopAt w tm began fuel i a = some calls) : ∃ rest, calls = a :: rest := by
  cases fuel with
  | zero => cases h
  | succ fuel =>
    rw [approveLoopAt] at h
    cases hnext : retryAfter w tm began i a with
    | none =>
      rw [hnext] at h
      exact ⟨[], (Option.some.inj h).symm⟩
    | some b =>
      rw [hnext] at h
      obtain ⟨rest, -, rfl⟩ := Option.map_eq_some_iff.mp h
      exact ⟨rest, rfl⟩

/-- The untimed loop, when the clock shows what the durations say. -/
theorem approveLoop_events {actionID : String} {message : Bytes} {began : Int}
    (hsince : ∀ i, (∀ j, j < i → Retried p w tm j) → w.since i = ends p tm i) {fuel i : Nat}
    (hprev : ∀ j, j < i → Retried p w tm j) :
    approveLoop w actionID message fuel i (attempt p tm began i).timer =
      (approveLoopAt w tm began fuel i (attempt p tm began i)).map
        (callEvents w actionID message i) := by
  induction fuel generalizing i with
  | zero => rfl
  | succ fuel ih =>
    rw [approveLoop, approveLoopAt]
    by_cases hretried : Retried p w tm i
    · obtain ⟨err, herr⟩ := Option.ne_none_iff_exists'.mp hretried.1
      have hup : (attempt p tm began i).timer.isTimeOut (w.since i) = false := by
        rw [hsince i hprev]
        exact decide_eq_false (Int.not_le.mpr hretried.2)
      have hih := @ih (i + 1) (Nat.forall_lt_succ_right.mpr ⟨hprev, hretried⟩)
      rw [retryAfter_of_retried began hretried, herr]
      simp only [hup, retry_attempt, hih, Bool.false_eq_true, if_false, Option.map_map]
      cases hrest : approveLoopAt w tm began fuel (i + 1) (attempt p tm began (i + 1)) with
      | none => rfl
      | some calls =>
        obtain ⟨rest, rfl⟩ := head_approveLoopAt hrest
        simp [callEvents, herr]
    · rw [retryAfter_of_not_retried began hretried]
      cases herr : w.approveErr i with
      | none => simp [callEvents, herr]
      | some err =>
        have hup : (attempt p tm began i).timer.isTimeOut (w.since i) = true := by
          rw [hsince i hprev]
          refine decide_eq_true (Int.not_lt.mp fun hlt => hretried ⟨?_, hlt⟩)
          rw [herr]
          exact Option.some_ne_none err
        simp [callEvents, herr, hup]

/-- **The untimed run** makes the same calls, with the pauses between them. -/
theorem approveAction_events {actionID : String} {message : Bytes} (began : Int)
    (hsince : ∀ i, (∀ j, j < i → Retried p w tm j) → w.since i = ends p tm i) (fuel : Nat) :
    approveAction p w fuel actionID message =
      (approveActionAt p w tm fuel began).map (callEvents w actionID message 0) := by
  rw [approveAction, approveActionAt, ← @attempt_zero p tm began,
    ← approveLoop_events hsince (by simp), attempt_zero]

/-! ## The pauses -/

theorem NoOverflow.pause_exact (h : NoOverflow p w tm) (hr : 1 ≤ p.retryInterval) {i : Nat}
    (hretried : ∀ j, j ≤ i → Retried p w tm j) :
    AutoApprover.pause p i = (i + 1) * p.retryInterval * 1000000000 := by
  have hpos : 0 ≤ ((i : Int) + 1) * p.retryInterval := by positivity
  rw [AutoApprover.pause, sleepTime, seconds_eq (h.pause i hretried)]
  omega

/-- **The pauses add up**: twice the time before the `i`-th call. -/
theorem NoOverflow.le_starts (h : NoOverflow p w tm) (hr : 1 ≤ p.retryInterval) {i : Nat}
    (hretried : ∀ j, j < i → Retried p w tm j) :
    p.retryInterval * 1000000000 * (i * (i + 1)) ≤ 2 * starts p tm i := by
  induction i with
  | zero => simp [starts]
  | succ i ih =>
    have hprev := ih fun j hj => hretried j (Nat.lt_succ_of_lt hj)
    have hpause := h.pause_exact hr fun j hj => hretried j (Nat.lt_succ_of_le hj)
    have hstep : p.retryInterval * 1000000000 * (((i + 1 : Nat) : Int) * ((i + 1 : Nat) + 1)) =
        p.retryInterval * 1000000000 * (i * (i + 1)) +
          2 * ((i + 1) * p.retryInterval * 1000000000) := by
      push_cast
      ring
    rw [starts, hpause, hstep]
    omega

/-- A call that is retried ended in time, so the pauses before it did too. -/
theorem NoOverflow.retried_lt (h : NoOverflow p w tm) (hr : 1 ≤ p.retryInterval) {i : Nat}
    (hretried : ∀ j, j ≤ i → Retried p w tm j) :
    p.retryInterval * (i * (i + 1)) < 2 * p.retryIntervalMax := by
  have hstarts := h.le_starts hr fun j hj => hretried j (Nat.le_of_lt hj)
  have hends := (hretried i le_rfl).2
  rw [seconds_eq h.max, ends] at hends
  have hscale : p.retryInterval * 1000000000 * (i * (i + 1)) =
      p.retryInterval * (i * (i + 1)) * 1000000000 := by ring
  rw [hscale] at hstarts
  omega

/-- Some call is the last one. -/
theorem NoOverflow.exists_callsMade (h : NoOverflow p w tm) (hr : 1 ≤ p.retryInterval) :
    ∃ k, CallsMade p w tm k := by
  classical
  have hex : ∃ k, ¬ Retried p w tm k := by
    by_contra hall
    push Not at hall
    set i := (2 * p.retryIntervalMax).toNat with hi
    have hlt := h.retried_lt hr fun j (_ : j ≤ i) => hall j
    have hsquare : (i : Int) ≤ i * (i + 1) := le_mul_of_one_le_right (by positivity) (by omega)
    have hscale : (i : Int) * (i + 1) ≤ p.retryInterval * (i * (i + 1)) :=
      le_mul_of_one_le_left (by positivity) hr
    omega
  exact ⟨Nat.find hex, fun j hj => not_not.mp (Nat.find_min hex hj), Nat.find_spec hex⟩

/-- **The loop ends**, and its calls are bounded. -/
theorem approveAction_terminates (hr : 1 ≤ p.retryInterval) (hfits : NoOverflow p w tm)
    (began : Int) : ∃ calls : List Attempt,
      (∃ n, ∀ fuel, n ≤ fuel → approveActionAt p w tm fuel began = some calls) ∧
      1 ≤ calls.length ∧
      (∀ i, i + 1 < calls.length → w.approveErr i ≠ none) ∧
      (∀ i a b, calls[i]? = some a → calls[i + 1]? = some b →
        b.start = a.start + tm.duration i + (i + 1) * p.retryInterval * 1000000000) ∧
      (2 ≤ calls.length →
        p.retryInterval * (calls.length - 1) * (calls.length - 2) / 2 < p.retryIntervalMax) := by
  obtain ⟨k, hk⟩ := hfits.exists_callsMade hr
  have hlen : ((List.range (k + 1)).map (attempt p tm began)).length = k + 1 := by
    rw [List.length_map, List.length_range]
  refine ⟨_, ⟨k + 1, fun fuel hfuel => approveActionAt_eq hk began hfuel⟩, ?_, ?_, ?_, ?_⟩
  · omega
  · intro i hi
    exact (hk.retried i (by omega)).1
  · intro i a b ha hb
    obtain ⟨-, rfl⟩ := getElem?_calls.mp ha
    obtain ⟨hlt, rfl⟩ := getElem?_calls.mp hb
    have hpause := hfits.pause_exact hr fun j (hj : j ≤ i) => hk.retried j (by omega)
    show began + starts p tm (i + 1) = began + starts p tm i + tm.duration i + _
    rw [starts, hpause]
    omega
  · rw [hlen]
    intro hN
    obtain ⟨i, rfl⟩ : ∃ i, k = i + 1 := ⟨k - 1, by omega⟩
    have hlast := hfits.retried_lt hr fun j (hj : j ≤ i) => hk.retried j (by omega)
    have hcast : p.retryInterval * (((i + 1 + 1 : Nat) : Int) - 1) * (((i + 1 + 1 : Nat) : Int) - 2)
        = p.retryInterval * (i * (i + 1)) := by
      push_cast
      ring
    rw [hcast]
    omega

/-- The default intervals. -/
def sampleApprover : Approver := ⟨none, false, 5, 300⟩

/-- A signer that fails at once is called 12 times at most. -/
theorem approveAction_terminates_sample : ∃ calls : List Attempt,
    (∃ n, ∀ fuel, n ≤ fuel →
      approveActionAt sampleApprover failingWorld ⟨0, 0, fun _ => 0⟩ fuel 0 = some calls) ∧
    1 ≤ calls.length ∧ calls.length ≤ 12 := by
  have hfits : NoOverflow sampleApprover failingWorld ⟨0, 0, fun _ => 0⟩ := by
    refine ⟨by decide +kernel, fun i hretried => ?_⟩
    have hi : i < 11 := by
      by_contra hle
      have h11 := (hretried 11 (by omega)).2
      exact absurd h11 (by decide +kernel)
    have hall : ∀ i : Nat, i < 11 → FitsDuration ((i + 1) * 5) := by decide +kernel
    exact hall i hi
  obtain ⟨calls, hends, hpos, -, -, hbound⟩ := approveAction_terminates (by decide) hfits 0
  refine ⟨calls, hends, hpos, ?_⟩
  by_contra hmany
  have hlt := hbound (by omega)
  have h12 : (12 : Int) ≤ calls.length - 1 := by omega
  have h11 : (11 : Int) ≤ calls.length - 2 := by omega
  have hmul : (12 : Int) * 11 ≤ (calls.length - 1) * (calls.length - 2) :=
    Int.mul_le_mul h12 h11 (by decide) (by omega)
  simp only [sampleApprover, mul_assoc] at hlt
  omega

end SigningAgent.AutoApprover
