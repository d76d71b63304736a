import Mathlib.Data.Nat.Find
import Mathlib.Tactic.Push

/-!
# Loops that try until a deadline

`loop` makes one try after the other as long as there is time, and ends with the first one that
succeeds. It has no counter: what ends it is that the tries take time.

* `Until n`: the tries before the `n`-th were made and failed, and the `n`-th is the last one, or
  there is no time for it.
* `loop_eq`: the result, if such an `n` is known.
* **`exists_until`**: there is one, if after each failure the clock has moved by a step at least.
* `until_lt`: how many tries there is time for.
-/

namespace Retry

/-- From the `i`-th try on: whether one succeeded, and how many were made. -/
def loop (inTime ok : Nat → Bool) : (fuel i : Nat) → Option (Bool × Nat)
  | 0, _ => none
  | fuel + 1, i =>
    if inTime i then
      if ok i then some (true, i + 1) else loop inTime ok fuel (i + 1)
    else some (false, i)

/-- The loop ends at its `n`-th test. -/
structure Until (inTime ok : Nat → Bool) (n : Nat) : Prop where
  before : ∀ i, i < n → inTime i = true ∧ ok i = false
  last : inTime n = true → ok n = true

variable {inTime ok : Nat → Bool} {n : Nat}

/-- The result: the `n`-th try, if it was made. -/
theorem loop_eq (h : Until inTime ok n) {i fuel : Nat} (hi : i ≤ n) (hfuel : n - i < fuel) :
    loop inTime ok fuel i = some (if inTime n then (true, n + 1) else (false, n)) := by
  induction fuel generalizing i with
  | zero => omega
  | succ fuel ih =>
    rw [loop]
    by_cases hin : i = n
    · subst hin
      cases ht : inTime i with
      | false => rfl
      | true => rw [if_pos rfl, if_pos (h.last ht), if_pos rfl]
    · obtain ⟨ht, hok⟩ := h.before i (by omega)
      rw [if_pos ht, if_neg (by simp [hok])]
      exact ih (by omega) (by omega)

/-- The loop succeeds if some try does before the time is up. -/
theorem until_inTime_iff (h : Until inTime ok n) :
    inTime n = true ↔ ∃ i, ok i = true ∧ ∀ j, j ≤ i → inTime j = true := by
  constructor
  · intro ht
    refine ⟨n, h.last ht, fun j hj => ?_⟩
    by_cases hjn : j = n
    · rwa [hjn]
    · exact (h.before j (by omega)).1
  · rintro ⟨i, hok, hall⟩
    refine hall n (Nat.le_of_not_lt fun hlt => ?_)
    rw [(h.before i hlt).2] at hok
    cases hok

section

variable {elapsed : Nat → Int} {step deadline : Int}

/-- After `i` failures the clock has moved by `i` steps. -/
theorem le_elapsed (h0 : 0 ≤ elapsed 0)
    (hstep : ∀ i, ok i = false → elapsed i + step ≤ elapsed (i + 1)) :
    ∀ i : Nat, (∀ j, j < i → ok j = false) → i * step ≤ elapsed i
  | 0, _ => by simpa using h0
  | i + 1, hfail => by
    have ih := le_elapsed h0 hstep i fun j hj => hfail j (by omega)
    have := hstep i (hfail i (by omega))
    push_cast
    rw [Int.add_mul, Int.one_mul]
    omega

/-- **The loop ends**: the clock gets to the deadline. -/
theorem exists_until (h0 : 0 ≤ elapsed 0)
    (hstep : ∀ i, ok i = false → elapsed i + step ≤ elapsed (i + 1)) (hpos : 0 < step) :
    ∃ n, Until (fun i => decide (elapsed i < deadline)) ok n := by
  classical
  have hex : ∃ n, ¬ (elapsed n < deadline ∧ ok n = false) := by
    by_contra hall
    push Not at hall
    have hle := le_elapsed h0 hstep deadline.toNat fun j _ => (hall j).2
    have hlt := (hall deadline.toNat).1
    have : (deadline.toNat : Int) * 1 ≤ deadline.toNat * step :=
      Int.mul_le_mul_of_nonneg_left hpos (by omega)
    omega
  refine ⟨Nat.find hex, fun i hi => ?_, fun ht => ?_⟩
  · obtain ⟨hlt, hok⟩ := not_not.mp (Nat.find_min hex hi)
    exact ⟨decide_eq_true hlt, hok⟩
  · by_contra hok
    exact Nat.find_spec hex ⟨of_decide_eq_true ht, by simpa using hok⟩

/-- The try before the last test began in time. -/
theorem until_lt (h0 : 0 ≤ elapsed 0)
    (hstep : ∀ i, ok i = false → elapsed i + step ≤ elapsed (i + 1))
    (h : Until (fun i => decide (elapsed i < deadline)) ok n) {i : Nat}
    (hi : i < n ∨ i = n ∧ elapsed n < deadline) : i * step < deadline := by
  have hle := le_elapsed h0 hstep i fun j hj => (h.before j (by omega)).2
  rcases hi with hi | ⟨rfl, hlt⟩
  · have := of_decide_eq_true (h.before i hi).1
    omega
  · omega

end

end Retry
