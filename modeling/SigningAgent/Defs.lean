import Mathlib.Algebra.Group.Nat.Defs
import Mathlib.Algebra.Ring.Int.Defs
import SigningAgent.Go

/-!
# Actions and durations (`internal/defs`)

`ActionInfo` is what the feed says about an action. Times are Unix seconds, durations nanoseconds in
an `int64`.
-/

namespace SigningAgent

/-- `StatusPending`. -/
def statusPending : Int := 1

/-- `ActionInfo`. -/
structure ActionInfo where
  id : String
  status : Int
  messages : List Bytes
  expireTime : Int
  deriving DecidableEq, Repr

/-- `IsExpired`, at the time `now`. -/
def ActionInfo.isExpired (now : Int) (a : ActionInfo) : Bool := decide (a.expireTime ≤ now)

/-- `time.Duration(n) * time.Second`, which wraps. -/
def seconds (n : Int) : Int := (n * 1000000000).bmod (2 ^ 64)

/-- `n` seconds fit into a `time.Duration`. -/
def FitsDuration (n : Int) : Prop := -2 ^ 63 ≤ n * 1000000000 ∧ n * 1000000000 < 2 ^ 63

instance (n : Int) : Decidable (FitsDuration n) := inferInstanceAs (Decidable (_ ∧ _))

/-- Without overflow a duration is what it says. -/
theorem seconds_eq {n : Int} (h : FitsDuration n) : seconds n = n * 1000000000 := by
  obtain ⟨hlo, hhi⟩ := h
  unfold seconds
  rw [Int.bmod_eq_of_le] <;> omega

end SigningAgent
