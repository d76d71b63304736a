import Mathlib.Data.List.Basic
import Mathlib.Tactic.TypeStar

/-!
# What the model uses of Go

Byte slices, the two ways a call can end without a result, and indexing with its run-time check.

* `Outcome ε α` is the result of a Go function that returns `(α, error)`: a value, an error of
  type `ε`, or a run-time panic. The panic is kept apart from the error, so that "does not panic"
  and "returns an error" are different statements.
* `utf8 s` is `[]byte(s)`.
* `index` and `setAt` are `xs[i]` and `xs[i] = v`: out of range they panic. The index is an `int`,
  so it may be negative.
* `copyFrom` is `copy(xs[start:], src)`, which panics if the slice expression is out of range.
-/

namespace SigningAgent

/-- A `[]byte`, by its contents. -/
abbrev Bytes := List UInt8

/-- `[]byte(s)`, of a string that is valid UTF-8. -/
def utf8 (s : String) : Bytes := s.toByteArray.data.toList

theorem utf8_inj {s t : String} (h : utf8 s = utf8 t) : s = t := by
  unfold utf8 at h
  exact String.toByteArray_inj.mp (ByteArray.ext (Array.toList_inj.mp h))

/-- The ways a call ends without a result. -/
inductive Fault (ε : Type) where
  | error (e : ε)
  | panic
  deriving DecidableEq, Repr

/-- The result of a Go function that returns `(α, error)`. -/
abbrev Outcome (ε α : Type) := Except (Fault ε) α

instance instDecidableEqExcept {ε α : Type*} [DecidableEq ε] [DecidableEq α] :
    DecidableEq (Except ε α)
  | .ok a, .ok b => decidable_of_iff (a = b) ⟨congrArg _, Except.ok.inj⟩
  | .error a, .error b => decidable_of_iff (a = b) ⟨congrArg _, Except.error.inj⟩
  | .ok _, .error _ => isFalse nofun
  | .error _, .ok _ => isFalse nofun

variable {ε α : Type}

/-- `xs[i]`. -/
def index (xs : List α) : Int → Outcome ε α
  | .ofNat k => match xs[k]? with
    | some x => .ok x
    | none => .error .panic
  | .negSucc _ => .error .panic

/-- `xs[i] = v`, for an index that is never negative. -/
def setAt (xs : List α) (i : Nat) (v : α) : Outcome ε (List α) :=
  if i < xs.length then .ok (xs.set i v) else .error .panic

/-- `copy(xs[start:], src)`: what it makes of `xs`. It copies as much as there is room for. -/
def copyFrom (xs : List α) (start : Int) (src : List α) : Outcome ε (List α) :=
  match start with
  | .ofNat k =>
    if k ≤ xs.length then
      .ok (xs.take k ++ src.take (xs.length - k) ++ xs.drop (k + src.length))
    else .error .panic
  | .negSucc _ => .error .panic

theorem index_ok {xs : List α} {k : Nat} {x : α} (h : xs[k]? = some x) :
    (index xs (k : Int) : Outcome ε α) = .ok x := by
  show (match xs[k]? with | some x => Except.ok x | none => .error Fault.panic) = _
  rw [h]

theorem index_none {xs : List α} {k : Nat} (h : xs[k]? = none) :
    (index xs (k : Int) : Outcome ε α) = .error .panic := by
  show (match xs[k]? with | some x => Except.ok x | none => .error Fault.panic) = _
  rw [h]

theorem setAt_ok {xs : List α} {i : Nat} (h : i < xs.length) (v : α) :
    (setAt xs i v : Outcome ε (List α)) = .ok (xs.set i v) := if_pos h

/-- Into a slice of equal entries: what fits is right-aligned. -/
theorem copyFrom_replicate {n : Nat} {x : α} {src : List α} (h : src.length ≤ n) :
    (copyFrom (List.replicate n x) ((n : Int) - src.length) src : Outcome ε (List α)) =
      .ok (List.replicate (n - src.length) x ++ src) := by
  have hstart : (n : Int) - src.length = ((n - src.length : Nat) : Int) := by omega
  rw [hstart]
  show (if n - src.length ≤ (List.replicate n x).length then _ else _) = _
  rw [List.length_replicate, if_pos (Nat.sub_le _ _), Nat.sub_sub_self h, Nat.sub_add_cancel h,
    List.take_length, List.drop_replicate, Nat.sub_self, List.take_replicate,
    Nat.min_eq_left (Nat.sub_le _ _)]
  simp

end SigningAgent
