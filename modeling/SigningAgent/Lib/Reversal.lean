import Mathlib.Data.List.Basic
import Mathlib.Data.Set.Insert

/-!
# Reversing a list pair by pair

A loop that reverses a list goes over half of it and writes two entries in each round: those of a
position and of its mirror image, crossed over. `Crossed src dst S b` says how far it is: `b` has
the pairs of `S` from the reversed `src`, and the others from `dst`.

* `Crossed.empty` and `Crossed.insert` are the start of the loop and one round of it, whatever the
  order of the rounds. The loop may read from the list it writes to: `Crossed.kept` says what is
  still there.
* **`Crossed.eq_reverse`**: when all pairs are done, the list is reversed, except that the middle
  of a list of odd length, which belongs to no pair, is that of `dst`.
-/

namespace Reversal

/-- The pair of a position: the position or its mirror image, whichever comes first. -/
def pair (n k : Nat) : Nat := min k (n - 1 - k)

/-- The positions of a pair. -/
theorem pair_eq_iff {n i k : Nat} (hi : i < n / 2) (hk : k < n) :
    pair n k = i ↔ k = i ∨ k = n - 1 - i := by
  unfold pair
  omega

variable {α : Type*}

/-- `b` is `dst` with the pairs of `S` replaced by those of the reversed `src`. -/
structure Crossed (src dst : List α) (S : Set Nat) (b : List α) : Prop where
  length : b.length = src.length
  taken : ∀ k, k < src.length → pair src.length k ∈ S → b[k]? = src[src.length - 1 - k]?
  kept : ∀ k, k < src.length → pair src.length k ∉ S → b[k]? = dst[k]?

variable {src dst b : List α} {S : Set Nat} {i : Nat} {x y : α}

theorem Crossed.empty (h : dst.length = src.length) : Crossed src dst ∅ dst where
  length := h
  taken _ _ hk := absurd hk (Set.notMem_empty _)
  kept _ _ _ := rfl

/-- One round: the pair of `i` is written. -/
theorem Crossed.insert (h : Crossed src dst S b) (hi : i < src.length / 2)
    (hx : src[src.length - 1 - i]? = some x) (hy : src[i]? = some y) :
    Crossed src dst (insert i S) ((b.set i x).set (src.length - 1 - i) y) where
  length := by rw [List.length_set, List.length_set, h.length]
  taken k hk hmem := by
    rw [List.getElem?_set, List.getElem?_set, List.length_set, h.length]
    by_cases hopp : src.length - 1 - i = k
    · have hmirror : src.length - 1 - k = i := by omega
      rw [if_pos hopp, if_pos (by omega), hmirror, hy]
    · rw [if_neg hopp]
      by_cases hik : i = k
      · subst hik
        rw [if_pos rfl, if_pos hk, hx]
      · rw [if_neg hik]
        refine h.taken k hk (hmem.resolve_left fun heq => ?_)
        rcases (pair_eq_iff hi hk).mp heq with rfl | rfl
        · exact hik rfl
        · exact hopp rfl
  kept k hk hmem := by
    rw [Set.mem_insert_iff, pair_eq_iff hi hk] at hmem
    rw [List.getElem?_set_ne fun heq => hmem (.inl (.inr heq.symm)),
      List.getElem?_set_ne fun heq => hmem (.inl (.inl heq.symm))]
    exact h.kept k hk fun hS => hmem (.inr hS)

/-- **All pairs are done**: only the middle can be wrong. -/
theorem Crossed.eq_reverse (h : Crossed src dst S b) (hall : ∀ i, i < src.length / 2 → i ∈ S)
    (hmid : src.length % 2 = 1 → b[src.length / 2]? = src[src.length / 2]?) :
    b = src.reverse := by
  refine List.ext_getElem? fun k => ?_
  by_cases hk : k < src.length
  · rw [List.getElem?_reverse hk]
    by_cases hhalf : pair src.length k < src.length / 2
    · exact h.taken k hk (hall _ hhalf)
    · have hodd : src.length % 2 = 1 := by
        unfold pair at hhalf
        omega
      have hkmid : k = src.length / 2 := by
        unfold pair at hhalf
        omega
      have hself : src.length - 1 - k = src.length / 2 := by omega
      rw [hself, hkmid]
      exact hmid hodd
  · rw [List.getElem?_eq_none (by rw [h.length]; omega),
      List.getElem?_eq_none (by rw [List.length_reverse]; omega)]

end Reversal
