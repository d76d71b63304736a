import SigningAgent.Crypto.MerkleSoundness

/-!
# Which lists `Verify` accepts

`Proves root args` is the grammar of proofs: a preimage of the root and the root; or a leaf hash,
one or more pairs of a direction and a sibling hash, and the root, where the siblings lead from the
leaf to the root. `Exact` says of a list that `Verify` does not panic on it, and accepts it just if
it is a proof.

The code is more lenient. It indexes the last entry of an empty list. It reads a list in strides of
two and skips what is no direction, together with the entry after it, and a surplus entry at the
end; and `HashMerkleBranchesB` cuts or pads what it is given to 32 bytes. `Leads` says what is left
of a list that is read so: it ends in the root, and the siblings behind the known directions lead
from the first entry to the root.

* **`verify_exact_iff`**: `Exact` holds of a list if and only if it is not empty, and is well formed
  or does not lead to the root.
* `verify_root_alone`: every root is a proof of itself, in a list of one entry.
-/

namespace SigningAgent.Crypto

open DupTree

variable {sum256 : Bytes → Digest} {root : Bytes}

/-- The proofs for `root`. -/
inductive Proves (sum256 : Bytes → Digest) (root : Bytes) : List Bytes → Prop
  | preimage {x : Bytes} : hashB sum256 x = root → Proves sum256 root [x, root]
  | path {leaf : Bytes} {p : List (Side × Bytes)} : p ≠ [] → leaf.length = hashSize →
      (∀ s ∈ p, s.2.length = hashSize) → climb (hashMerkleBranchesB sum256) leaf p = root →
      Proves sum256 root (leaf :: encode p ++ [root])

/-- The lists with the form of a proof: two entries; or 32 bytes, pairs of a direction and 32
bytes, and a last entry. -/
inductive WellFormed : List Bytes → Prop
  | preimage (x last : Bytes) : WellFormed [x, last]
  | path {leaf : Bytes} {p : List (Side × Bytes)} (last : Bytes) : p ≠ [] →
      leaf.length = hashSize → (∀ s ∈ p, s.2.length = hashSize) →
      WellFormed (leaf :: encode p ++ [last])

/-- The list ends in the root, and the siblings read from it lead from its first entry to the
root. -/
def Leads (sum256 : Bytes → Digest) (root : Bytes) (args : List Bytes) : Prop :=
  args.getLast? = some root ∧
    climb (hashMerkleBranchesB sum256) (args.headD []) (provenPath args) = root

/-- `Verify` does not panic, and accepts the list just if it is a proof. -/
structure Exact (sum256 : Bytes → Digest) (root : Bytes) (args : List Bytes) : Prop where
  noPanic : verify sum256 root args ≠ .error .panic
  accepts : verify sum256 root args = .ok () ↔ Proves sum256 root args

/-- `Verify` panics on the empty list only. -/
theorem verify_ne_panic {args : List Bytes} (h : args ≠ []) :
    verify sum256 root args ≠ .error .panic := by
  cases args with
  | nil => exact absurd rfl h
  | cons x rest =>
    rw [verify_cons]
    split_ifs <;> simp

/-- **Acceptance.** -/
theorem verify_ok_iff {args : List Bytes} (hlen : args.length ≠ 2) (hne : args ≠ []) :
    verify sum256 root args = .ok () ↔ Leads sum256 root args := by
  cases args with
  | nil => exact absurd rfl hne
  | cons x rest =>
    rw [verify_cons, if_neg hlen, Leads, List.getLast?_cons]
    by_cases hlast : root = rest.getLast?.getD x
    · rw [if_neg (not_not.mpr hlast), ← hlast]
      split_ifs with hclimb
      · simp [hclimb]
      · simpa using hclimb
    · rw [if_pos hlast]
      simp [Ne.symm hlast]

/-- The siblings that `Verify` reads from a list of the right form. -/
theorem provenPath_encode (leaf last : Bytes) (p : List (Side × Bytes)) :
    provenPath (leaf :: encode p ++ [last]) = p := by
  have hlen : (leaf :: encode p ++ [last]).length / 2 - 1 = p.length := by
    simp only [List.length_append, List.length_cons, List.length_nil, length_encode]
    omega
  rw [provenPath, hlen]
  exact readPath_encode p [last]

theorem length_encode_ne_two {leaf last : Bytes} {p : List (Side × Bytes)} (hp : p ≠ []) :
    (leaf :: encode p ++ [last]).length ≠ 2 := by
  have := List.length_pos_of_ne_nil hp
  simp only [List.length_append, List.length_cons, List.length_nil, length_encode]
  omega

/-- A proof is well formed, and accepted. -/
theorem Proves.verify_ok {args : List Bytes} (h : Proves sum256 root args) :
    WellFormed args ∧ verify sum256 root args = .ok () := by
  cases h with
  | @preimage x hx =>
    subst hx
    exact ⟨.preimage x _, verify_of_hash x⟩
  | path hp hleaf hsib hclimb =>
    exact ⟨.path root hp hleaf hsib, verify_of_climb hp hclimb⟩

/-- A well-formed list that is accepted is a proof. -/
theorem WellFormed.proves {args : List Bytes} (h : WellFormed args)
    (hok : verify sum256 root args = .ok ()) : Proves sum256 root args := by
  cases h with
  | preimage x last =>
    rw [verify_cons] at hok
    split_ifs at hok with hlast hlen hhash hlen'
    · obtain rfl : root = last := not_not.mp hlast
      exact .preimage hhash
    all_goals exact absurd rfl hlen
  | @path leaf p last hp hleaf hsib =>
    obtain ⟨hlast, hclimb⟩ := (verify_ok_iff (length_encode_ne_two hp) (by simp)).mp hok
    obtain rfl : last = root := by
      rw [List.getLast?_concat] at hlast
      exact Option.some.inj hlast
    rw [provenPath_encode] at hclimb
    exact .path hp hleaf hsib hclimb

/-- **What `Verify` accepts is what the grammar says** of a list, without a panic, if and only if
the list is not empty, and is well formed or does not lead to the root. -/
theorem verify_exact_iff (sum256 : Bytes → Digest) (root : Bytes) (args : List Bytes) :
    Exact sum256 root args ↔ args ≠ [] ∧ (WellFormed args ∨ ¬ Leads sum256 root args) := by
  constructor
  · rintro ⟨hpanic, haccepts⟩
    have hne : args ≠ [] := by
      rintro rfl
      exact hpanic rfl
    refine ⟨hne, ?_⟩
    by_cases hlen : args.length = 2
    · obtain ⟨x, last, rfl⟩ := List.length_eq_two.mp hlen
      exact Or.inl (.preimage x last)
    · by_cases hleads : Leads sum256 root args
      · exact Or.inl (haccepts.mp ((verify_ok_iff hlen hne).mpr hleads)).verify_ok.1
      · exact Or.inr hleads
  · rintro ⟨hne, hcond⟩
    refine ⟨verify_ne_panic hne, fun hok => ?_, fun h => h.verify_ok.2⟩
    by_cases hlen : args.length = 2
    · obtain ⟨x, last, rfl⟩ := List.length_eq_two.mp hlen
      exact (WellFormed.preimage x last).proves hok
    · rcases hcond with hwf | hleads
      · exact hwf.proves hok
      · exact absurd ((verify_ok_iff hlen hne).mp hok) hleads

/-- **No entries.** -/
theorem verify_empty_panics :
    ¬ ∀ (sum256 : Bytes → Digest) (root : Bytes) (args : List Bytes), Exact sum256 root args := by
  intro hall
  exact (hall sampleSum [] []).noPanic rfl

/-- A root alone is accepted, and is no proof. -/
theorem verify_root_alone (root : Bytes) : ¬ Exact sum256 root [root] := by
  rintro ⟨-, haccepts⟩
  have hleads : Leads sum256 root [root] := ⟨rfl, by simp [provenPath, readPath, climb]⟩
  have hproves := haccepts.mp ((verify_ok_iff (by simp) (by simp)).mpr hleads)
  have hlen : ∀ args : List Bytes, WellFormed args → 2 ≤ args.length := by
    rintro _ (_ | _) <;> simp
  exact absurd (hlen _ hproves.verify_ok.1) (by simp)

end SigningAgent.Crypto
