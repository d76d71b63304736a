import SigningAgent.Crypto.MerkleSoundness

/-!
# For which positions `GenerateProofFromTree` yields a proof

The function takes a pointer and a position in the tree's array, and the array holds more than the
leaves: inner nodes, the root, and nil in the slots that no node fills. `LeavesOnly` says what the
comment above the function promises: it does not panic, and yields a proof just for the pointer
that is stored at a position among the leaves.

The only test compares the pointer with the entry at the position. The entry is read before any
bound is looked at, and a slot that is no leaf passes the test like any other (nil is equal to nil).
After the test no statement returns an error.

* `generateProof_no_error`: a pointer that passes the test gets a proof or a panic.
* `generateProof_leaf`: at a leaf it gets a proof.
* **`leavesOnly_iff`**: `LeavesOnly` holds of a pointer and a position if and only if the position
  is one of the array's, and it is a leaf's or holds another pointer.
-/

namespace SigningAgent.Crypto

open DupTree

variable {sum256 : Bytes → Digest}

/-- The function does not panic at `pos`, and yields a proof just if `pos` is one of the `n` leaves
and `asset` the pointer stored there. -/
structure LeavesOnly (n : Nat) (asset : Ptr) (pos : Int) (tree : List Ptr) : Prop where
  noPanic : generateProofFromTree asset pos tree ≠ .error .panic
  proves : (∃ proof, generateProofFromTree asset pos tree = .ok proof) ↔
    ∃ k < n, pos = (k : Nat) ∧ ∃ leaf, tree[k]? = some leaf ∧ samePtr asset leaf = true

/-! ## Statements that return no error -/

section
variable {ε α β : Type}

/-- A result that is a value or a panic. -/
def NoError (x : Outcome ε α) : Prop := ∀ e, x ≠ .error (.error e)

theorem NoError.ok (a : α) : NoError (.ok a : Outcome ε α) := by
  intro e h
  cases h

theorem NoError.panic : NoError (.error .panic : Outcome ε α) := by
  intro e h
  cases h

theorem NoError.index (xs : List α) (i : Int) : NoError (index xs i : Outcome ε α) := by
  cases i with
  | negSucc k => exact NoError.panic
  | ofNat k =>
    cases hk : xs[k]? with
    | some x =>
      rw [show (SigningAgent.index xs (Int.ofNat k) : Outcome ε α) = .ok x from index_ok hk]
      exact NoError.ok x
    | none =>
      rw [show (SigningAgent.index xs (Int.ofNat k) : Outcome ε α) = .error .panic from
        index_none hk]
      exact NoError.panic

theorem NoError.bind {x : Outcome ε α} {f : α → Outcome ε β} (hx : NoError x)
    (hf : ∀ a, NoError (f a)) : NoError (x >>= f) := by
  intro e
  cases x with
  | ok a => exact hf a e
  | error fault =>
    cases fault with
    | error e' => exact absurd rfl (hx e')
    | panic => exact NoError.panic e

/-- An index outside the slice panics. -/
theorem index_panic {xs : List α} {i : Int} (h : ¬ ∃ k < xs.length, i = (k : Nat)) :
    (index xs i : Outcome ε α) = .error .panic := by
  cases i with
  | negSucc k => rfl
  | ofNat k =>
    exact index_none (List.getElem?_eq_none (Nat.not_lt.mp fun hlt => h ⟨k, hlt, rfl⟩))

end

theorem NoError.proofRound (tree : List Ptr) (c pos : Int) (proof : List Ptr) :
    NoError (proofRound tree c pos proof) := by
  unfold Crypto.proofRound
  split_ifs
  · refine (NoError.index tree _).bind fun next => ?_
    cases next with
    | none => exact (NoError.index tree _).bind fun _ => .ok _
    | some next => exact .ok _
  · exact (NoError.index tree _).bind fun _ => .ok _
  · exact .ok _

theorem NoError.proofLoop (tree : List Ptr) (rounds : Nat) (c pos leafLength : Int)
    (proof : List Ptr) : NoError (proofLoop tree rounds c pos leafLength proof) := by
  induction rounds generalizing c pos leafLength proof with
  | zero => exact .ok _
  | succ rounds ih => exact (NoError.proofRound tree c pos proof).bind fun _ => ih _ _ _ _

/-! ## The test of the pointer -/

/-- The test, at an entry of the array. -/
theorem generateProof_eq {asset leaf : Ptr} {k : Nat} {tree : List Ptr} (htwo : 2 ≤ tree.length)
    (hleaf : tree[k]? = some leaf) :
    generateProofFromTree asset k tree =
      if samePtr asset leaf = true then generateProofFromTree leaf k tree
      else .error (.error .mismatch) := by
  unfold generateProofFromTree
  rw [if_neg (Nat.not_lt.mpr htwo), if_neg (Nat.not_lt.mpr htwo), index_ok hleaf]
  show (if !samePtr asset leaf then _ else _) =
    if samePtr asset leaf = true then (if !samePtr leaf leaf then _ else _) else _
  rw [samePtr_self]
  cases samePtr asset leaf <;> rfl

theorem generateProof_panic {asset : Ptr} {pos : Int} {tree : List Ptr} (htwo : 2 ≤ tree.length)
    (hpos : ¬ ∃ k < tree.length, pos = (k : Nat)) :
    generateProofFromTree asset pos tree = .error .panic := by
  unfold generateProofFromTree
  rw [if_neg (Nat.not_lt.mpr htwo), index_panic hpos]
  rfl

/-- What passes the test gets a proof or a panic. -/
theorem generateProof_no_error {leaf : Ptr} {k : Nat} {tree : List Ptr} (htwo : 2 ≤ tree.length)
    (hleaf : tree[k]? = some leaf) : NoError (generateProofFromTree leaf k tree) := by
  unfold generateProofFromTree
  rw [if_neg (Nat.not_lt.mpr htwo), index_ok hleaf]
  show NoError (if !samePtr leaf leaf then _ else _)
  rw [samePtr_self]
  simp only [Bool.not_true, Bool.false_eq_true, if_false]
  split_ifs
  · exact (NoError.index tree 0).bind fun _ => (NoError.index tree 1).bind fun _ => .ok _
  · exact (NoError.proofLoop tree _ _ _ _ _).bind fun _ =>
      (NoError.index tree _).bind fun _ => .ok _

/-! ## Built trees -/

/-- A built tree has an entry for every leaf and one more. -/
theorem lt_length_build {L : List Bytes} {t : List Ptr} (hne : L ≠ [])
    (hbuild : buildMerkleTreeStore sum256 (L.map some) = .ok t) : L.length < t.length := by
  by_cases hone : L.length = 1
  · obtain ⟨x, rfl⟩ := List.length_eq_one_iff.mp hone
    obtain rfl := Except.ok.inj hbuild
    exact Nat.lt_succ_self 1
  · have htwo : 2 ≤ L.length := by
      have := List.length_pos_of_ne_nil hne
      omega
    have hwidth := le_two_pow_height L.length
    have hlen := (layout_of_build htwo hbuild).length
    rw [pow_succ] at hlen
    omega

/-- At a leaf there is a proof. -/
theorem generateProof_leaf {L : List Bytes} {t : List Ptr}
    (hbuild : buildMerkleTreeStore sum256 (L.map some) = .ok t) {k : Nat} (hk : k < L.length)
    {leaf : Ptr} (hleaf : t[k]? = some leaf) :
    ∃ proof, generateProofFromTree leaf k t = .ok proof := by
  obtain ⟨leaf', root, proof, args, hleaf', -, hproof, -⟩ := prove_built hbuild hk
  obtain rfl : leaf = leaf' := Option.some.inj (hleaf.symm.trans hleaf')
  exact ⟨proof, hproof⟩

/-- Another pointer than the one stored at the position gets an error. -/
theorem leavesOnly_of_mismatch {asset entry : Ptr} {k : Nat} {tree : List Ptr} (n : Nat)
    (htwo : 2 ≤ tree.length) (hentry : tree[k]? = some entry)
    (hsame : samePtr asset entry = false) : LeavesOnly n asset k tree := by
  have hgen : generateProofFromTree asset k tree = .error (.error .mismatch) := by
    rw [generateProof_eq htwo hentry, hsame, if_neg Bool.false_ne_true]
  refine ⟨by rw [hgen]; nofun, ?_, ?_⟩
  · rintro ⟨proof, hproof⟩
    rw [hgen] at hproof
    cases hproof
  · rintro ⟨j, -, hj, leaf, hleaf, hsame'⟩
    obtain rfl : k = j := Int.ofNat_inj.mp hj
    obtain rfl : entry = leaf := Option.some.inj (hentry.symm.trans hleaf)
    rw [hsame] at hsame'
    cases hsame'

/-- The pointer of a leaf gets a proof. -/
theorem leavesOnly_of_leaf {L : List Bytes} {t : List Ptr} (htwo : 2 ≤ t.length)
    (hbuild : buildMerkleTreeStore sum256 (L.map some) = .ok t) {asset entry : Ptr} {k : Nat}
    (hk : k < L.length) (hentry : t[k]? = some entry) (hsame : samePtr asset entry = true) :
    LeavesOnly L.length asset k t := by
  obtain ⟨proof, hproof⟩ := generateProof_leaf hbuild hk hentry
  have hgen : generateProofFromTree asset k t = .ok proof := by
    rw [generateProof_eq htwo hentry, if_pos hsame, hproof]
  exact ⟨by rw [hgen]; nofun, fun _ => ⟨k, hk, rfl, entry, hentry, hsame⟩, fun _ => ⟨proof, hgen⟩⟩

/-- A pointer that passes the test gets a proof if it gets no panic, so the position has to be a
leaf's. -/
theorem LeavesOnly.lt {asset entry : Ptr} {k n : Nat} {tree : List Ptr}
    (h : LeavesOnly n asset k tree) (htwo : 2 ≤ tree.length) (hentry : tree[k]? = some entry)
    (hsame : samePtr asset entry = true) : k < n := by
  have hgen : generateProofFromTree asset k tree = generateProofFromTree entry k tree := by
    rw [generateProof_eq htwo hentry, if_pos hsame]
  cases hres : generateProofFromTree entry k tree with
  | ok proof =>
    obtain ⟨j, hj, hjk, -⟩ := h.proves.mp ⟨proof, hgen.trans hres⟩
    rwa [Int.ofNat_inj.mp hjk]
  | error fault =>
    cases fault with
    | error e => exact absurd hres (generateProof_no_error htwo hentry e)
    | panic => exact absurd (hgen.trans hres) h.noPanic

/-- **The function yields proofs for leaves only**, without a panic, if and only if the position is
one of the array's, and it is a leaf's or holds another pointer. -/
theorem leavesOnly_iff {L : List Bytes} {t : List Ptr} (hne : L ≠ [])
    (hbuild : buildMerkleTreeStore sum256 (L.map some) = .ok t) (asset : Ptr) (pos : Int) :
    LeavesOnly L.length asset pos t ↔ ∃ k : Nat, pos = k ∧ ∃ entry, t[k]? = some entry ∧
      (k < L.length ∨ samePtr asset entry = false) := by
  have hlt := lt_length_build hne hbuild
  have hpos := List.length_pos_of_ne_nil hne
  have htwo : 2 ≤ t.length := by omega
  constructor
  · intro h
    by_cases hin : ∃ k < t.length, pos = (k : Nat)
    · obtain ⟨k, hk, rfl⟩ := hin
      obtain ⟨entry, hentry⟩ : ∃ entry, t[k]? = some entry := ⟨_, List.getElem?_eq_getElem hk⟩
      refine ⟨k, rfl, entry, hentry, ?_⟩
      cases hsame : samePtr asset entry with
      | false => exact Or.inr rfl
      | true => exact Or.inl (h.lt htwo hentry hsame)
    · exact absurd (generateProof_panic htwo hin) h.noPanic
  · rintro ⟨k, rfl, entry, hentry, hor⟩
    cases hsame : samePtr asset entry with
    | false => exact leavesOnly_of_mismatch L.length htwo hentry hsame
    | true =>
      refine leavesOnly_of_leaf htwo hbuild (hor.resolve_right fun h => ?_) hentry hsame
      rw [hsame] at h
      cases h

/-- A foreign pointer at the second of three leaves. -/
theorem leavesOnly_sample : LeavesOnly 3 none 1 (sampleTree [[1], [2], [3]]) :=
  (@leavesOnly_iff sampleSum [[1], [2], [3]] (sampleTree [[1], [2], [3]]) (by decide)
    (by decide +kernel) none 1).mpr
    ⟨1, rfl, some ⟨1, hashB sampleSum [2]⟩, by decide +kernel, Or.inl (by decide)⟩

/-- **A slot without a node.** The tree over three leaves holds nil at position 3, and the nil
pointer gets a proof there. -/
theorem padding_has_proof :
    ¬ ∀ (sum256 : Bytes → Digest) (L : List Bytes) (t : List Ptr), L ≠ [] →
      buildMerkleTreeStore sum256 (L.map some) = .ok t →
      ∀ (asset : Ptr) (pos : Int), LeavesOnly L.length asset pos t := by
  intro hall
  have hbuild : buildMerkleTreeStore sampleSum ([[1], [2], [3]].map some) =
      .ok (sampleTree [[1], [2], [3]]) := by decide +kernel
  have hleaves := hall sampleSum _ _ (by decide) hbuild none 3
  have hproof : ∃ proof, generateProofFromTree none 3 (sampleTree [[1], [2], [3]]) = .ok proof :=
    ⟨(generateProofFromTree none 3 (sampleTree [[1], [2], [3]])).toOption.getD [],
      by decide +kernel⟩
  obtain ⟨k, hk, hpos, -⟩ := hleaves.proves.mp hproof
  have hlt : k < 3 := hk
  omega

end SigningAgent.Crypto
