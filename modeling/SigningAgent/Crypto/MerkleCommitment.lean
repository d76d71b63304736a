import SigningAgent.Crypto.MerkleSoundness

/-!
# What the root commits to

Two lists of leaves with equal roots. The tree duplicates an odd last node on every level, so the
root commits to the list **completed** by these duplications (`DupTree.complete`), not to the list
itself: `[a, b, c]` and `[a, b, c, c]` have one root (`root_of_duplicate`). And a leaf is hashed
once, a branch twice over 64 bytes, in one domain: a leaf that is itself the SHA-256 sum of 64
bytes hashes to a branch.

* **`root_commits`**: equal roots and equally many levels give equal completed lists, hence equal
  lists if the lengths agree; with different numbers of levels every leaf of the lower tree is the
  SHA-256 sum of a pair of siblings of the other.
-/

namespace SigningAgent.Crypto

open DupTree

variable {sum256 : Bytes → Digest}

/-- Entries of a tree pair have 32 bytes, so a pair is the pair of its blocks. -/
theorem copy32_of_mem_buildPairs {L : List Bytes} {p : Bytes × Bytes}
    (hp : p ∈ buildPairs sum256 L) : copy32 p.1 = p.1 ∧ copy32 p.2 = p.2 := by
  obtain ⟨l, -, hp⟩ := mem_treePairs.mp hp
  obtain ⟨h1, h2⟩ := mem_pairUp hp
  exact ⟨copy32_of_length (length_of_mem_level h1), copy32_of_length (length_of_mem_level h2)⟩

/-- The pairs of two trees with no collision only collide when equal. -/
theorem buildPairs_inj {L1 L2 : List Bytes}
    (hnc : NoCollision sum256 (buildInputs sum256 L1 ++ buildInputs sum256 L2)) :
    ∀ p ∈ buildPairs sum256 L1, ∀ q ∈ buildPairs sum256 L2,
      hashMerkleBranchesB sum256 p.1 p.2 = hashMerkleBranchesB sum256 q.1 q.2 → p = q := by
  intro p hp q hq h
  have hbind : Binding (hashMerkleBranchesB sum256) copy32 (buildPairs sum256 L1)
      (buildPairs sum256 L2) :=
    branch_binding hnc
      (fun b hb => List.mem_append_left _ (List.mem_append_right _ hb))
      (fun b hb => List.mem_append_right _ (List.mem_append_right _ hb))
  obtain ⟨h1, h2⟩ := hbind p hp q hq h
  obtain ⟨hp1, hp2⟩ := copy32_of_mem_buildPairs hp
  obtain ⟨hq1, hq2⟩ := copy32_of_mem_buildPairs hq
  rw [hp1, hq1] at h1
  rw [hp2, hq2] at h2
  exact Prod.ext h1 h2

/-- Equal roots of two trees with equally many levels: equal completed lists. -/
theorem complete_eq_of_root_eq {L1 L2 : List Bytes}
    (hnc : NoCollision sum256 (buildInputs sum256 L1 ++ buildInputs sum256 L2))
    (hh : height L1.length = height L2.length)
    (hroot : level (hashMerkleBranchesB sum256) (L1.map (hashB sum256)) (height L1.length) =
      level (hashMerkleBranchesB sum256) (L2.map (hashB sum256)) (height L2.length)) :
    complete (height L1.length) L1 = complete (height L1.length) L2 := by
  rw [← hh] at hroot
  have hinj := buildPairs_inj hnc
  unfold buildPairs at hinj
  rw [← hh] at hinj
  have hc := complete_eq_of_level_eq (height L1.length) hinj hroot
  rw [complete_map, complete_map] at hc
  refine map_inj_on (fun a ha b hb he => ?_) hc
  exact hnc.hashB_inj sum256
    (List.mem_append_left _ (List.mem_append_left _ ((mem_complete _).mp ha)))
    (List.mem_append_right _ (List.mem_append_left _ ((mem_complete _).mp hb))) he

/-- Equal roots of a lower and a higher tree: every leaf of the lower one is a SHA-256 sum of a
pair of siblings of the higher one. -/
theorem leaf_eq_inner_sum {L1 L2 : List Bytes}
    (hnc : NoCollision sum256 (buildInputs sum256 L1 ++ buildInputs sum256 L2))
    (hh : height L1.length < height L2.length)
    (hroot : level (hashMerkleBranchesB sum256) (L1.map (hashB sum256)) (height L1.length) =
      level (hashMerkleBranchesB sum256) (L2.map (hashB sum256)) (height L2.length)) :
    ∀ x ∈ L1, ∃ p ∈ buildPairs sum256 L2, x = hashB sum256 (copy32 p.1 ++ copy32 p.2) := by
  obtain ⟨m, hm⟩ : ∃ m, height L2.length = (m + 1) + height L1.length :=
    ⟨height L2.length - height L1.length - 1, by omega⟩
  set f := hashMerkleBranchesB sum256 with hf
  set ys := level f (L2.map (hashB sum256)) (m + 1) with hys
  rw [hm, ← level_add] at hroot
  -- the level of the higher tree that faces the leaves of the lower one
  have hinj : ∀ p ∈ treePairs f (L1.map (hashB sum256)) (height L1.length),
      ∀ q ∈ treePairs f ys (height L1.length), f p.1 p.2 = f q.1 q.2 → p = q := by
    intro p hp q hq
    obtain ⟨l, hl, hq⟩ := mem_treePairs.mp hq
    rw [hys, level_add] at hq
    exact buildPairs_inj hnc p hp q (mem_treePairs.mpr ⟨m + 1 + l, by omega, hq⟩)
  have hc := complete_eq_of_level_eq (height L1.length) hinj hroot
  intro x hx
  have hmem : hashB sum256 x ∈ ys := by
    rw [← mem_complete (height L1.length), ← hc, mem_complete]
    exact List.mem_map_of_mem hx
  obtain ⟨p, hp, hpx⟩ := mem_level_succ.mp hmem
  have hpt : p ∈ buildPairs sum256 L2 := mem_treePairs.mpr ⟨m, by omega, hp⟩
  refine ⟨p, hpt, hnc.hashB_inj sum256 ?_ ?_ hpx.symm⟩
  · exact List.mem_append_left _ (List.mem_append_left _ hx)
  · exact List.mem_append_right _ (List.mem_append_right _
      (List.mem_flatMap.mpr ⟨p, hpt, by simp [branchInputs]⟩))

/-- The same assumption with the two lists exchanged. -/
theorem NoCollision.swap {xs ys : List Bytes} (h : NoCollision sum256 (xs ++ ys)) :
    NoCollision sum256 (ys ++ xs) := fun a ha b hb =>
  h a (by rw [List.mem_append] at ha ⊢; exact ha.symm) b
    (by rw [List.mem_append] at hb ⊢; exact hb.symm)

/-- **What the root commits to.** Let the arrays over two non-empty lists end in equal roots, with
no SHA-256 collision among the strings hashed for them. With equally many levels the completed
lists are equal, and the lists themselves if they have one length. Otherwise every leaf of the
tree with fewer levels is the SHA-256 sum of a pair of siblings of the other tree. -/
theorem root_commits {L1 L2 : List Bytes} (hL1 : L1 ≠ []) (hL2 : L2 ≠ []) {t1 t2 : List Ptr}
    {r1 r2 : Ref} (hbuild1 : buildMerkleTreeStore sum256 (L1.map some) = .ok t1)
    (hbuild2 : buildMerkleTreeStore sum256 (L2.map some) = .ok t2)
    (hlast1 : t1.getLast? = some (some r1)) (hlast2 : t2.getLast? = some (some r2))
    (hroot : r1.val = r2.val)
    (hnc : NoCollision sum256 (buildInputs sum256 L1 ++ buildInputs sum256 L2)) :
    (height L1.length = height L2.length →
      complete (height L1.length) L1 = complete (height L1.length) L2) ∧
    (L1.length = L2.length → L1 = L2) ∧
    (height L1.length < height L2.length →
      ∀ x ∈ L1, ∃ p ∈ buildPairs sum256 L2, x = hashB sum256 (copy32 p.1 ++ copy32 p.2)) ∧
    (height L2.length < height L1.length →
      ∀ x ∈ L2, ∃ p ∈ buildPairs sum256 L1, x = hashB sum256 (copy32 p.1 ++ copy32 p.2)) := by
  have hlevel : level (hashMerkleBranchesB sum256) (L1.map (hashB sum256)) (height L1.length) =
      level (hashMerkleBranchesB sum256) (L2.map (hashB sum256)) (height L2.length) := by
    rw [build_root hL1 hbuild1 hlast1, build_root hL2 hbuild2 hlast2, hroot]
  refine ⟨fun hh => complete_eq_of_root_eq hnc hh hlevel, fun hlen => ?_,
    fun hh => leaf_eq_inner_sum hnc hh hlevel, fun hh => leaf_eq_inner_sum hnc.swap hh hlevel.symm⟩
  exact complete_inj _ hlen (complete_eq_of_root_eq hnc (by rw [hlen]) hlevel)

/-- `root_commits` at the leaves `[1], [2], [3]` and `[1], [2], [3], [3]`. -/
theorem root_commits_sample :
    complete (height 3) ([[1], [2], [3]] : List Bytes) =
      complete (height 3) [[1], [2], [3], [3]] :=
  (@root_commits sampleSum [[1], [2], [3]] [[1], [2], [3], [3]]
    (by decide) (by decide) (sampleTree [[1], [2], [3]]) (sampleTree [[1], [2], [3], [3]])
    (sampleRoot [[1], [2], [3]]) (sampleRoot [[1], [2], [3], [3]])
    (by decide +kernel) (by decide +kernel) (by decide +kernel) (by decide +kernel)
    (by decide +kernel) (by unfold NoCollision; decide +kernel)).1 (by decide +kernel)

/-- **A duplicated last leaf does not change the root.** `[a, b, c]` and `[a, b, c, c]` have one
root, with no collision among the strings hashed for the two trees. -/
theorem root_of_duplicate :
    buildMerkleTreeStore sampleSum [some [1], some [2], some [3]] =
        .ok (sampleTree [[1], [2], [3]]) ∧
      buildMerkleTreeStore sampleSum [some [1], some [2], some [3], some [3]] =
        .ok (sampleTree [[1], [2], [3], [3]]) ∧
      (sampleTree [[1], [2], [3]]).getLast? = some (some (sampleRoot [[1], [2], [3]])) ∧
      (sampleTree [[1], [2], [3], [3]]).getLast? =
        some (some (sampleRoot [[1], [2], [3], [3]])) ∧
      (sampleRoot [[1], [2], [3]]).val = (sampleRoot [[1], [2], [3], [3]]).val ∧
      NoCollision sampleSum (buildInputs sampleSum [[1], [2], [3]] ++
        buildInputs sampleSum [[1], [2], [3], [3]]) ∧
      ([[1], [2], [3]] : List Bytes) ≠ [[1], [2], [3], [3]] := by
  refine ⟨by decide +kernel, by decide +kernel, by decide +kernel, by decide +kernel,
    by decide +kernel, by unfold NoCollision; decide +kernel, by decide⟩

end SigningAgent.Crypto
