import SigningAgent.Crypto.MerkleGrammar

/-!
# A proof of full depth binds its position

The verifier is given no index; it reads one from the directions (`start`). If a list of the length
of a proof from the leaves (`FullDepth`) is accepted, and the tree has a leaf at that index, then
the list is what the prover makes of that leaf (`position_bound`), entry by entry. The bound on the
index is needed: where the last node of a level is paired with itself, the path to its right copy
is accepted as well, and leads to an index that the tree does not have.
-/

namespace SigningAgent.Crypto

open DupTree

variable {sum256 : Bytes → Digest}

/-- A list that goes from a leaf up `h` levels: `h + 1` hashes of 32 bytes at the even entries,
`h` directions at the odd ones, and a last entry. -/
structure FullDepth (h : Nat) (args : List Bytes) : Prop where
  length : args.length = 2 * h + 2
  hashes : ∀ k ≤ h, ∀ b, args[2 * k]? = some b → b.length = hashSize
  directions : ∀ k < h, args[2 * k + 1]? = some leftByte ∨ args[2 * k + 1]? = some rightByte

/-- Pairs of a direction and an entry, and one entry more. -/
theorem eq_encode_of_directions : ∀ (h : Nat) {rest : List Bytes}, rest.length = 2 * h + 1 →
    (∀ k < h, rest[2 * k]? = some leftByte ∨ rest[2 * k]? = some rightByte) →
    ∃ (p : List (Side × Bytes)) (last : Bytes), p.length = h ∧ rest = encode p ++ [last]
  | 0, rest, hlen, _ => by
    obtain ⟨last, rfl⟩ := List.length_eq_one_iff.mp hlen
    exact ⟨[], last, rfl, rfl⟩
  | h + 1, [], hlen, _ => by simp at hlen
  | h + 1, [_], hlen, _ => by simp at hlen
  | h + 1, d :: s :: rest, hlen, hdir => by
    obtain ⟨p, last, hp, rfl⟩ := @eq_encode_of_directions h rest
      (by simp only [List.length_cons] at hlen; omega) fun k hk => by
        have := hdir (k + 1) (Nat.succ_lt_succ hk)
        rwa [Nat.mul_succ, List.getElem?_cons_succ, List.getElem?_cons_succ] at this
    rcases hdir 0 (Nat.succ_pos h) with hd | hd
    · obtain rfl : d = leftByte := Option.some.inj hd
      exact ⟨(.left, s) :: p, last, by rw [List.length_cons, hp], rfl⟩
    · obtain rfl : d = rightByte := Option.some.inj hd
      exact ⟨(.right, s) :: p, last, by rw [List.length_cons, hp], rfl⟩

/-- The entries of an encoded path. -/
theorem getElem?_encode : ∀ (p : List (Side × Bytes)) (rest : List Bytes) {k : Nat},
    k < p.length → (encode p ++ rest)[2 * k]? = (p[k]?).map (fun s => dirByte s.1) ∧
      (encode p ++ rest)[2 * k + 1]? = (p[k]?).map Prod.snd
  | s :: p, rest, 0, _ => ⟨rfl, rfl⟩
  | s :: p, rest, k + 1, hk => by
    obtain ⟨hdir, hsib⟩ := getElem?_encode p rest (Nat.lt_of_succ_lt_succ hk)
    have hcons : encode (s :: p) ++ rest = dirByte s.1 :: s.2 :: (encode p ++ rest) := rfl
    rw [hcons, Nat.mul_succ, List.getElem?_cons_succ, List.getElem?_cons_succ,
      List.getElem?_cons_succ, List.getElem?_cons_succ, List.getElem?_cons_succ]
    exact ⟨hdir, hsib⟩

/-- A list of full depth is an encoded path, whose siblings have 32 bytes and whose index the
directions spell. -/
theorem FullDepth.eq_encode {h : Nat} {args : List Bytes} (hfull : FullDepth h args) :
    ∃ (x : Bytes) (p : List (Side × Bytes)) (last : Bytes), args = x :: encode p ++ [last] ∧
      p.length = h ∧ x.length = hashSize ∧ (∀ s ∈ p, s.2.length = hashSize) ∧
      ∀ k < h, (start p).testBit k = true ↔ args[2 * k + 1]? = some leftByte := by
  cases args with
  | nil =>
    have := hfull.length
    simp at this
  | cons x rest =>
    have hlen : rest.length = 2 * h + 1 := by
      have := hfull.length
      rw [List.length_cons] at this
      omega
    obtain ⟨p, last, hp, rfl⟩ := eq_encode_of_directions h hlen hfull.directions
    refine ⟨x, p, last, rfl, hp, hfull.hashes 0 (Nat.zero_le h) x rfl, fun s hs => ?_,
      fun k hk => ?_⟩
    · obtain ⟨k, hk⟩ := List.mem_iff_getElem?.mp hs
      have hlt : k < p.length := (List.getElem?_eq_some_iff.mp hk).1
      have hsib := (getElem?_encode p [last] hlt).2
      rw [hk] at hsib
      refine hfull.hashes (k + 1) (by omega) s.2 ?_
      rw [Nat.mul_succ, List.getElem?_cons_succ]
      exact hsib
    · have hdir := (getElem?_encode p [last] (hp ▸ hk)).1
      rw [List.getElem?_cons_succ, hdir, testBit_start]
      cases hs : p[k]? with
      | none => simp
      | some s =>
        obtain ⟨d, t⟩ := s
        cases d with
        | left => simp [dirByte]
        | right => simp [dirByte, leftByte, rightByte]

/-- An index below the number of leaves is the one that the directions spell, if its bits are. -/
theorem start_eq {p : List (Side × Bytes)} {i : Nat} (hi : i < 2 ^ p.length)
    (hbit : ∀ k < p.length, (start p).testBit k = i.testBit k) : start p = i := by
  refine Nat.eq_of_testBit_eq fun k => ?_
  by_cases hk : k < p.length
  · exact hbit k hk
  · have hpow : 2 ^ p.length ≤ 2 ^ k := Nat.pow_le_pow_right (by decide) (Nat.not_lt.mp hk)
    rw [Nat.testBit_lt_two_pow ((start_lt p).trans_le hpow),
      Nat.testBit_lt_two_pow (hi.trans_le hpow)]

/-- Hashes are copied whole. -/
theorem map_copy32 {p : List (Side × Bytes)} (h : ∀ s ∈ p, s.2.length = hashSize) :
    p.map (Prod.map id copy32) = p := by
  refine (List.map_congr_left fun s hs => ?_).trans (List.map_id p)
  exact Prod.ext rfl (copy32_of_length (h s hs))

/-- **A full-depth proof binds its position.** Let `Verify` accept a list of full depth for the root
of the tree over two or more leaves, with no SHA-256 collision among the strings involved. If the
index `i` that its directions spell is that of a leaf, then the list starts with the hash of leaf
`i`, and it is, entry by entry, the copied proof that the prover makes for the pointer at
position `i`. -/
theorem position_bound {L args : List Bytes} {t : List Ptr} {root : Ref} {i : Nat}
    (hL : 2 ≤ L.length) (hbuild : buildMerkleTreeStore sum256 (L.map some) = .ok t)
    (hroot : t.getLast? = some (some root)) (hver : verify sum256 root.val args = .ok ())
    (hfull : FullDepth (height L.length) args) (hi : i < L.length)
    (hbit : ∀ k < height L.length, i.testBit k = true ↔ args[2 * k + 1]? = some leftByte)
    (hnc : NoCollision sum256 (buildInputs sum256 L ++ verifyInputs sum256 args)) :
    args[0]? = some (hashB sum256 L[i]) ∧
      ∃ leaf proof, t[i]? = some leaf ∧ generateProofFromTree leaf i t = .ok proof ∧
        copyProof proof = .ok args := by
  have hne : L ≠ [] := by
    rintro rfl
    simp at hL
  have hheight := height_pos hL
  have hwidth := le_two_pow_height L.length
  obtain ⟨x, p, last, rfl, hp, hx, hsib, hdirs⟩ := hfull.eq_encode
  have hpne : p ≠ [] := by
    rintro rfl
    rw [List.length_nil] at hp
    omega
  -- the list climbs to the root
  obtain ⟨hlast, hclimb⟩ := (verify_ok_iff (length_encode_ne_two hpne) (by simp)).mp hver
  obtain rfl : last = root.val := by
    rw [List.getLast?_concat] at hlast
    exact Option.some.inj hlast
  rw [provenPath_encode] at hclimb
  -- from the index that its directions spell
  have hstart : start p = i := by
    refine start_eq (by rw [hp]; omega) fun k hk => ?_
    rw [hp] at hk
    exact Bool.eq_iff_iff.mpr ((hdirs k hk).trans (hbit k hk).symm)
  have hlevel := build_root hne hbuild hroot
  have hbind : Binding (hashMerkleBranchesB sum256) copy32
      (climbPairs (hashMerkleBranchesB sum256) x p)
      (treePairs (hashMerkleBranchesB sum256) (L.map (hashB sum256)) (height L.length)) := by
    refine branch_binding hnc (fun b hb => List.mem_append_right _ ?_)
      (fun b hb => List.mem_append_left _ (List.mem_append_right _ hb))
    rw [verifyInputs, if_neg (length_encode_ne_two hpne), provenPath_encode]
    exact hb
  obtain ⟨z, hz, hxz, hpath⟩ := climb_binds (j := i) (k := 0) (y := root.val) copy32_branch p
    (by omega) hbind (by rw [hp, hlevel]; rfl) (congrArg copy32 hclimb)
    (by rw [Nat.zero_mul, Nat.zero_add, hstart]) (by rw [List.length_map]; exact hi)
  -- all nodes have 32 bytes, so nothing was cut or padded
  have hzmem : z ∈ level (hashMerkleBranchesB sum256) (L.map (hashB sum256)) 0 :=
    List.mem_of_getElem? hz
  rw [copy32_of_length hx, copy32_of_length (length_of_mem_level hzmem)] at hxz
  subst hxz
  rw [map_copy32 hsib, map_copy32 fun s hs => by
    obtain ⟨m, -, hm⟩ := mem_path hz hs
    exact length_of_mem_level hm, hp] at hpath
  have ht := layout_of_build hL hbuild
  have hle := length_leaves_le sum256 L
  obtain ⟨refs, root', hproof, hlast', -, hrefs⟩ := generateProof_path ht hheight hle hz
  obtain rfl : root = root' := Option.some.inj (Option.some.inj (hroot.symm.trans hlast'))
  refine ⟨?_, some ⟨i, x⟩, _, ht.leaf hle hz, hproof, ?_⟩
  · rw [List.getElem?_map, List.getElem?_eq_getElem hi] at hz
    exact hz.symm
  · rw [copyProof_some, List.map_append, hrefs, ← hpath]
    rfl

/-- The second of three leaves, from an accepted list of two levels. -/
theorem position_bound_sample :
    ∃ proof, generateProofFromTree (some ⟨1, hashB sampleSum [2]⟩) 1
        (sampleTree [[1], [2], [3]]) = .ok proof ∧
      copyProof proof = .ok [hashB sampleSum [2], leftByte, hashB sampleSum [1], rightByte,
        hashMerkleBranchesB sampleSum (hashB sampleSum [3]) (hashB sampleSum [3]),
        (sampleRoot [[1], [2], [3]]).val] := by
  obtain ⟨-, leaf, proof, hleaf, hproof, hcopy⟩ := @position_bound sampleSum [[1], [2], [3]]
    [hashB sampleSum [2], leftByte, hashB sampleSum [1], rightByte,
      hashMerkleBranchesB sampleSum (hashB sampleSum [3]) (hashB sampleSum [3]),
      (sampleRoot [[1], [2], [3]]).val]
    (sampleTree [[1], [2], [3]]) (sampleRoot [[1], [2], [3]]) 1 (by decide) (by decide +kernel)
    (by decide +kernel) (by decide +kernel)
    ⟨by decide +kernel, by decide +kernel, by decide +kernel⟩ (by decide) (by decide +kernel)
    (by unfold NoCollision; decide +kernel)
  have hslot : (sampleTree [[1], [2], [3]])[1]? = some (some ⟨1, hashB sampleSum [2]⟩) := by
    decide +kernel
  obtain rfl := Option.some.inj (hleaf.symm.trans hslot)
  exact ⟨proof, hproof, hcopy⟩

end SigningAgent.Crypto
