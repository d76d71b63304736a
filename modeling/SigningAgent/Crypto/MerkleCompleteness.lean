import SigningAgent.Crypto.MerkleLayout
import Mathlib.Tactic.Positivity

/-!
# Every leaf of a built tree has a proof that verifies

The prover walks the array with the offset `c`, the halved position and the halved width; the
verifier decodes the copied proof with stride two. Both are the library's `path` and `climb`:

* `proofLoop_path`: after `l` rounds the prover holds the leaf and the encoded siblings of the
  first `l` levels (`encode`), and stands at node `j / 2 ^ l` of level `l`.
* `verifyLoop_eq_climb`: the verifier's loop climbs the siblings that `readPath` decodes.
* **`merkle_complete`**: for every non-empty list of non-nil leaves and every position, building,
  proving, copying and verifying all succeed.
-/

namespace SigningAgent.Crypto

open DupTree

variable {sum256 : Bytes → Digest}

/-! ## Encoding a path -/

/-- The direction entry of a sibling: `[0]` when it stands on the left. -/
def dirByte : Side → Bytes
  | .left => leftByte
  | .right => rightByte

/-- The entries of a proof between the leaf and the root. -/
def encode (p : List (Side × Bytes)) : List Bytes := p.flatMap fun s => [dirByte s.1, s.2]

theorem length_encode : ∀ p : List (Side × Bytes), (encode p).length = 2 * p.length
  | [] => rfl
  | s :: p => by
    show (dirByte s.1 :: s.2 :: encode p).length = _
    simp only [List.length_cons, length_encode p]
    omega

theorem encode_snoc (p : List (Side × Bytes)) (s : Side × Bytes) :
    encode (p ++ [s]) = encode p ++ [dirByte s.1, s.2] := by
  simp [encode, List.flatMap_append]

/-- The siblings the verifier reads from the entries after the leaf: an entry that is neither
direction is skipped together with the one after it. -/
def readPath : (rounds : Nat) → List Bytes → List (Side × Bytes)
  | 0, _ => []
  | rounds + 1, dir :: sib :: args =>
    if dir = leftByte then (.left, sib) :: readPath rounds args
    else if dir = rightByte then (.right, sib) :: readPath rounds args
    else readPath rounds args
  | _ + 1, _ => []

/-- **The verifier climbs what it reads.** -/
theorem verifyLoop_eq_climb : ∀ (rounds : Nat) (args : List Bytes) (res : Bytes),
    2 * rounds ≤ args.length → verifyLoop sum256 rounds args res =
      .ok (climb (hashMerkleBranchesB sum256) res (readPath rounds args))
  | 0, _, _, _ => rfl
  | rounds + 1, [], _, h => by simp at h
  | rounds + 1, [_], _, h => by simp only [List.length_cons, List.length_nil] at h; omega
  | rounds + 1, dir :: sib :: args, res, h => by
    have h' : 2 * rounds ≤ args.length := by simp only [List.length_cons] at h; omega
    unfold verifyLoop readPath
    split_ifs
    · rw [verifyLoop_eq_climb rounds args _ h']
      rfl
    · rw [verifyLoop_eq_climb rounds args _ h']
      rfl
    · exact verifyLoop_eq_climb rounds args _ h'

theorem readPath_encode : ∀ (p : List (Side × Bytes)) (rest : List Bytes),
    readPath p.length (encode p ++ rest) = p
  | [], _ => rfl
  | (.left, s) :: p, rest => by
    show readPath (p.length + 1) (leftByte :: s :: (encode p ++ rest)) = _
    rw [readPath, if_pos rfl, readPath_encode p rest]
  | (.right, s) :: p, rest => by
    show readPath (p.length + 1) (rightByte :: s :: (encode p ++ rest)) = _
    rw [readPath, if_neg (by decide), if_pos rfl, readPath_encode p rest]

/-! ## The prover's loop -/

/-- The prover's position is never negative, so its remainders are those of naturals. -/
theorem tmod_two (k : Nat) : (k : Int).tmod 2 = ((k % 2 : Nat) : Int) := rfl

theorem tdiv_two (k : Nat) : (k : Int).tdiv 2 = ((k / 2 : Nat) : Int) := rfl

/-- One round at node `k` of level `l` appends the direction and the sibling of that node. -/
theorem proofRound_sibling {leaves : List Bytes} {h : Nat} {t : List Ptr}
    (ht : Layout sum256 leaves h t) {l k : Nat} (hl : l < h) (hk : k < 2 ^ (h - l)) {y : Bytes}
    (hy : (level (hashMerkleBranchesB sum256) leaves l)[k]? = some y) (proof : List Ptr) :
    ∃ d v : Ref, proofRound t (off h l) k proof = .ok (proof ++ [some d, some v]) ∧
      (d.val, v.val) = (dirByte (sibling (level (hashMerkleBranchesB sum256) leaves l) k y).1,
        (sibling (level (hashMerkleBranchesB sum256) leaves l) k y).2) := by
  have hpow : 2 ^ (h - l) = 2 * 2 ^ (h - (l + 1)) := by
    rw [← pow_succ']; congr 1; omega
  have hslot := ht.slot l hl.le
  unfold proofRound
  by_cases heven : k % 2 = 0
  · have hmod : (k : Int).tmod 2 = 0 := by rw [tmod_two, heven]; rfl
    have hright := hslot (k + 1) (by omega)
    have hcast : (k : Int) + 1 + (off h l : Nat) = ((off h l + (k + 1) : Nat) : Int) := by
      push_cast; ring
    rw [if_pos hmod, hcast, index_ok hright, sibling, if_pos heven]
    cases (level (hashMerkleBranchesB sum256) leaves l)[k + 1]? with
    | none =>
      have hself := hslot k hk
      have hcast' : (k : Int) + (off h l : Nat) = ((off h l + k : Nat) : Int) := by
        push_cast; ring
      rw [hy] at hself
      refine ⟨⟨t.length + 1, rightByte⟩, ⟨off h l + k, y⟩, ?_, rfl⟩
      show (index t ((k : Int) + (off h l : Nat)) >>= _) = _
      rw [hcast', index_ok hself]
      rfl
    | some z => exact ⟨⟨t.length + 1, rightByte⟩, ⟨off h l + (k + 1), z⟩, rfl, rfl⟩
  · have hmod : (k : Int).tmod 2 = 1 := by
      rw [tmod_two, show k % 2 = 1 from by omega]; rfl
    have hlt : k - 1 < (level (hashMerkleBranchesB sum256) leaves l).length := by
      have := (List.getElem?_eq_some_iff.mp hy).1
      omega
    have hleft := hslot (k - 1) (by omega)
    have hcast : (k : Int) - 1 + (off h l : Nat) = ((off h l + (k - 1) : Nat) : Int) := by omega
    rw [if_neg (by rw [hmod]; decide), if_pos hmod, hcast, index_ok hleft, sibling, if_neg heven,
      List.getElem?_eq_getElem hlt]
    exact ⟨⟨t.length, leftByte⟩, ⟨off h l + (k - 1), _⟩, rfl, rfl⟩

/-- **The prover's loop follows the path.** Started at level `l` with the siblings below it, it
ends `rounds` levels higher with the siblings below that. -/
theorem proofLoop_path {leaves : List Bytes} {h : Nat} {t : List Ptr}
    (ht : Layout sum256 leaves h t) {j : Nat} {x : Bytes} (hx : leaves[j]? = some x)
    (hj : j < 2 ^ h) :
    ∀ (rounds l : Nat) (refs : List Ref), l + rounds ≤ h →
      refs.map Ref.val = x :: encode (path (hashMerkleBranchesB sum256) leaves j x l) →
      ∃ refs' : List Ref, proofLoop t rounds (off h l) (j / 2 ^ l : Nat) (2 ^ (h - l) : Nat)
          (refs.map some)
          = .ok (refs'.map some, ((off h (l + rounds) + j / 2 ^ (l + rounds) : Nat) : Int)) ∧
        refs'.map Ref.val =
          x :: encode (path (hashMerkleBranchesB sum256) leaves j x (l + rounds))
  | 0, l, refs, _, hrefs => by
    refine ⟨refs, ?_, hrefs⟩
    simp only [proofLoop, Nat.add_zero]
    congr 2
    push_cast
    ring
  | rounds + 1, l, refs, hl, hrefs => by
    have hklt : j / 2 ^ l < 2 ^ (h - l) := by
      rw [Nat.div_lt_iff_lt_mul (by positivity), ← pow_add]
      rwa [show h - l + l = h from by omega]
    obtain ⟨d, v, hround, hval⟩ := proofRound_sibling ht (by omega) hklt
      (climb_path (f := hashMerkleBranchesB sum256) hx l) (refs.map some)
    obtain ⟨hd, hv⟩ := Prod.mk.inj hval
    have hrefs1 : (refs ++ [d, v]).map Ref.val =
        x :: encode (path (hashMerkleBranchesB sum256) leaves j x (l + 1)) := by
      rw [List.map_append, hrefs, path, encode_snoc, ← hd, ← hv]
      rfl
    obtain ⟨refs', hrun, hrefs'⟩ := proofLoop_path ht hx hj rounds (l + 1) (refs ++ [d, v])
      (by omega) hrefs1
    have hnext : (j / 2 ^ l) / 2 = j / 2 ^ (l + 1) := by
      rw [Nat.div_div_eq_div_mul, ← pow_succ]
    have hc : (off h l : Int) + (2 ^ (h - l) : Nat) = (off h (l + 1) : Nat) := by
      rw [off]; push_cast; rfl
    have hw : ((2 ^ (h - l) : Nat) : Int).tdiv 2 = ((2 ^ (h - (l + 1)) : Nat) : Int) := by
      rw [tdiv_two]
      congr 1
      have : 2 ^ (h - l) = 2 * 2 ^ (h - (l + 1)) := by rw [← pow_succ']; congr 1; omega
      omega
    refine ⟨refs', ?_, by rw [hrefs', show l + 1 + rounds = l + (rounds + 1) from by omega]⟩
    rw [proofLoop, hround]
    show proofLoop t rounds ((off h l : Int) + (2 ^ (h - l) : Nat)) _ _ _ = _
    rw [hc, tdiv_two, hnext, hw, show l + (rounds + 1) = l + 1 + rounds from by omega]
    simpa using hrun

theorem copyProofFrom_some : ∀ (i : Nat) (refs : List Ref),
    copyProofFrom i (refs.map some) = .ok (refs.map Ref.val)
  | _, [] => rfl
  | i, r :: refs => by
    simp only [List.map_cons, copyProofFrom]
    rw [copyProofFrom_some (i + 1) refs]
    rfl

/-- A list of non-nil entries is copied entry by entry. -/
theorem copyProof_some (refs : List Ref) : copyProof (refs.map some) = .ok (refs.map Ref.val) :=
  copyProofFrom_some 0 refs

/-! ## Proving and verifying -/

theorem samePtr_self (p : Ptr) : samePtr p p = true := by simp [samePtr]

/-- The prover's tree height: `h + 1` levels, the leaves included. -/
theorem floorLog2_nextPowerOfTwo {h : Nat} (hh : 0 < h) :
    floorLog2 (nextPowerOfTwo (2 ^ (h + 1) - 1)) = h + 1 := by
  have hpow : (2 : Nat) ^ (h + 1) = 2 ^ h * 2 := pow_succ 2 h
  have htwo : 2 ≤ 2 ^ h := by
    calc 2 = 2 ^ 1 := rfl
      _ ≤ 2 ^ h := Nat.pow_le_pow_right (by decide) hh
  have hheight : height (2 ^ (h + 1) - 1) = h + 1 := by
    unfold height
    refine le_antisymm (Nat.clog_le_of_le_pow (by omega)) ?_
    exact (Nat.lt_clog_iff_pow_lt (by decide)).mpr (by omega)
  rw [nextPowerOfTwo_eq (by omega), hheight]
  exact Nat.log2_two_pow

/-- **The prover's answer** on a laid out array of height at least one: the leaf, the encoded
path and the root. -/
theorem generateProof_path {leaves : List Bytes} {h : Nat} {t : List Ptr}
    (ht : Layout sum256 leaves h t) (hh : 0 < h) (hle : leaves.length ≤ 2 ^ h) {j : Nat}
    {x : Bytes} (hx : leaves[j]? = some x) :
    ∃ (refs : List Ref) (root : Ref),
      generateProofFromTree (some ⟨j, x⟩) j t = .ok ((refs ++ [root]).map some) ∧
      t.getLast? = some (some root) ∧ level (hashMerkleBranchesB sum256) leaves h = [root.val] ∧
      refs.map Ref.val = x :: encode (path (hashMerkleBranchesB sum256) leaves j x h) := by
  have hj : j < leaves.length := (List.getElem?_eq_some_iff.mp hx).1
  have hne : leaves ≠ [] := by rintro rfl; simp at hx
  obtain ⟨root, hroot, hslot, hlast⟩ := ht.root hne hle
  have hpow : (2 : Nat) ^ (h + 1) = 2 ^ h * 2 := pow_succ 2 h
  have htwo : 2 ≤ 2 ^ h := by
    calc 2 = 2 ^ 1 := rfl
      _ ≤ 2 ^ h := Nat.pow_le_pow_right (by decide) hh
  have hleaf := ht.leaf hle hx
  obtain ⟨refs, hrun, hrefs⟩ := proofLoop_path ht hx (by omega) h 0 [⟨j, x⟩] (by omega) rfl
  refine ⟨refs, ⟨off h h, root⟩, ?_, hlast, hroot, by simpa using hrefs⟩
  have hlen := ht.length
  have hhalf : (t.length + 1) / 2 = 2 ^ h := by omega
  have hrounds : floorLog2 (nextPowerOfTwo t.length) - 1 = h := by
    rw [hlen, floorLog2_nextPowerOfTwo hh]; omega
  have htop : j / 2 ^ (0 + h) = 0 := by
    rw [Nat.zero_add]; exact Nat.div_eq_of_lt (by omega)
  rw [htop, Nat.zero_add, Nat.add_zero] at hrun
  simp only [off, pow_zero, Nat.div_one, Nat.sub_zero, Nat.cast_zero, List.map_cons,
    List.map_nil] at hrun
  unfold generateProofFromTree
  rw [if_neg (by omega), index_ok hleaf]
  show (if !samePtr _ _ then _ else _) = _
  rw [samePtr_self]
  simp only [Bool.not_true, Bool.false_eq_true, if_false]
  rw [if_neg (by omega), hhalf, hrounds, hrun]
  show (index t _ >>= _) = _
  rw [index_ok hslot, List.map_append]
  rfl

/-- The verifier accepts a path that leads to the root. -/
theorem verify_of_climb {root x : Bytes} {p : List (Side × Bytes)} (hp : p ≠ [])
    (hclimb : climb (hashMerkleBranchesB sum256) x p = root) :
    verify sum256 root (x :: encode p ++ [root]) = .ok () := by
  have hlen : (x :: encode p ++ [root]).length = 2 * p.length + 2 := by
    simp only [List.length_append, List.length_cons, List.length_nil, length_encode]
  have hpos : 0 < p.length := List.length_pos_of_ne_nil hp
  have hlast : (x :: encode p ++ [root])[2 * p.length + 1]? = some root := by
    rw [List.getElem?_append_right (by simp [length_encode])]
    simp [length_encode]
  unfold verify
  rw [hlen, show (((2 * p.length + 2 : Nat) : Int) - 1) = ((2 * p.length + 1 : Nat) : Int) from by
    push_cast; ring, index_ok hlast]
  show (if root ≠ root then _ else _) = _
  rw [if_neg (by simp), if_neg (by omega)]
  show (verifyLoop sum256 ((2 * p.length + 2) / 2 - 1) (encode p ++ [root]) x >>= _) = _
  rw [show (2 * p.length + 2) / 2 - 1 = p.length from by omega, verifyLoop_eq_climb _ _ _ (by
    simp only [List.length_append, length_encode]; omega), readPath_encode, hclimb]
  show (if root ≠ root then _ else _) = _
  rw [if_neg (by simp)]
  rfl

/-- The verifier accepts the preimage of the root. -/
theorem verify_of_hash (x : Bytes) :
    verify sum256 (hashB sum256 x) [x, hashB sum256 x] = .ok () := by
  unfold verify
  show (if hashB sum256 x ≠ hashB sum256 x then _ else _) = _
  rw [if_neg (by simp)]
  show (if hashB sum256 x = hashB sum256 x then _ else _) = _
  rw [if_pos rfl]
  rfl

/-- What the prover makes of a leaf of a built tree, the verifier accepts. -/
theorem prove_built {L : List Bytes} {t : List Ptr}
    (hbuild : buildMerkleTreeStore sum256 (L.map some) = .ok t) {j : Nat} (hj : j < L.length) :
    ∃ leaf root proof args, t[j]? = some leaf ∧ t.getLast? = some (some root) ∧
      generateProofFromTree leaf (j : Int) t = .ok proof ∧
      proof.getLast? = some (some root) ∧ copyProof proof = .ok args ∧
      verify sum256 root.val args = .ok () := by
  by_cases h1 : L.length = 1
  · -- one leaf: the two-entry tree is its own proof
    obtain ⟨x, rfl⟩ := List.length_eq_one_iff.mp h1
    obtain rfl : j = 0 := by simpa using hj
    cases hbuild
    exact ⟨_, ⟨1, hashB sum256 x⟩, _, _, rfl, rfl, rfl, rfl, rfl, verify_of_hash x⟩
  · have ht := layout_of_build (by omega) hbuild
    have hh := height_pos (n := L.length) (by omega)
    have hx : (L.map (hashB sum256))[j]? = some (hashB sum256 L[j]) := by
      rw [List.getElem?_map, List.getElem?_eq_getElem hj]; rfl
    have hle := length_leaves_le sum256 L
    obtain ⟨refs, root, hproof, hlast, hroot, hrefs⟩ := generateProof_path ht hh hle hx
    have hclimb := climb_path (f := hashMerkleBranchesB sum256) hx (height L.length)
    refine ⟨some ⟨j, hashB sum256 L[j]⟩, root, _, _, ht.leaf hle hx, hlast, hproof,
      by simp, copyProof_some _, ?_⟩
    rw [List.map_append, hrefs]
    refine verify_of_climb ?_ ?_
    · intro hnil
      have := length_path (hashMerkleBranchesB sum256) (L.map (hashB sum256)) j
        (hashB sum256 L[j]) (height L.length)
      rw [hnil] at this
      exact absurd this (by simp only [List.length_nil]; omega)
    · have hone : j / 2 ^ height L.length < 1 := by
        have := @lt_length_level _ (hashMerkleBranchesB sum256) (L.map (hashB sum256)) j
          (by simpa using hj) (height L.length)
        rwa [hroot] at this
      rw [Nat.lt_one_iff.mp hone, hroot] at hclimb
      exact (Option.some.inj hclimb).symm

/-- **Merkle completeness.** For every list of non-nil leaves and every position `j` in it, the
builder succeeds, the prover succeeds on the entry `t[j]` and its proof ends in the root, the
proof can be copied, and the copy verifies against the root. -/
theorem merkle_complete (sum256 : Bytes → Digest) (L : List Bytes) (j : Fin L.length) :
    ∃ t leaf root proof args, buildMerkleTreeStore sum256 (L.map some) = .ok t ∧
      t[j.1]? = some leaf ∧ t.getLast? = some (some root) ∧
      generateProofFromTree leaf (j.1 : Int) t = .ok proof ∧
      proof.getLast? = some (some root) ∧ copyProof proof = .ok args ∧
      verify sum256 root.val args = .ok () := by
  obtain ⟨j, hj⟩ := j
  obtain ⟨t, hbuild⟩ : ∃ t, buildMerkleTreeStore sum256 (L.map some) = .ok t := by
    by_cases h1 : L.length = 1
    · obtain ⟨x, rfl⟩ := List.length_eq_one_iff.mp h1
      exact ⟨_, rfl⟩
    · obtain ⟨t, hbuild, -⟩ := @build_layout sum256 L (by omega)
      exact ⟨t, hbuild⟩
  obtain ⟨leaf, root, proof, args, hproves⟩ := prove_built hbuild hj
  exact ⟨t, leaf, root, proof, args, hbuild, hproves⟩

end SigningAgent.Crypto
