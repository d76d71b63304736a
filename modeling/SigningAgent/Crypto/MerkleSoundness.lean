import SigningAgent.Crypto.MerkleCompleteness

/-!
# What an accepted proof says about a built tree

The proof list is chosen by an attacker: any length, any entries. `verify` folds the siblings it
recognises (`readPath`) and compares the result with the root, so an accepted list is a climb in
the sense of the library, and `DupTree.climb_sound` places its first entry in the tree.

* `buildInputs` / `verifyInputs`: the byte strings that building a tree and verifying a list feed
  to SHA-256. The assumption on SHA-256 is that it has no collision among these, never that it is
  injective, which no function to 32 bytes is.
* `branch_binding`: without such a collision, equal branch hashes have equal 32-byte children.
* `Placed`: where the first entry of an accepted list stands. With `e` recognised directions it is
  the tree's node `e` levels below the root, hence a leaf hash at full depth; with more of them
  than levels some leaf is itself the hash of two nodes; a list of two entries starts with what
  hashes to the root.
* **`verify_sound`**: the first entry of every accepted list is placed so.
* `verify_inner_node`: at less than full depth it need not be a leaf. Nothing in the list or in
  the hashes tells a leaf from an inner node, and `Verify` is not told the height of the tree.
-/

namespace SigningAgent.Crypto

open DupTree

variable {sum256 : Bytes → Digest}

/-! ## The byte strings involved -/

/-- The two strings hashed for a branch: the concatenated children and the inner sum. -/
def branchInputs (sum256 : Bytes → Digest) (p : Bytes × Bytes) : List Bytes :=
  [copy32 p.1 ++ copy32 p.2, hashB sum256 (copy32 p.1 ++ copy32 p.2)]

/-- The pairs of siblings combined while building the tree over `L`. -/
def buildPairs (sum256 : Bytes → Digest) (L : List Bytes) : List (Bytes × Bytes) :=
  treePairs (hashMerkleBranchesB sum256) (L.map (hashB sum256)) (height L.length)

/-- The strings hashed while building the tree over `L`. -/
def buildInputs (sum256 : Bytes → Digest) (L : List Bytes) : List Bytes :=
  L ++ (buildPairs sum256 L).flatMap (branchInputs sum256)

/-- The siblings `Verify` reads from `args`, in its order. -/
def provenPath (args : List Bytes) : List (Side × Bytes) :=
  readPath (args.length / 2 - 1) (args.drop 1)

/-- The strings hashed while verifying `args`. -/
def verifyInputs (sum256 : Bytes → Digest) (args : List Bytes) : List Bytes :=
  if args.length = 2 then args.take 1
  else (climbPairs (hashMerkleBranchesB sum256) (args.headD []) (provenPath args)).flatMap
    (branchInputs sum256)

/-! ## Branch hashes bind their children -/

@[simp] theorem length_copy32 (b : Bytes) : (copy32 b).length = hashSize := by
  simp only [copy32, List.length_append, List.length_take, List.length_replicate]
  omega

/-- A slice of 32 bytes is copied whole. -/
theorem copy32_of_length {b : Bytes} (h : b.length = hashSize) : copy32 b = b := by
  rw [copy32, List.take_of_length_le h.le, h, Nat.sub_self, List.replicate_zero, List.append_nil]

theorem copy32_branch (a b : Bytes) :
    copy32 (hashMerkleBranchesB sum256 a b) = hashMerkleBranchesB sum256 a b :=
  copy32_of_length (length_doubleHashB sum256 _)

theorem copy32_append_inj {a b c d : Bytes} (h : copy32 a ++ copy32 b = copy32 c ++ copy32 d) :
    copy32 a = copy32 c ∧ copy32 b = copy32 d :=
  List.append_inj h (by simp)

/-- Without a collision among the strings hashed for two branches, equal branch hashes have
equal children, as 32-byte blocks. -/
theorem branch_inj {xs : List Bytes} (hnc : NoCollision sum256 xs) {p q : Bytes × Bytes}
    (hp : ∀ b ∈ branchInputs sum256 p, b ∈ xs) (hq : ∀ b ∈ branchInputs sum256 q, b ∈ xs)
    (h : hashMerkleBranchesB sum256 p.1 p.2 = hashMerkleBranchesB sum256 q.1 q.2) :
    copy32 p.1 = copy32 q.1 ∧ copy32 p.2 = copy32 q.2 := by
  have h1 : hashB sum256 (copy32 p.1 ++ copy32 p.2) = hashB sum256 (copy32 q.1 ++ copy32 q.2) :=
    hnc.hashB_inj sum256 (hp _ (by simp [branchInputs])) (hq _ (by simp [branchInputs])) h
  exact copy32_append_inj
    (hnc.hashB_inj sum256 (hp _ (by simp [branchInputs])) (hq _ (by simp [branchInputs])) h1)

/-- **Binding.** Among pairs whose strings do not collide, `HashMerkleBranchesB` binds its
children. -/
theorem branch_binding {xs : List Bytes} (hnc : NoCollision sum256 xs)
    {P Q : List (Bytes × Bytes)} (hP : ∀ b ∈ P.flatMap (branchInputs sum256), b ∈ xs)
    (hQ : ∀ b ∈ Q.flatMap (branchInputs sum256), b ∈ xs) :
    Binding (hashMerkleBranchesB sum256) copy32 P Q := fun p hp q hq h =>
  branch_inj hnc (fun b hb => hP b (List.mem_flatMap.mpr ⟨p, hp, hb⟩))
    (fun b hb => hQ b (List.mem_flatMap.mpr ⟨q, hq, hb⟩)) h

/-- Every node of the tree over leaf hashes has 32 bytes. -/
theorem length_of_mem_level {L : List Bytes} : ∀ {l : Nat} {y : Bytes},
    y ∈ level (hashMerkleBranchesB sum256) (L.map (hashB sum256)) l → y.length = hashSize
  | 0, y, hy => by
    obtain ⟨x, -, rfl⟩ := List.mem_map.mp hy
    exact length_hashB sum256 x
  | l + 1, y, hy => by
    obtain ⟨p, -, rfl⟩ := mem_level_succ.mp hy
    exact length_doubleHashB sum256 _

/-! ## Accepted lists -/

/-- What `Verify` does with a non-empty list. -/
theorem verify_cons {root : Bytes} (x : Bytes) (rest : List Bytes) :
    verify sum256 root (x :: rest) =
    if root ≠ rest.getLast?.getD x then
      .error (.error (.rootMismatch root (rest.getLast?.getD x)))
    else if (x :: rest).length = 2 then
      if hashB sum256 x = root then .ok ()
      else .error (.error (.wrongPreimage root (hashB sum256 x)))
    else if climb (hashMerkleBranchesB sum256) x (provenPath (x :: rest)) ≠ root then
      .error (.error (.invalidPath root
        (climb (hashMerkleBranchesB sum256) x (provenPath (x :: rest)))))
    else .ok () := by
  have hidx : ((x :: rest).length : Int) - 1 = ((rest.length : Nat) : Int) := by
    simp only [List.length_cons]
    push_cast
    ring
  have hlast : (x :: rest)[rest.length]? = some (rest.getLast?.getD x) := by
    have := List.getLast?_eq_getElem? (l := x :: rest)
    rw [List.getLast?_cons] at this
    exact this.symm
  have hrun : verifyLoop sum256 ((x :: rest).length / 2 - 1) rest x =
      .ok (climb (hashMerkleBranchesB sum256) x (provenPath (x :: rest))) :=
    verifyLoop_eq_climb _ _ _ (by simp only [List.length_cons]; omega)
  unfold verify
  rw [hidx, index_ok hlast]
  show (if root ≠ rest.getLast?.getD x then _ else if (x :: rest).length = 2 then
    (if hashB sum256 x = root then _ else _) else
    (verifyLoop sum256 ((x :: rest).length / 2 - 1) rest x >>= _)) = _
  rw [hrun]
  rfl

/-- What acceptance means: the list ends in the root, and its first entry hashes to the root (two
entries) or climbs to it (any other number). -/
theorem verify_ok {root : Bytes} {args : List Bytes} (h : verify sum256 root args = .ok ()) :
    ∃ x, args[0]? = some x ∧
      (args.length = 2 → hashB sum256 x = root) ∧
      (args.length ≠ 2 → climb (hashMerkleBranchesB sum256) x (provenPath args) = root) := by
  cases args with
  | nil =>
    have hpanic : verify sum256 root [] = .error .panic := rfl
    rw [hpanic] at h
    cases h
  | cons x rest =>
    rw [verify_cons] at h
    split_ifs at h with hlast hlen hhash hclimb
    · exact ⟨x, rfl, fun _ => hhash, fun hne => absurd hlen hne⟩
    · exact ⟨x, rfl, fun he => absurd he hlen, fun _ => not_not.mp hclimb⟩

/-- The last entry of a built array is the root of the library's tree, also for one leaf. -/
theorem build_root {L : List Bytes} (hL : L ≠ []) {t : List Ptr} {root : Ref}
    (hbuild : buildMerkleTreeStore sum256 (L.map some) = .ok t)
    (hroot : t.getLast? = some (some root)) :
    level (hashMerkleBranchesB sum256) (L.map (hashB sum256)) (height L.length) = [root.val] := by
  by_cases h1 : L.length = 1
  · obtain ⟨x, rfl⟩ := List.length_eq_one_iff.mp h1
    cases hbuild
    cases hroot
    rfl
  · have hpos : 0 < L.length := List.length_pos_of_ne_nil hL
    obtain ⟨r, hlevel, -, hlast⟩ := (layout_of_build (by omega) hbuild).root (by simpa using hL)
      (length_leaves_le sum256 L)
    rw [hlast] at hroot
    cases hroot
    exact hlevel

/-- The slot of a node: within the slots of its level. -/
theorem Layout.slot_of_mem {leaves : List Bytes} {h : Nat} {t : List Ptr}
    (ht : Layout sum256 leaves h t) {l : Nat} (hl : l ≤ h) (hle : leaves.length ≤ 2 ^ h)
    {y : Bytes} (hy : y ∈ level (hashMerkleBranchesB sum256) leaves l) :
    ∃ k < 2 ^ (h - l), t[off h l + k]? = some (some ⟨off h l + k, y⟩) := by
  obtain ⟨k, hk⟩ := List.mem_iff_getElem?.mp hy
  have hlen := length_level_le (hashMerkleBranchesB sum256) leaves (h - l) l
    (by rwa [show h - l + l = h from by omega])
  have hlt := lt_of_lt_of_le (List.getElem?_eq_some_iff.mp hk).1 hlen
  have := ht.slot l hl k hlt
  rw [hk] at this
  exact ⟨k, hlt, this⟩

/-- The root of a tree over two or more leaves is the branch of the two nodes below it. -/
theorem Layout.children {L : List Bytes} {t : List Ptr} {root : Bytes} (hn : 2 ≤ L.length)
    (ht : Layout sum256 (L.map (hashB sum256)) (height L.length) t)
    (hlevel : level (hashMerkleBranchesB sum256) (L.map (hashB sum256)) (height L.length) =
      [root]) :
    ∃ left right, root = hashMerkleBranchesB sum256 left right ∧
      (left, right) ∈ buildPairs sum256 L ∧
      t[off (height L.length) (height L.length - 1)]? =
        some (some ⟨off (height L.length) (height L.length - 1), left⟩) ∧
      t[off (height L.length) (height L.length - 1) + 1]? =
        some (some ⟨off (height L.length) (height L.length - 1) + 1, right⟩) := by
  obtain ⟨m, hm⟩ : ∃ m, height L.length = m + 1 :=
    ⟨_, (Nat.succ_pred_eq_of_pos (height_pos hn)).symm⟩
  have hgt : 2 ^ m < L.length := (Nat.lt_clog_iff_pow_lt (by decide)).mp (by
    show m < height L.length
    exact hm ▸ Nat.lt_succ_self m)
  have htwo : (level (hashMerkleBranchesB sum256) (L.map (hashB sum256)) m).length = 2 := by
    have hle := length_level_le (hashMerkleBranchesB sum256) (L.map (hashB sum256)) 1 m (by
      rw [Nat.add_comm, ← hm]
      exact length_leaves_le sum256 L)
    have hlast := lt_length_level (hashMerkleBranchesB sum256) (hgt.trans_eq
      (List.length_map (hashB sum256)).symm) m
    rw [Nat.div_self (Nat.two_pow_pos m)] at hlast
    omega
  obtain ⟨left, right, hlr⟩ := List.length_eq_two.mp htwo
  rw [hm] at ht hlevel ⊢
  have hpow : 2 ^ (m + 1 - m) = 2 := by rw [Nat.add_sub_cancel_left, pow_one]
  have h0 := ht.slot m (Nat.le_succ m) 0 (by omega)
  have h1 := ht.slot m (Nat.le_succ m) 1 (by omega)
  rw [hlr] at h0 h1
  refine ⟨left, right, ?_, ?_, h0, h1⟩
  · rw [level, hlr] at hlevel
    exact (List.head_eq_of_cons_eq hlevel).symm
  · refine mem_treePairs.mpr ⟨m, by omega, ?_⟩
    rw [hlr]
    exact List.mem_singleton_self _

/-- Where the first entry `x` of the list `args` stands in the array `t` of the tree over `L` with
root `root`. A list of two entries starts with what hashes to the root: the only leaf, or the two
nodes below the root side by side. Any other list is placed by the number of its recognised
directions; `Verify` reads `x` through `copy32`, which leaves 32 bytes as they are. -/
structure Placed (sum256 : Bytes → Digest) (L : List Bytes) (t : List Ptr) (root : Bytes)
    (args : List Bytes) (x : Bytes) : Prop where
  leaf : args.length = 2 → L.length = 1 → L = [x]
  pair : args.length = 2 → 2 ≤ L.length → ∃ left right,
    t[off (height L.length) (height L.length - 1)]? =
      some (some ⟨off (height L.length) (height L.length - 1), left⟩) ∧
    t[off (height L.length) (height L.length - 1) + 1]? =
      some (some ⟨off (height L.length) (height L.length - 1) + 1, right⟩) ∧
    x = hashB sum256 (left ++ right)
  top : args.length ≠ 2 → (provenPath args).length = 0 → x = root
  node : args.length ≠ 2 → 2 ≤ L.length → (provenPath args).length ≤ height L.length →
    ∃ k < 2 ^ (provenPath args).length,
      t[off (height L.length) (height L.length - (provenPath args).length) + k]? =
        some (some ⟨off (height L.length) (height L.length - (provenPath args).length) + k,
          copy32 x⟩)
  base : args.length ≠ 2 → (provenPath args).length = height L.length →
    ∃ y ∈ L, copy32 x = hashB sum256 y
  beyond : args.length ≠ 2 → height L.length < (provenPath args).length → ∃ y ∈ L, ∃ left right,
    (climbPairs (hashMerkleBranchesB sum256) x (provenPath args))[
      (provenPath args).length - height L.length - 1]? = some (left, right) ∧
    y = hashB sum256 (copy32 left ++ copy32 right)

/-- The pairs an accepted list combines collide with the tree's only when they agree. -/
theorem NoCollision.binding {L : List Bytes} {x : Bytes} {rest : List Bytes}
    (hnc : NoCollision sum256 (buildInputs sum256 L ++ verifyInputs sum256 (x :: rest)))
    (hlen : (x :: rest).length ≠ 2) :
    Binding (hashMerkleBranchesB sum256) copy32
      (climbPairs (hashMerkleBranchesB sum256) x (provenPath (x :: rest)))
      (treePairs (hashMerkleBranchesB sum256) (L.map (hashB sum256)) (height L.length)) := by
  refine branch_binding hnc (fun b hb => List.mem_append_right _ ?_)
    (fun b hb => List.mem_append_left _ (List.mem_append_right _ hb))
  rw [verifyInputs, if_neg hlen]
  exact hb

/-- A list of two entries: both sides hash to the root, so they are the same string. -/
theorem placed_two {L : List Bytes} {t : List Ptr} {root x : Bytes} {rest : List Bytes}
    (hlen : (x :: rest).length = 2) (hhash : hashB sum256 x = root) (hL : L ≠ [])
    (hbuild : buildMerkleTreeStore sum256 (L.map some) = .ok t)
    (hlevel : level (hashMerkleBranchesB sum256) (L.map (hashB sum256)) (height L.length) = [root])
    (hnc : NoCollision sum256 (buildInputs sum256 L ++ verifyInputs sum256 (x :: rest))) :
    Placed sum256 L t root (x :: rest) x := by
  have hin : x ∈ buildInputs sum256 L ++ verifyInputs sum256 (x :: rest) := by
    refine List.mem_append_right _ ?_
    rw [verifyInputs, if_pos hlen]
    exact List.mem_singleton_self x
  refine ⟨fun _ h1 => ?_, fun _ hn => ?_, fun h => absurd hlen h, fun h => absurd hlen h,
    fun h => absurd hlen h, fun h => absurd hlen h⟩
  · obtain ⟨y, rfl⟩ := List.length_eq_one_iff.mp h1
    have hy : hashB sum256 y = root := List.head_eq_of_cons_eq hlevel
    have hxy : x = y :=
      hnc.hashB_inj sum256 hin (List.mem_append_left _ (by simp [buildInputs]))
        (hhash.trans hy.symm)
    rw [hxy]
  · have ht := layout_of_build hn hbuild
    obtain ⟨left, right, hroot, hmem, hl, hr⟩ := ht.children hn hlevel
    refine ⟨left, right, hl, hr, ?_⟩
    obtain ⟨m, -, hp⟩ := mem_treePairs.mp hmem
    obtain ⟨hlm, hrm⟩ := mem_pairUp hp
    -- the root is hashed from the inner sum of its children, which is hashed while building
    have hinner : hashB sum256 (copy32 left ++ copy32 right) ∈
        buildInputs sum256 L ++ verifyInputs sum256 (x :: rest) := by
      refine List.mem_append_left _ (List.mem_append_right _ ?_)
      exact List.mem_flatMap.mpr ⟨(left, right), hmem, by simp [branchInputs]⟩
    have hx := hnc.hashB_inj sum256 hin hinner (hhash.trans hroot)
    rwa [copy32_of_length (length_of_mem_level hlm), copy32_of_length (length_of_mem_level hrm)]
      at hx

/-- Any other list: the climb from its first entry ends at the root. -/
theorem placed_climb {L : List Bytes} {t : List Ptr} {root x : Bytes} {rest : List Bytes}
    (hlen : (x :: rest).length ≠ 2)
    (hclimb : climb (hashMerkleBranchesB sum256) x (provenPath (x :: rest)) = root)
    (hbuild : buildMerkleTreeStore sum256 (L.map some) = .ok t)
    (hlevel : level (hashMerkleBranchesB sum256) (L.map (hashB sum256)) (height L.length) = [root])
    (hnc : NoCollision sum256 (buildInputs sum256 L ++ verifyInputs sum256 (x :: rest))) :
    Placed sum256 L t root (x :: rest) x := by
  have hbind := hnc.binding hlen
  have hend : ∃ y ∈ level (hashMerkleBranchesB sum256) (L.map (hashB sum256)) (height L.length),
      copy32 (climb (hashMerkleBranchesB sum256) x (provenPath (x :: rest))) = copy32 y :=
    ⟨root, by rw [hlevel]; exact List.mem_singleton_self _, by rw [hclimb]⟩
  -- within the tree, the climb started `e` levels below the root
  have hstart : (provenPath (x :: rest)).length ≤ height L.length →
      copy32 x ∈ level (hashMerkleBranchesB sum256) (L.map (hashB sum256))
        (height L.length - (provenPath (x :: rest)).length) := fun hle => by
    obtain ⟨y, hy, hxy⟩ := climb_sound copy32_branch _ le_rfl hle hbind hend
    rw [copy32_of_length (length_of_mem_level hy)] at hxy
    rwa [hxy]
  refine ⟨fun h => absurd h hlen, fun h => absurd h hlen, fun _ he => ?_, fun _ hn hle => ?_,
    fun _ he => ?_, fun _ hlt => ?_⟩
  · rw [List.eq_nil_of_length_eq_zero he] at hclimb
    exact hclimb
  · obtain ⟨k, hk, hslot⟩ := (layout_of_build hn hbuild).slot_of_mem (Nat.sub_le _ _)
      (length_leaves_le sum256 L) (hstart hle)
    rw [Nat.sub_sub_self hle] at hk
    exact ⟨k, hk, hslot⟩
  · have hx := hstart he.le
    rw [he, Nat.sub_self] at hx
    obtain ⟨y, hy, hxy⟩ := List.mem_map.mp hx
    exact ⟨y, hy, hxy.symm⟩
  · obtain ⟨⟨left, right⟩, hpair, z, hz, heq⟩ := climb_beyond copy32_branch hlt hbind hend
    obtain ⟨y, hy, rfl⟩ := List.mem_map.mp hz
    rw [copy32_of_length (length_hashB sum256 y)] at heq
    have hinner : hashB sum256 (copy32 left ++ copy32 right) ∈
        buildInputs sum256 L ++ verifyInputs sum256 (x :: rest) := by
      refine List.mem_append_right _ ?_
      rw [verifyInputs, if_neg hlen]
      exact List.mem_flatMap.mpr
        ⟨(left, right), List.mem_of_getElem? hpair, by simp [branchInputs]⟩
    refine ⟨y, hy, left, right, hpair, ?_⟩
    exact (hnc.hashB_inj sum256 hinner
      (List.mem_append_left _ (List.mem_append_left _ hy)) heq).symm

/-- **Merkle soundness.** If `Verify` accepts `args` for the root of the tree over `L`, with no
SHA-256 collision among the strings involved, the first entry of `args` is placed in that tree. -/
theorem verify_sound {L args : List Bytes} {t : List Ptr} {root : Ref} (hL : L ≠ [])
    (hbuild : buildMerkleTreeStore sum256 (L.map some) = .ok t)
    (hroot : t.getLast? = some (some root)) (hver : verify sum256 root.val args = .ok ())
    (hnc : NoCollision sum256 (buildInputs sum256 L ++ verifyInputs sum256 args)) :
    ∃ x, args[0]? = some x ∧ Placed sum256 L t root.val args x := by
  obtain ⟨x, hx, htwo, hmany⟩ := verify_ok hver
  have hlevel := build_root hL hbuild hroot
  refine ⟨x, hx, ?_⟩
  cases args with
  | nil => simp at hx
  | cons z rest =>
    obtain rfl : z = x := by simpa using hx
    by_cases hlen : (z :: rest).length = 2
    · exact placed_two hlen (htwo hlen) hL hbuild hlevel hnc
    · exact placed_climb hlen (hmany hlen) hbuild hlevel hnc

/-! ## Samples -/

/-- A stand-in for SHA-256 in samples: a polynomial of the bytes, little-endian in 32 bytes. -/
def sampleSum (b : Bytes) : Digest :=
  ⟨(List.range hashSize).map fun i =>
    UInt8.ofNat (b.foldl (fun a x => (a * 257 + x.toNat + 1) % 4294967291) 7 / 256 ^ i),
    by simp⟩

/-- The array over `L`, and the value of its last entry. -/
def sampleTree (L : List Bytes) : List Ptr :=
  (buildMerkleTreeStore sampleSum (L.map some)).toOption.getD []

def sampleRoot (L : List Bytes) : Ref := ((sampleTree L).getLast?.join).getD ⟨0, []⟩

/-- The full-depth proof of the first of the two leaves `[1]` and `[2]`. -/
def sampleProof : List Bytes :=
  [hashB sampleSum [1], rightByte, hashB sampleSum [2], (sampleRoot [[1], [2]]).val]

/-- `verify_sound` at that proof: its first entry is the hash of a leaf. -/
theorem verify_sound_sample :
    ∃ x, sampleProof[0]? = some x ∧ ∃ y ∈ ([[1], [2]] : List Bytes), x = hashB sampleSum y := by
  obtain ⟨x, hx, hplaced⟩ := @verify_sound sampleSum [[1], [2]] sampleProof
    (sampleTree [[1], [2]]) (sampleRoot [[1], [2]]) (by decide) (by decide +kernel)
    (by decide +kernel) (by decide +kernel)
    (by unfold NoCollision; decide +kernel)
  obtain ⟨y, hy, hxy⟩ := hplaced.base (by decide) (by decide +kernel)
  have hlen : x.length = hashSize := by
    obtain rfl := Option.some.inj hx
    exact length_hashB sampleSum [1]
  exact ⟨x, hx, y, hy, (copy32_of_length hlen).symm.trans hxy⟩

/-- `x` is committed by the tree over `L`: the hash of a leaf, or the only leaf itself. -/
def Committed (sum256 : Bytes → Digest) (L : List Bytes) (x : Bytes) : Prop :=
  (2 ≤ L.length ∧ ∃ y ∈ L, x = hashB sum256 y) ∨ L = [x]

/-- The leaves `[1]`, …, `[4]`, and a proof that starts at the parent of the first two. -/
def innerLeaves : List Bytes := [[1], [2], [3], [4]]

def innerProof : List Bytes :=
  [hashMerkleBranchesB sampleSum (hashB sampleSum [1]) (hashB sampleSum [2]), rightByte,
    hashMerkleBranchesB sampleSum (hashB sampleSum [3]) (hashB sampleSum [4]),
    (sampleRoot innerLeaves).val]

/-- **An inner node passes for a leaf.** The proof one level short of full depth is accepted, with
no collision among the strings involved, and its first entry is not committed. -/
theorem verify_inner_node :
    buildMerkleTreeStore sampleSum (innerLeaves.map some) = .ok (sampleTree innerLeaves) ∧
      (sampleTree innerLeaves).getLast? = some (some (sampleRoot innerLeaves)) ∧
      verify sampleSum (sampleRoot innerLeaves).val innerProof = .ok () ∧
      NoCollision sampleSum
        (buildInputs sampleSum innerLeaves ++ verifyInputs sampleSum innerProof) ∧
      ¬ ∃ x, innerProof[0]? = some x ∧ Committed sampleSum innerLeaves x := by
  refine ⟨by decide +kernel, by decide +kernel, by decide +kernel,
    by unfold NoCollision; decide +kernel, ?_⟩
  rintro ⟨x, hx, ⟨-, y, hy, hxy⟩ | hx1⟩
  · have hne : ∀ y ∈ innerLeaves, innerProof[0]? ≠ some (hashB sampleSum y) := by decide +kernel
    exact hne y hy (hxy ▸ hx)
  · exact absurd (congrArg List.length hx1) (by simp [innerLeaves])

end SigningAgent.Crypto
