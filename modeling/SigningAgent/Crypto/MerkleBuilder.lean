import SigningAgent.Crypto.MerkleSoundness

/-!
# The builder computes the recursive tree

`RecursiveTree` describes the array of `BuildMerkleTreeStore` slot by slot and without the loops:
the leaf hashes and the padding, each level behind the one below it, every slot from its two
children, which slots are nil, and the root of the recursive definition on lists (`DupTree.root`)
at the end. `Built` says that a list of two or more slices gets such an array, or an error if one
of them is nil, and that a single nil slice gets an error as well.

* `storeLeaves_nil`: the first loop stops at a nil slice.
* `Layout.recursiveTree`: an array that holds the levels is a recursive tree.
* **`built_iff`**: `Built` holds of every list but the one of a single nil slice. A list of one
  slice has a branch of its own, which does not look whether the slice is nil.
-/

namespace SigningAgent.Crypto

open DupTree

variable {sum256 : Bytes → Digest}

/-- What stands above two slots: nil above nil, the branch hash of the left one with itself if
only the right one is nil, and of the two otherwise. -/
def parent (sum256 : Bytes → Digest) : Ptr → Ptr → Option Bytes
  | none, _ => none
  | some left, none => some (hashMerkleBranchesB sum256 left.val left.val)
  | some left, some right => some (hashMerkleBranchesB sum256 left.val right.val)

/-- The array `t` holds the tree over `L`, of width `2 ^ h`. Level `l` starts at `off h l` and has
`2 ^ (h - l)` slots. -/
structure RecursiveTree (sum256 : Bytes → Digest) (L : List Bytes) (h : Nat) (t : List Ptr) :
    Prop where
  width : L.length ≤ 2 ^ h
  least : ∀ h' < h, 2 ^ h' < L.length
  length : t.length = 2 * 2 ^ h - 1
  leaf : ∀ (k : Nat) (x : Bytes), L[k]? = some x →
    ∃ r : Ref, t[k]? = some (some r) ∧ r.val = hashB sum256 x
  padding : ∀ k : Nat, L.length ≤ k → k < 2 ^ h → t[k]? = some none
  branch : ∀ l < h, ∀ k < 2 ^ (h - (l + 1)), ∃ left right above : Ptr,
    t[off h l + 2 * k]? = some left ∧ t[off h l + (2 * k + 1)]? = some right ∧
      t[off h (l + 1) + k]? = some above ∧ above.map Ref.val = parent sum256 left right
  nodes : ∀ l ≤ h, ∀ k < 2 ^ (h - l),
    (∃ r : Ref, t[off h l + k]? = some (some r)) ↔ k < (L.length + 2 ^ l - 1) / 2 ^ l
  root : ∃ r : Ref, t.getLast? = some (some r) ∧
    DupTree.root (hashMerkleBranchesB sum256) (L.map (hashB sum256)) = some r.val

/-- The builder's answers. -/
structure Built (sum256 : Bytes → Digest) (assets : List (Option Bytes)) : Prop where
  noPanic : 2 ≤ assets.length → buildMerkleTreeStore sum256 assets ≠ .error .panic
  rejects : 2 ≤ assets.length →
    ((∃ e, buildMerkleTreeStore sum256 assets = .error (.error e)) ↔ none ∈ assets)
  tree : 2 ≤ assets.length → ∀ L : List Bytes, assets = L.map some →
    ∃ h t, buildMerkleTreeStore sum256 assets = .ok t ∧ RecursiveTree sum256 L h t
  single : assets = [none] → ∃ e, buildMerkleTreeStore sum256 assets = .error (.error e)

/-! ## Nil slices -/

/-- The first loop returns an error at a nil slice. -/
theorem storeLeaves_nil {assets : List (Option Bytes)} (i : Nat) (m : List Ptr)
    (hnil : none ∈ assets) (hm : i + assets.length ≤ m.length) :
    storeLeaves sum256 assets i m = .error (.error .invalidLeaf) := by
  induction assets generalizing i m with
  | nil => exact absurd hnil List.not_mem_nil
  | cons asset assets ih =>
    rw [List.length_cons] at hm
    cases asset with
    | none => rfl
    | some tx =>
      have hrest : none ∈ assets :=
        (List.mem_cons.mp hnil).resolve_left (Option.some_ne_none tx).symm
      simp only [storeLeaves]
      rw [setAt_ok (by omega)]
      exact ih (i + 1) _ hrest (by rw [List.length_set]; omega)

/-- Two or more slices, one of them nil. -/
theorem build_nil {assets : List (Option Bytes)} (htwo : 2 ≤ assets.length)
    (hnil : none ∈ assets) :
    buildMerkleTreeStore sum256 assets = .error (.error .invalidLeaf) := by
  have hwidth := nextPowerOfTwo_eq (n := assets.length) (by omega)
  have hle := le_two_pow_height assets.length
  match assets, htwo with
  | x :: y :: zs, _ =>
    show (storeLeaves sum256 _ 0 (List.replicate (nextPowerOfTwo (List.length _) * 2 - 1) none)
      >>= _) = _
    rw [storeLeaves_nil 0 _ hnil (by rw [List.length_replicate, hwidth]; omega)]
    rfl

/-- No slice is nil: the list of the slices. -/
theorem eq_map_some {assets : List (Option Bytes)} (hnil : none ∉ assets) :
    ∃ L : List Bytes, assets = L.map some := by
  induction assets with
  | nil => exact ⟨[], rfl⟩
  | cons asset assets ih =>
    obtain ⟨L, rfl⟩ := ih fun h => hnil (List.mem_cons_of_mem _ h)
    cases asset with
    | none => exact absurd List.mem_cons_self hnil
    | some x => exact ⟨x :: L, rfl⟩

/-! ## The levels of the array -/

/-- Above two slots of a level stands what the level above holds. -/
theorem parent_level (xs : List Bytes) (k i j : Nat) :
    parent sum256 ((xs[2 * k]?).map (Ref.mk i)) ((xs[2 * k + 1]?).map (Ref.mk j)) =
      (levelUp (hashMerkleBranchesB sum256) xs)[k]? := by
  rw [getElem?_levelUp]
  cases xs[2 * k]? with
  | none => rfl
  | some left => cases xs[2 * k + 1]? <;> rfl

/-- Every slot above the leaves holds what stands above its two children. -/
theorem Layout.branch {leaves : List Bytes} {h : Nat} {t : List Ptr}
    (ht : Layout sum256 leaves h t) {l k : Nat} (hl : l < h) (hk : k < 2 ^ (h - (l + 1))) :
    ∃ left right above : Ptr, t[off h l + 2 * k]? = some left ∧
      t[off h l + (2 * k + 1)]? = some right ∧ t[off h (l + 1) + k]? = some above ∧
      above.map Ref.val = parent sum256 left right := by
  have hpow : 2 ^ (h - l) = 2 * 2 ^ (h - (l + 1)) := by
    rw [← pow_succ']
    congr 1
    omega
  refine ⟨_, _, _, ht.slot l hl.le (2 * k) (by omega), ht.slot l hl.le (2 * k + 1) (by omega),
    ht.slot (l + 1) hl k hk, ?_⟩
  rw [parent_level, Option.map_map]
  exact Option.map_id'

/-- The slots of a level that are not nil. -/
theorem Layout.nodes {leaves : List Bytes} {h : Nat} {t : List Ptr} (ht : Layout sum256 leaves h t)
    {l k : Nat} (hl : l ≤ h) (hk : k < 2 ^ (h - l)) :
    (∃ r : Ref, t[off h l + k]? = some (some r)) ↔ k < (leaves.length + 2 ^ l - 1) / 2 ^ l := by
  rw [← length_level (hashMerkleBranchesB sum256), ht.slot l hl k hk]
  constructor
  · rintro ⟨r, hr⟩
    obtain ⟨b, hb, -⟩ := Option.map_eq_some_iff.mp (Option.some.inj hr)
    exact (List.getElem?_eq_some_iff.mp hb).1
  · intro hlt
    rw [List.getElem?_eq_getElem hlt]
    exact ⟨_, rfl⟩

/-- **The array of the levels is the recursive tree.** -/
theorem Layout.recursiveTree {L : List Bytes} {t : List Ptr} (htwo : 2 ≤ L.length)
    (ht : Layout sum256 (L.map (hashB sum256)) (height L.length) t) :
    RecursiveTree sum256 L (height L.length) t := by
  have hlen : (L.map (hashB sum256)).length = L.length := List.length_map _
  have hle := length_leaves_le sum256 L
  have hleast : ∀ h' < height L.length, 2 ^ h' < L.length := fun h' hh' =>
    (Nat.lt_clog_iff_pow_lt (by decide)).mp hh'
  have hne : L.map (hashB sum256) ≠ [] := by
    intro hnil
    rw [List.map_eq_nil_iff.mp hnil] at htwo
    simp at htwo
  refine ⟨le_two_pow_height _, hleast, ?_, fun k x hx => ?_, fun k hk hlt => ?_,
    fun l hl k hk => ht.branch hl hk, fun l hl k hk => ?_, ?_⟩
  · rw [ht.length, pow_succ, Nat.mul_comm]
  · refine ⟨⟨k, hashB sum256 x⟩, ht.leaf hle ?_, rfl⟩
    rw [List.getElem?_map, hx]
    rfl
  · rw [ht.base hlt, List.getElem?_eq_none (by rw [hlen]; exact hk)]
    rfl
  · have hnodes := ht.nodes hl hk
    rwa [hlen] at hnodes
  · obtain ⟨root, hroot, -, hlast⟩ := ht.root hne hle
    refine ⟨_, hlast, ?_⟩
    rw [root_eq_level _ (height L.length) hne hle (by rw [hlen]; exact hleast), hroot]
    rfl

/-- Two or more slices, none of them nil. -/
theorem build_recursiveTree {L : List Bytes} (htwo : 2 ≤ L.length) :
    ∃ h t, buildMerkleTreeStore sum256 (L.map some) = .ok t ∧ RecursiveTree sum256 L h t := by
  obtain ⟨t, hbuild, ht⟩ := @build_layout sum256 L htwo
  exact ⟨height L.length, t, hbuild, ht.recursiveTree htwo⟩

/-- **The builder computes the recursive tree** and rejects nil slices, but for a single one. -/
theorem built_iff (sum256 : Bytes → Digest) (assets : List (Option Bytes)) :
    Built sum256 assets ↔ assets ≠ [none] := by
  constructor
  · rintro hbuilt rfl
    obtain ⟨e, he⟩ := hbuilt.single rfl
    cases he
  · intro hne
    refine ⟨fun htwo => ?_, fun htwo => ⟨fun herr => ?_, fun hnil => ?_⟩, fun htwo L hL => ?_,
      fun hone => absurd hone hne⟩
    · by_cases hnil : none ∈ assets
      · rw [build_nil htwo hnil]
        nofun
      · obtain ⟨L, rfl⟩ := eq_map_some hnil
        rw [List.length_map] at htwo
        obtain ⟨h, t, hbuild, -⟩ := @build_recursiveTree sum256 L htwo
        rw [hbuild]
        nofun
    · by_contra hnil
      obtain ⟨L, rfl⟩ := eq_map_some hnil
      rw [List.length_map] at htwo
      obtain ⟨h, t, hbuild, -⟩ := @build_recursiveTree sum256 L htwo
      obtain ⟨e, he⟩ := herr
      rw [hbuild] at he
      cases he
    · exact ⟨_, build_nil htwo hnil⟩
    · subst hL
      rw [List.length_map] at htwo
      exact build_recursiveTree htwo

/-- **A single nil slice** gets a tree. -/
theorem single_nil_builds :
    ¬ ∀ (sum256 : Bytes → Digest) (assets : List (Option Bytes)), Built sum256 assets := by
  intro hall
  obtain ⟨e, he⟩ := (hall sampleSum [none]).single rfl
  cases he

end SigningAgent.Crypto
