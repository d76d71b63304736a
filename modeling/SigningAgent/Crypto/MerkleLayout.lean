import SigningAgent.Crypto.Merkle
import SigningAgent.Lib.DupTree
import Mathlib.Data.Nat.Log
import Mathlib.Tactic.Ring

/-!
# The array `BuildMerkleTreeStore` returns holds the tree, level after level

The library's tree over the leaf hashes (`DupTree`, with the branch hash as combining function)
against the linear array of the code. `off h l` is where level `l` starts in an array of height
`h`: `0`, `2 ^ h`, `2 ^ h + 2 ^ (h - 1)`, … . `Layout` says that slot `off h l + k` holds node `k`
of level `l`, and nil where the level has no such node.

* `nextPowerOfTwo_eq`: the code's width is `2 ^ height n`.
* **`build_layout`**: for two or more non-nil leaves the builder runs without an index out of
  range and its array is laid out.
* `Layout.root`: the last entry is the root.
-/

namespace SigningAgent.Crypto

open DupTree

/-! ## Widths -/

/-- The levels above the leaves: the least `h` with `n ≤ 2 ^ h`. -/
def height (n : Nat) : Nat := Nat.clog 2 n

theorem le_two_pow_height (n : Nat) : n ≤ 2 ^ height n := Nat.le_pow_clog (by decide) n

theorem height_pos {n : Nat} (hn : 2 ≤ n) : 0 < height n := Nat.clog_pos (by decide) hn

/-- The code's width is the least power of two that is at least `n`. -/
theorem nextPowerOfTwo_eq {n : Nat} (hn : n ≠ 0) : nextPowerOfTwo n = 2 ^ height n := by
  unfold nextPowerOfTwo height
  by_cases hp : n &&& (n - 1) = 0
  · rw [if_pos hp]
    obtain ⟨k, rfl⟩ := (Nat.and_sub_one_eq_zero_iff_isPowerOfTwo hn).mp hp
    rw [Nat.clog_pow 2 k (by decide)]
  · rw [if_neg hp, Nat.one_shiftLeft]
    congr 1
    unfold floorLog2
    have hne : n ≠ 2 ^ n.log2 := fun h =>
      hp ((Nat.and_sub_one_eq_zero_iff_isPowerOfTwo hn).mpr ⟨_, h⟩)
    have hle : 2 ^ n.log2 ≤ n := Nat.log2_self_le hn
    have hlt : n < 2 ^ (n.log2 + 1) := Nat.lt_log2_self
    refine le_antisymm ?_ ?_
    · exact (Nat.lt_clog_iff_pow_lt (by decide)).mpr (by omega)
    · exact Nat.clog_le_of_le_pow hlt.le

/-- The start of level `l` in an array of height `h`. -/
def off (h : Nat) : Nat → Nat
  | 0 => 0
  | l + 1 => off h l + 2 ^ (h - l)

theorem off_add (h : Nat) : ∀ {l : Nat}, l ≤ h + 1 → off h l + 2 ^ (h + 1 - l) = 2 ^ (h + 1)
  | 0, _ => by simp [off]
  | l + 1, hl => by
    have ih := off_add h (l := l) (by omega)
    have h1 : h + 1 - l = (h - l) + 1 := by omega
    have h2 : h + 1 - (l + 1) = h - l := by omega
    rw [h1, pow_succ] at ih
    rw [off, h2]
    omega

/-- The parents of level `l` start at `2 ^ h` plus half the start of level `l`. -/
theorem off_succ_half {h l : Nat} (hl : l < h) (k : Nat) :
    ∃ j, off h (l + 1) + k = 2 ^ h + j ∧ 2 * j = off h l + 2 * k := by
  have h0 := off_add h (l := l) (by omega)
  have h1 : h + 1 - l = (h - l) + 1 := by omega
  rw [h1, pow_succ] at h0
  have h2 : (2 : Nat) ^ (h + 1) = 2 ^ h * 2 := pow_succ 2 h
  have h3 : 2 ^ (h - l) ≤ 2 ^ h := Nat.pow_le_pow_right (by decide) (by omega)
  refine ⟨2 ^ h - 2 ^ (h - l) + k, ?_, ?_⟩
  · rw [off]; omega
  · omega

theorem off_top (h : Nat) : off h h = 2 ^ (h + 1) - 2 := by
  have := off_add h (l := h) (by omega)
  rw [show h + 1 - h = 1 from by omega] at this
  omega

theorem off_lt {h l k : Nat} (hl : l ≤ h) (hk : k < 2 ^ (h - l)) :
    off h l + k < 2 ^ (h + 1) - 1 := by
  have h0 := off_add h (l := l) (by omega)
  have h1 : h + 1 - l = (h - l) + 1 := by omega
  rw [h1, pow_succ] at h0
  omega

/-! ## The two loops of the builder -/

variable {sum256 : Bytes → Digest}

/-- The entry the second loop writes for the slots `a` and `b`. -/
def branchPtr (sum256 : Bytes → Digest) (a b : Ptr) (addr : Nat) : Ptr :=
  a.map fun l => ⟨addr, hashMerkleBranchesB sum256 l.val ((b.map Ref.val).getD l.val)⟩

theorem branchPtr_map (x y : Option Bytes) (i j addr : Nat) :
    branchPtr sum256 (x.map (Ref.mk i)) (y.map (Ref.mk j)) addr =
      (x.map fun a => hashMerkleBranchesB sum256 a (y.getD a)).map (Ref.mk addr) := by
  cases x <;> cases y <;> rfl

theorem storeLeaves_ok : ∀ (L : List Bytes) (i : Nat) (m : List Ptr), i + L.length ≤ m.length →
    ∃ m', storeLeaves sum256 (L.map some) i m = .ok m' ∧ m'.length = m.length ∧
      (∀ p, p < i → m'[p]? = m[p]?) ∧ (∀ p, i + L.length ≤ p → m'[p]? = m[p]?) ∧
      ∀ k (hk : k < L.length), m'[i + k]? = some (some ⟨i + k, hashB sum256 L[k]⟩)
  | [], i, m, _ => ⟨m, rfl, rfl, fun _ _ => rfl, fun _ _ => rfl, fun k hk => absurd hk (by simp)⟩
  | tx :: L, i, m, hm => by
    simp only [List.length_cons] at hm
    set m1 := m.set i (some ⟨i, hashB sum256 tx⟩) with hm1
    have hlen1 : m1.length = m.length := by simp [m1]
    obtain ⟨m', hrun, hlen, hbelow, habove, hleaf⟩ := storeLeaves_ok L (i + 1) m1 (by omega)
    refine ⟨m', ?_, by omega, fun p hp => ?_, fun p hp => ?_, fun k hk => ?_⟩
    · simp only [List.map_cons, storeLeaves]
      rw [setAt_ok (by omega)]
      exact hrun
    · rw [hbelow p (by omega), hm1, List.getElem?_set_ne (by omega)]
    · simp only [List.length_cons] at hp
      rw [habove p (by omega), hm1, List.getElem?_set_ne (by omega)]
    · cases k with
      | zero =>
        rw [Nat.add_zero, hbelow i (by omega), hm1, List.getElem?_set_self (by omega)]
        rfl
      | succ k =>
        have := hleaf k (by simpa using hk)
        rw [show i + (k + 1) = i + 1 + k from by omega]
        simpa using this

theorem storeBranch_ok {m : List Ptr} {i offset : Nat} {a b : Ptr} (ha : m[i]? = some a)
    (hb : m[i + 1]? = some b) (ho : offset < m.length) :
    storeBranch sum256 m i offset = .ok (m.set offset (branchPtr sum256 a b offset)) := by
  unfold storeBranch
  rw [index_ok ha]
  cases a with
  | none => exact setAt_ok ho _
  | some l =>
    show (index m ((i + 1 : Nat) : Int) >>= _) = _
    rw [index_ok hb]
    cases b with
    | none => exact setAt_ok ho _
    | some r => exact setAt_ok ho _

/-- The second loop keeps what is stored and fills slot `w + j` from slots `2j` and `2j + 1`. -/
theorem storeBranches_ok {w : Nat} : ∀ (rounds j : Nat) (m : List Ptr), m.length = 2 * w - 1 →
    j + rounds + 1 ≤ w →
    ∃ m', storeBranches sum256 rounds (2 * j) (w + j) m = .ok m' ∧ m'.length = m.length ∧
      (∀ p, p < w + j → m'[p]? = m[p]?) ∧
      ∀ j', j ≤ j' → j' < j + rounds → ∃ a b, m'[2 * j']? = some a ∧ m'[2 * j' + 1]? = some b ∧
        m'[w + j']? = some (branchPtr sum256 a b (w + j'))
  | 0, j, m, _, _ => ⟨m, rfl, rfl, fun _ _ => rfl, fun j' h1 h2 => absurd h2 (by omega)⟩
  | rounds + 1, j, m, hlen, hw => by
    have hj : 2 * j < m.length := by omega
    have hj1 : 2 * j + 1 < m.length := by omega
    have ha := List.getElem?_eq_getElem hj
    have hb := List.getElem?_eq_getElem hj1
    set a := m[2 * j]
    set b := m[2 * j + 1]
    set m1 := m.set (w + j) (branchPtr sum256 a b (w + j)) with hm1
    have hlen1 : m1.length = m.length := by simp [m1]
    obtain ⟨m', hrun, hlen', hkeep, hfill⟩ :=
      storeBranches_ok (w := w) rounds (j + 1) m1 (by omega) (by omega)
    have hold : ∀ p, p < w + j → m'[p]? = m[p]? := fun p hp => by
      rw [hkeep p (by omega), hm1, List.getElem?_set_ne (by omega)]
    refine ⟨m', ?_, by omega, hold, fun j' h1 h2 => ?_⟩
    · simp only [storeBranches]
      rw [storeBranch_ok ha hb (by omega)]
      exact hrun
    · rcases Nat.eq_or_lt_of_le h1 with rfl | h1
      · refine ⟨a, b, by rw [hold _ (by omega), ha], by rw [hold _ (by omega), hb], ?_⟩
        rw [hkeep _ (by omega), hm1, List.getElem?_set_self (by omega)]
      · exact hfill j' h1 (by omega)

/-! ## The layout -/

/-- Slot `off h l + k` holds node `k` of level `l` of the tree over `leaves`. -/
structure Layout (sum256 : Bytes → Digest) (leaves : List Bytes) (h : Nat) (t : List Ptr) :
    Prop where
  length : t.length = 2 ^ (h + 1) - 1
  slot : ∀ l, l ≤ h → ∀ k, k < 2 ^ (h - l) → t[off h l + k]? =
    some (((level (hashMerkleBranchesB sum256) leaves l)[k]?).map (Ref.mk (off h l + k)))

/-- The first slots hold the leaves. -/
theorem Layout.base {leaves : List Bytes} {h : Nat} {t : List Ptr} (ht : Layout sum256 leaves h t)
    {k : Nat} (hk : k < 2 ^ h) : t[k]? = some ((leaves[k]?).map (Ref.mk k)) := by
  have hslot := ht.slot 0 (Nat.zero_le h) k (by rwa [Nat.sub_zero])
  rwa [off, Nat.zero_add, level] at hslot

theorem Layout.leaf {leaves : List Bytes} {h : Nat} {t : List Ptr} (ht : Layout sum256 leaves h t)
    (hle : leaves.length ≤ 2 ^ h) {j : Nat} {x : Bytes} (hx : leaves[j]? = some x) :
    t[j]? = some (some ⟨j, x⟩) := by
  have hj : j < leaves.length := (List.getElem?_eq_some_iff.mp hx).1
  rw [ht.base (hj.trans_le hle), hx]
  rfl

/-- A filled array is laid out: the leaves in the first slots, and every later slot the branch
of its two children. -/
theorem layout_of_slots {leaves : List Bytes} {h : Nat} {t : List Ptr}
    (hlen : t.length = 2 ^ (h + 1) - 1)
    (hleaf : ∀ k, k < 2 ^ h → t[k]? = some ((leaves[k]?).map (Ref.mk k)))
    (hfill : ∀ j, j < 2 ^ h - 1 → ∃ a b, t[2 * j]? = some a ∧ t[2 * j + 1]? = some b ∧
      t[2 ^ h + j]? = some (branchPtr sum256 a b (2 ^ h + j))) :
    Layout sum256 leaves h t := by
  refine ⟨hlen, fun l => ?_⟩
  induction l with
  | zero =>
    intro _ k hk
    simpa [off, level] using hleaf k (by simpa using hk)
  | succ l ih =>
    intro hl k hk
    obtain ⟨j, hoff, h2j⟩ := off_succ_half (h := h) (l := l) (by omega) k
    have hpow : 2 ^ (h - l) = 2 * 2 ^ (h - (l + 1)) := by
      rw [← pow_succ']; congr 1; omega
    have hlt := off_lt hl hk
    have h1 : (2 : Nat) ^ (h + 1) = 2 ^ h * 2 := pow_succ 2 h
    obtain ⟨a, b, ha, hb, hab⟩ := hfill j (by omega)
    have ha' := ih (by omega) (2 * k) (by omega)
    have hb' := ih (by omega) (2 * k + 1) (by omega)
    rw [← h2j, ha] at ha'
    rw [← Nat.add_assoc, ← h2j, hb] at hb'
    rw [hoff, hab, Option.some.inj ha', Option.some.inj hb', branchPtr_map, level,
      getElem?_levelUp]

/-- **The builder's array.** For two or more non-nil leaves `BuildMerkleTreeStore` succeeds, and
its array holds the tree over their hashes. -/
theorem build_layout {L : List Bytes} (hL : 2 ≤ L.length) :
    ∃ t, buildMerkleTreeStore sum256 (L.map some) = .ok t ∧
      Layout sum256 (L.map (hashB sum256)) (height L.length) t := by
  set h := height L.length with hh
  have hwidth := nextPowerOfTwo_eq (n := L.length) (by omega)
  have hle := le_two_pow_height L.length
  rw [← hh] at hwidth hle
  have hpow : (2 : Nat) ^ (h + 1) = 2 ^ h * 2 := pow_succ 2 h
  obtain ⟨m, hrun, hlen, -, hnil, hleaf⟩ := @storeLeaves_ok sum256 L 0
    (List.replicate (2 ^ h * 2 - 1) none) (by simp only [List.length_replicate]; omega)
  simp only [List.length_replicate] at hlen
  obtain ⟨t, hrun', hlen', hkeep, hfill⟩ := @storeBranches_ok sum256 (2 ^ h)
    ((2 ^ h * 2 - 1) / 2) 0 m (by omega) (by omega)
  refine ⟨t, ?_, layout_of_slots (by omega) (fun k hk => ?_) (fun j hj => hfill j (by omega)
    (by omega))⟩
  · match L, hL with
    | x :: y :: zs, _ =>
      show (storeLeaves sum256 _ 0 (List.replicate (nextPowerOfTwo (List.length _) * 2 - 1) none)
        >>= _) = _
      simp only [List.length_map, hwidth] at hrun ⊢
      rw [hrun]
      exact hrun'
  · rw [hkeep k (by omega), List.getElem?_map]
    by_cases hk' : k < L.length
    · have := hleaf k hk'
      rw [Nat.zero_add] at this
      rw [this, List.getElem?_eq_getElem hk']
      rfl
    · rw [hnil k (by omega), List.getElem?_replicate, if_pos (by omega),
        List.getElem?_eq_none (by omega)]
      rfl

/-- The same, of an array that the builder has returned. -/
theorem layout_of_build {L : List Bytes} {t : List Ptr} (hL : 2 ≤ L.length)
    (hbuild : buildMerkleTreeStore sum256 (L.map some) = .ok t) :
    Layout sum256 (L.map (hashB sum256)) (height L.length) t := by
  obtain ⟨t', hbuild', ht⟩ := @build_layout sum256 L hL
  obtain rfl : t = t' := Except.ok.inj (hbuild.symm.trans hbuild')
  exact ht

/-- The width holds the leaf hashes. -/
theorem length_leaves_le (sum256 : Bytes → Digest) (L : List Bytes) :
    (L.map (hashB sum256)).length ≤ 2 ^ height L.length := by
  rw [List.length_map]
  exact le_two_pow_height _

/-- The last entry of a laid out array is the root. -/
theorem Layout.root {leaves : List Bytes} {h : Nat} {t : List Ptr}
    (ht : Layout sum256 leaves h t) (hne : leaves ≠ []) (hle : leaves.length ≤ 2 ^ h) :
    ∃ root, level (hashMerkleBranchesB sum256) leaves h = [root] ∧
      t[off h h]? = some (some ⟨off h h, root⟩) ∧
      t.getLast? = some (some ⟨off h h, root⟩) := by
  obtain ⟨root, hroot⟩ :=
    List.length_eq_one_iff.mp (length_level_top (hashMerkleBranchesB sum256) hne hle)
  have hlast := ht.slot h le_rfl 0 (by simp)
  rw [hroot, Nat.add_zero] at hlast
  refine ⟨root, hroot, hlast, ?_⟩
  rw [List.getLast?_eq_getElem?, ht.length, show 2 ^ (h + 1) - 1 - 1 = off h h from by
    rw [off_top]; omega]
  exact hlast

end SigningAgent.Crypto
