import Mathlib.Data.List.Basic
import Mathlib.Data.List.Induction
import Mathlib.Algebra.Order.Group.Nat
import Mathlib.Tactic.Ring

/-!
# Binary hash trees that duplicate an odd last node

A list of leaves is combined level by level. Neighbours are paired, and where a level has an odd
number of nodes the last one is paired with itself (`pairUp`); `level f xs l` is the list of nodes
`l` levels above the leaves `xs`. A proof of membership is a list of siblings, each with the side
it stands on, and `climb` folds it from a node upwards. The node type and the combining function
are arbitrary.

Results:
* **`climb_path`** (completeness): climbing from a leaf by the siblings the tree holds arrives at
  the node above it, at every level.
* **`climb_sound`**: if the pairs combined while climbing can only collide with the tree's own
  pairs when they agree (`Binding`), then a climb of `e` steps that arrives at a node of level `l`
  started at a node of level `l - e`, whatever the siblings were; `climb_beyond` is the case of
  more steps than levels.
* **`climb_binds`**: a climb of full height that arrives at the root, from an index that the sides
  of its siblings spell (`start`) and that the leaves have, is the path of the leaf at that index.
* `root_eq_level`: pairing up until one node remains gives the top level.
* **`complete_eq_of_level_eq`**: two trees whose pairs only collide when equal and that agree `h`
  levels up have the same leaves once each list is completed to full width by the tree's own
  duplications (`complete`); `complete_inj` recovers the lists when their lengths agree.
-/

namespace DupTree

variable {α β : Type}

/-! ## Levels -/

/-- Neighbours in pairs, an odd last element with itself. -/
def pairUp : List α → List (α × α)
  | [] => []
  | [a] => [(a, a)]
  | a :: b :: xs => (a, b) :: pairUp xs

/-- The level above `xs`. -/
def levelUp (f : α → α → α) (xs : List α) : List α := (pairUp xs).map fun p => f p.1 p.2

/-- The nodes `l` levels above the leaves `xs`. -/
def level (f : α → α → α) (xs : List α) : Nat → List α
  | 0 => xs
  | l + 1 => levelUp f (level f xs l)

theorem length_pairUp : ∀ xs : List α, (pairUp xs).length = (xs.length + 1) / 2
  | [] => by simp [pairUp]
  | [_] => by simp [pairUp]
  | _ :: _ :: xs => by
    simp only [pairUp, List.length_cons, length_pairUp xs]
    omega

theorem getElem?_pairUp : ∀ (xs : List α) (k : Nat),
    (pairUp xs)[k]? = (xs[2 * k]?).map fun a => (a, (xs[2 * k + 1]?).getD a)
  | [], k => by simp [pairUp]
  | [a], 0 => by simp [pairUp]
  | [a], k + 1 => by simp [pairUp, Nat.mul_add]
  | a :: b :: xs, 0 => by simp [pairUp]
  | a :: b :: xs, k + 1 => by
    have h1 : 2 * (k + 1) = 2 * k + 2 := by ring
    simp only [pairUp, h1, List.getElem?_cons_succ, getElem?_pairUp xs k]

theorem mem_pairUp : ∀ {xs : List α} {p : α × α}, p ∈ pairUp xs → p.1 ∈ xs ∧ p.2 ∈ xs
  | [], _, h => absurd h List.not_mem_nil
  | [a], p, h => by
    obtain rfl := List.mem_singleton.mp h
    exact ⟨List.mem_singleton_self a, List.mem_singleton_self a⟩
  | a :: b :: xs, p, h => by
    rcases List.mem_cons.mp h with rfl | h
    · exact ⟨by simp, by simp⟩
    · obtain ⟨h1, h2⟩ := mem_pairUp h
      exact ⟨by simp [h1], by simp [h2]⟩

theorem mem_pairUp_of_mem : ∀ {xs : List α} {a : α}, a ∈ xs → ∃ p ∈ pairUp xs, a = p.1 ∨ a = p.2
  | [], _, h => absurd h List.not_mem_nil
  | [b], a, h => ⟨(b, b), by simp [pairUp], Or.inl (List.mem_singleton.mp h)⟩
  | b :: c :: xs, a, h => by
    rcases List.mem_cons.mp h with rfl | h
    · exact ⟨(a, c), by simp [pairUp], Or.inl rfl⟩
    · rcases List.mem_cons.mp h with rfl | h
      · exact ⟨(b, a), by simp [pairUp], Or.inr rfl⟩
      · obtain ⟨p, hp, hor⟩ := mem_pairUp_of_mem h
        exact ⟨p, by simp [pairUp, hp], hor⟩

/-- Node `k` of the level above combines nodes `2k` and `2k + 1`, or node `2k` with itself. -/
theorem getElem?_levelUp (f : α → α → α) (xs : List α) (k : Nat) :
    (levelUp f xs)[k]? = (xs[2 * k]?).map fun a => f a ((xs[2 * k + 1]?).getD a) := by
  simp only [levelUp, List.getElem?_map, getElem?_pairUp, Option.map_map]
  rfl

theorem mem_levelUp {f : α → α → α} {xs : List α} {y : α} :
    y ∈ levelUp f xs ↔ ∃ p ∈ pairUp xs, f p.1 p.2 = y :=
  List.mem_map

/-- The levels of the level above are the levels shifted by one. -/
theorem level_levelUp (f : α → α → α) (xs : List α) : ∀ l,
    level f (levelUp f xs) l = level f xs (l + 1)
  | 0 => rfl
  | l + 1 => by
    show levelUp f (level f (levelUp f xs) l) = levelUp f (level f xs (l + 1))
    rw [level_levelUp f xs l]

theorem level_add (f : α → α → α) (xs : List α) (m : Nat) : ∀ l,
    level f (level f xs m) l = level f xs (m + l)
  | 0 => rfl
  | l + 1 => by
    show levelUp f (level f (level f xs m) l) = levelUp f (level f xs (m + l))
    rw [level_add f xs m l]

theorem length_levelUp (f : α → α → α) (xs : List α) :
    (levelUp f xs).length = (xs.length + 1) / 2 := by
  rw [levelUp, List.length_map, length_pairUp]

/-- With `n ≤ 2 ^ (h + l)` leaves, level `l` has at most `2 ^ h` nodes. -/
theorem length_level_le (f : α → α → α) (xs : List α) (h : Nat) : ∀ l,
    xs.length ≤ 2 ^ (h + l) → (level f xs l).length ≤ 2 ^ h
  | 0, hn => hn
  | l + 1, hn => by
    have ih := length_level_le f (levelUp f xs) h l (by
      rw [length_levelUp]
      have : 2 ^ (h + (l + 1)) = 2 * 2 ^ (h + l) := by ring
      omega)
    rwa [level_levelUp] at ih

theorem length_level_pos (f : α → α → α) {xs : List α} (hx : xs ≠ []) : ∀ l,
    0 < (level f xs l).length
  | 0 => List.length_pos_of_ne_nil hx
  | l + 1 => by
    show 0 < (levelUp f (level f xs l)).length
    have := length_level_pos f hx l
    rw [length_levelUp]
    omega

/-- With at most `2 ^ h` leaves and at least one, level `h` is the root alone. -/
theorem length_level_top (f : α → α → α) {xs : List α} (hx : xs ≠ []) {h : Nat}
    (hn : xs.length ≤ 2 ^ h) : (level f xs h).length = 1 := by
  have h1 := length_level_le f xs 0 h (by simpa using hn)
  have h2 := length_level_pos f hx h
  simp only [pow_zero] at h1
  omega

/-- Level `l` has `n / 2 ^ l` nodes, rounded up. -/
theorem length_level (f : α → α → α) (xs : List α) : ∀ l,
    (level f xs l).length = (xs.length + 2 ^ l - 1) / 2 ^ l
  | 0 => by simp [level]
  | l + 1 => by
    have hpos : 0 < 2 ^ l := Nat.two_pow_pos l
    have hsplit : xs.length + 2 ^ (l + 1) - 1 = xs.length + 2 ^ l - 1 + 1 * 2 ^ l := by
      rw [pow_succ]
      omega
    show (levelUp f (level f xs l)).length = _
    rw [length_levelUp, length_level f xs l, pow_succ, ← Nat.div_div_eq_div_mul, ← pow_succ, hsplit,
      Nat.add_mul_div_right _ _ hpos]

/-- The root: pair up until one node remains. -/
def root (f : α → α → α) : List α → Option α
  | [] => none
  | [a] => some a
  | a :: b :: xs => root f (levelUp f (a :: b :: xs))
termination_by xs => xs.length
decreasing_by
  simp only [length_levelUp, List.length_cons]
  omega

theorem root_of_two_le {f : α → α → α} {xs : List α} (hx : 2 ≤ xs.length) :
    root f xs = root f (levelUp f xs) := by
  match xs, hx with
  | a :: b :: xs, _ => rw [root]

/-- At the least height that holds the leaves, the top level is the root. -/
theorem root_eq_level (f : α → α → α) : ∀ (h : Nat) {xs : List α}, xs ≠ [] →
    xs.length ≤ 2 ^ h → (∀ h' < h, 2 ^ h' < xs.length) → root f xs = (level f xs h)[0]?
  | 0, xs, hx, hle, _ => by
    obtain ⟨a, rfl⟩ : ∃ a, xs = [a] := by
      have := List.length_pos_of_ne_nil hx
      exact List.length_eq_one_iff.mp (by rw [pow_zero] at hle; omega)
    rw [root]
    rfl
  | h + 1, xs, hx, hle, hlt => by
    have htwo : 2 ≤ xs.length := by
      have := hlt 0 (Nat.succ_pos h)
      rwa [pow_zero] at this
    rw [root_of_two_le htwo, ← level_levelUp]
    refine root_eq_level f h ?_ ?_ fun h' hh' => ?_
    · intro hnil
      have := length_levelUp f xs
      rw [hnil, List.length_nil] at this
      omega
    · rw [length_levelUp]
      rw [pow_succ] at hle
      omega
    · have := hlt (h' + 1) (Nat.succ_lt_succ hh')
      rw [pow_succ] at this
      rw [length_levelUp]
      omega

/-- An index into the leaves, halved `l` times, is an index into level `l`. -/
theorem lt_length_level (f : α → α → α) {xs : List α} {j : Nat} (hj : j < xs.length) : ∀ l,
    j / 2 ^ l < (level f xs l).length
  | 0 => by simpa [level] using hj
  | l + 1 => by
    have ih := lt_length_level f hj l
    show j / 2 ^ (l + 1) < (levelUp f (level f xs l)).length
    rw [length_levelUp, pow_succ, ← Nat.div_div_eq_div_mul]
    omega

/-! ## Climbing -/

/-- The side of the node on which its sibling stands. -/
inductive Side where
  | left
  | right
  deriving DecidableEq, Repr

/-- Combine a node with a sibling. -/
def climbStep (f : α → α → α) (x : α) : Side × α → α
  | (.left, s) => f s x
  | (.right, s) => f x s

/-- Combine a node with each sibling of a path in turn. -/
def climb (f : α → α → α) (x : α) (p : List (Side × α)) : α := p.foldl (climbStep f) x

theorem climb_snoc (f : α → α → α) (x : α) (p : List (Side × α)) (s : Side × α) :
    climb f x (p ++ [s]) = climbStep f (climb f x p) s := by
  simp [climb, List.foldl_append]

theorem climb_append (f : α → α → α) (x : α) (p q : List (Side × α)) :
    climb f x (p ++ q) = climb f (climb f x p) q :=
  List.foldl_append

/-- The sibling of node `k` of a level: the node itself where the level has no right one. -/
def sibling (xs : List α) (k : Nat) (x : α) : Side × α :=
  if k % 2 = 0 then (.right, (xs[k + 1]?).getD x) else (.left, (xs[k - 1]?).getD x)

theorem climbStep_sibling {f : α → α → α} {xs : List α} {k : Nat} {x : α} (hx : xs[k]? = some x) :
    (levelUp f xs)[k / 2]? = some (climbStep f x (sibling xs k x)) := by
  rw [getElem?_levelUp]
  by_cases hk : k % 2 = 0
  · have h2 : 2 * (k / 2) = k := by omega
    rw [sibling, if_pos hk, h2, hx]
    rfl
  · have h2 : 2 * (k / 2) = k - 1 := by omega
    have h3 : k - 1 + 1 = k := by omega
    have hlt : k - 1 < xs.length := by
      have := (List.getElem?_eq_some_iff.mp hx).1
      omega
    rw [sibling, if_neg hk, h2, h3, List.getElem?_eq_getElem hlt, hx]
    rfl

theorem sibling_mem {xs : List α} {k : Nat} {x : α} (hx : xs[k]? = some x) :
    (sibling xs k x).2 ∈ xs := by
  have hmem : ∀ m : Nat, (xs[m]?).getD x ∈ xs := by
    intro m
    cases hm : xs[m]? with
    | none => exact List.mem_of_getElem? hx
    | some y => exact List.mem_of_getElem? hm
  unfold sibling
  split
  · exact hmem _
  · exact hmem _

/-- The siblings met on the way up from leaf `j`, for `l` levels. -/
def path (f : α → α → α) (xs : List α) (j : Nat) (x : α) : Nat → List (Side × α)
  | 0 => []
  | l + 1 =>
    path f xs j x l ++ [sibling (level f xs l) (j / 2 ^ l) (climb f x (path f xs j x l))]

theorem length_path (f : α → α → α) (xs : List α) (j : Nat) (x : α) : ∀ l,
    (path f xs j x l).length = l
  | 0 => rfl
  | l + 1 => by simp [path, length_path f xs j x l]

/-- **Completeness.** The siblings the tree holds lead from leaf `j` to the node above it. -/
theorem climb_path {f : α → α → α} {xs : List α} {j : Nat} {x : α} (hx : xs[j]? = some x) : ∀ l,
    (level f xs l)[j / 2 ^ l]? = some (climb f x (path f xs j x l))
  | 0 => by simpa [climb, path, level] using hx
  | l + 1 => by
    have ih := climb_path (f := f) hx l
    have hstep := climbStep_sibling (f := f) ih
    rw [Nat.div_div_eq_div_mul, ← pow_succ] at hstep
    rw [path, climb_snoc]
    exact hstep

/-- The siblings of a path are nodes of the tree. -/
theorem mem_path {f : α → α → α} {xs : List α} {j : Nat} {x : α} (hx : xs[j]? = some x)
    {s : Side × α} : ∀ {l : Nat}, s ∈ path f xs j x l → ∃ m < l, s.2 ∈ level f xs m
  | 0, h => by cases h
  | l + 1, h => by
    rw [path, List.mem_append, List.mem_singleton] at h
    rcases h with h | rfl
    · obtain ⟨m, hm, hs⟩ := mem_path hx h
      exact ⟨m, Nat.lt_succ_of_lt hm, hs⟩
    · exact ⟨l, Nat.lt_succ_self l, sibling_mem (climb_path hx l)⟩

/-! ## Binding -/

/-- The pairs combined while climbing. -/
def climbPairs (f : α → α → α) : α → List (Side × α) → List (α × α)
  | _, [] => []
  | x, (.left, s) :: p => (s, x) :: climbPairs f (f s x) p
  | x, (.right, s) :: p => (x, s) :: climbPairs f (f x s) p

/-- The pairs combined in the lowest `h` levels of the tree over `xs`. -/
def treePairs (f : α → α → α) (xs : List α) (h : Nat) : List (α × α) :=
  (List.range h).flatMap fun l => pairUp (level f xs l)

theorem mem_treePairs {f : α → α → α} {xs : List α} {h : Nat} {p : α × α} :
    p ∈ treePairs f xs h ↔ ∃ l < h, p ∈ pairUp (level f xs l) := by
  simp [treePairs, List.mem_flatMap]

theorem length_climbPairs (f : α → α → α) : ∀ (p : List (Side × α)) (x : α),
    (climbPairs f x p).length = p.length
  | [], _ => rfl
  | (.left, s) :: p, x => by simp only [climbPairs, List.length_cons, length_climbPairs f p]
  | (.right, s) :: p, x => by simp only [climbPairs, List.length_cons, length_climbPairs f p]

theorem climbPairs_append (f : α → α → α) : ∀ (p q : List (Side × α)) (x : α),
    climbPairs f x (p ++ q) = climbPairs f x p ++ climbPairs f (climb f x p) q
  | [], _, _ => rfl
  | (.left, t) :: p, q, x => by
    simp only [List.cons_append, climbPairs, climbPairs_append f p q (f t x), climb,
      List.foldl_cons, climbStep]
  | (.right, t) :: p, q, x => by
    simp only [List.cons_append, climbPairs, climbPairs_append f p q (f x t), climb,
      List.foldl_cons, climbStep]

/-- A climb of `n + 1` steps arrives at what its last pair combines to. -/
theorem climb_eq_last (f : α → α → α) (x : α) {p : List (Side × α)} {n : Nat}
    (hn : p.length = n + 1) :
    ∃ q, (climbPairs f x p)[n]? = some q ∧ climb f x p = f q.1 q.2 := by
  obtain ⟨p, ⟨d, s⟩, rfl⟩ : ∃ p' t, p = p' ++ [t] := by
    refine ⟨p.dropLast, p.getLast ?_, (List.dropLast_append_getLast _).symm⟩
    rintro rfl
    cases hn
  obtain rfl : p.length = n := by simpa using hn
  rw [climbPairs_append, climb_snoc, ← length_climbPairs f p x, List.getElem?_append_right le_rfl,
    Nat.sub_self]
  cases d with
  | left => exact ⟨_, rfl, rfl⟩
  | right => exact ⟨_, rfl, rfl⟩

/-- `f` reads its arguments through `N`, and pairs of `P` and `Q` only collide when they agree
there. -/
def Binding (f : α → α → α) (N : α → α) (P Q : List (α × α)) : Prop :=
  ∀ p ∈ P, ∀ q ∈ Q, f p.1 p.2 = f q.1 q.2 → N p.1 = N q.1 ∧ N p.2 = N q.2

/-- Every node above the leaves combines a pair of the level below. -/
theorem mem_level_succ {f : α → α → α} {xs : List α} {l : Nat} {y : α} :
    y ∈ level f xs (l + 1) ↔ ∃ p ∈ pairUp (level f xs l), f p.1 p.2 = y :=
  mem_levelUp

/-- **Soundness.** A climb of `e` steps that arrives, up to `N`, at a node of level `l` started,
up to `N`, at a node of level `l - e`. The siblings are arbitrary. -/
theorem climb_sound {f : α → α → α} {N : α → α} (hN : ∀ a b, N (f a b) = f a b) {xs : List α}
    {h : Nat} {x : α} (p : List (Side × α)) :
    ∀ {l : Nat}, l ≤ h → p.length ≤ l → Binding f N (climbPairs f x p) (treePairs f xs h) →
      (∃ y ∈ level f xs l, N (climb f x p) = N y) →
      ∃ y ∈ level f xs (l - p.length), N x = N y := by
  induction p using List.reverseRecOn with
  | nil => exact fun _ _ _ hy => hy
  | append_singleton p s ih =>
    intro l hlh hpl hb hy
    obtain ⟨y, hy, heq⟩ := hy
    simp only [List.length_append, List.length_singleton] at hpl ⊢
    obtain ⟨m, rfl⟩ : ∃ m, l = m + 1 := ⟨l - 1, by omega⟩
    obtain ⟨q, hq, rfl⟩ := mem_level_succ.mp hy
    have hqt : q ∈ treePairs f xs h := mem_treePairs.mpr ⟨m, by omega, hq⟩
    obtain ⟨hq1, hq2⟩ := mem_pairUp hq
    have hb' : Binding f N (climbPairs f x p) (treePairs f xs h) := fun r hr =>
      hb r (by rw [climbPairs_append]; exact List.mem_append_left _ hr)
    rw [show m + 1 - (p.length + 1) = m - p.length from by omega]
    refine ih (by omega) (by omega) hb' ?_
    -- the last step combined the climbed node with `s` on one side; the tree's pair agrees
    rw [climb_snoc] at heq
    obtain ⟨d, t⟩ := s
    cases d with
    | left =>
      simp only [climbStep, hN] at heq
      have hmem : (t, climb f x p) ∈ climbPairs f x (p ++ [(.left, t)]) := by
        rw [climbPairs_append]; simp [climbPairs]
      exact ⟨q.2, hq2, (hb _ hmem q hqt heq).2⟩
    | right =>
      simp only [climbStep, hN] at heq
      have hmem : (climb f x p, t) ∈ climbPairs f x (p ++ [(.right, t)]) := by
        rw [climbPairs_append]; simp [climbPairs]
      exact ⟨q.1, hq1, (hb _ hmem q hqt heq).1⟩

/-- **Beyond the tree.** A climb of more than `h` steps that arrives, up to `N`, at a node of level
`h` passes, `h` steps before its end, a pair that combines to a leaf. -/
theorem climb_beyond {f : α → α → α} {N : α → α} (hN : ∀ a b, N (f a b) = f a b) {xs : List α}
    {h : Nat} {x : α} {p : List (Side × α)} (hlt : h < p.length)
    (hb : Binding f N (climbPairs f x p) (treePairs f xs h))
    (hy : ∃ y ∈ level f xs h, N (climb f x p) = N y) :
    ∃ q, (climbPairs f x p)[p.length - h - 1]? = some q ∧ ∃ y ∈ xs, f q.1 q.2 = N y := by
  obtain ⟨n, hn⟩ : ∃ n, p.length = n + 1 + h := ⟨p.length - h - 1, by omega⟩
  -- the last `h` steps start at a leaf, which the steps before them arrived at
  have hsplit : p = p.take (n + 1) ++ p.drop (n + 1) := (List.take_append_drop _ _).symm
  have htake : (p.take (n + 1)).length = n + 1 := by rw [List.length_take]; omega
  have hdrop : (p.drop (n + 1)).length = h := by rw [List.length_drop]; omega
  rw [hsplit, climb_append] at hy
  rw [hsplit, climbPairs_append] at hb
  obtain ⟨y, hyl, heq⟩ := climb_sound hN (p.drop (n + 1)) le_rfl hdrop.le
    (fun q hq => hb q (List.mem_append_right _ hq)) hy
  rw [hdrop, Nat.sub_self] at hyl
  obtain ⟨q, hq, hclimb⟩ := climb_eq_last f x htake
  refine ⟨q, ?_, y, hyl, ?_⟩
  · have hlt' : n < (climbPairs f x (p.take (n + 1))).length := by
      rw [length_climbPairs, htake]
      exact Nat.lt_succ_self n
    rw [show p.length - h - 1 = n from by omega, hsplit, climbPairs_append,
      List.getElem?_append_left hlt']
    exact hq
  · rw [← heq, hclimb, hN]

/-! ## Positions -/

/-- The index at which a path starts: bit `k` is 1 exactly if the `k`-th sibling is on the left. -/
def start : List (Side × α) → Nat
  | [] => 0
  | (.left, _) :: p => 2 * start p + 1
  | (.right, _) :: p => 2 * start p

theorem start_lt : ∀ p : List (Side × α), start p < 2 ^ p.length
  | [] => by simp [start]
  | (.left, _) :: p => by
    have := start_lt p
    simp only [start, List.length_cons, pow_succ]
    omega
  | (.right, _) :: p => by
    have := start_lt p
    simp only [start, List.length_cons, pow_succ]
    omega

theorem start_snoc_left : ∀ (p : List (Side × α)) (t : α),
    start (p ++ [(.left, t)]) = start p + 2 ^ p.length
  | [], _ => rfl
  | (.left, _) :: p, t => by
    simp only [List.cons_append, start, start_snoc_left p t, List.length_cons, pow_succ]
    omega
  | (.right, _) :: p, t => by
    simp only [List.cons_append, start, start_snoc_left p t, List.length_cons, pow_succ]
    omega

theorem start_snoc_right : ∀ (p : List (Side × α)) (t : α),
    start (p ++ [(.right, t)]) = start p
  | [], _ => rfl
  | (.left, _) :: p, t => by simp only [List.cons_append, start, start_snoc_right p t]
  | (.right, _) :: p, t => by simp only [List.cons_append, start, start_snoc_right p t]

/-- Bit `k` of the index. -/
theorem testBit_start : ∀ (p : List (Side × α)) (k : Nat),
    (start p).testBit k = true ↔ ∃ t, p[k]? = some (.left, t)
  | [], k => by simp [start]
  | (.left, t) :: p, 0 => by simp [start, Nat.testBit_zero]
  | (.right, t) :: p, 0 => by simp [start, Nat.testBit_zero]
  | (.left, t) :: p, k + 1 => by
    rw [start, Nat.testBit_succ, show (2 * start p + 1) / 2 = start p by omega, testBit_start p k,
      List.getElem?_cons_succ]
  | (.right, t) :: p, k + 1 => by
    rw [start, Nat.testBit_succ, show (2 * start p) / 2 = start p by omega, testBit_start p k,
      List.getElem?_cons_succ]

/-- Node `k` of level `l + 1` combines a pair of the level below, whose second half is the first
where that level ends. -/
theorem level_succ_pair {f : α → α → α} {xs : List α} {l k : Nat} {y : α}
    (hy : (level f xs (l + 1))[k]? = some y) :
    ∃ a, (level f xs l)[2 * k]? = some a ∧ y = f a (((level f xs l)[2 * k + 1]?).getD a) ∧
      (a, ((level f xs l)[2 * k + 1]?).getD a) ∈ pairUp (level f xs l) := by
  rw [level, getElem?_levelUp] at hy
  obtain ⟨a, ha, rfl⟩ := Option.map_eq_some_iff.mp hy
  refine ⟨a, ha, rfl, List.mem_of_getElem? (i := k) ?_⟩
  rw [getElem?_pairUp, ha]
  rfl

/-- **Binding with positions.** A climb that arrives, up to `N`, at node `k` of its level is, up to
`N`, the path of the leaf whose index the sides spell, if there is such a leaf. -/
theorem climb_binds {f : α → α → α} {N : α → α} (hN : ∀ a b, N (f a b) = f a b) {xs : List α}
    {h : Nat} {x : α} (p : List (Side × α)) :
    ∀ {j k : Nat} {y : α}, p.length ≤ h → Binding f N (climbPairs f x p) (treePairs f xs h) →
      (level f xs p.length)[k]? = some y → N (climb f x p) = N y →
      j = k * 2 ^ p.length + start p → j < xs.length →
      ∃ z, xs[j]? = some z ∧ N x = N z ∧
        p.map (Prod.map id N) = (path f xs j z p.length).map (Prod.map id N) := by
  induction p using List.reverseRecOn with
  | nil =>
    intro j k y _ _ hy heq hj _
    simp only [List.length_nil, pow_zero, Nat.mul_one, start, Nat.add_zero] at hj
    subst hj
    exact ⟨y, hy, heq, rfl⟩
  | append_singleton p s ih =>
    intro j k y hle hb hy heq hj hlt
    obtain ⟨d, t⟩ := s
    simp only [List.length_append, List.length_singleton] at hle hy hj ⊢
    obtain ⟨a, ha, rfl, hmem⟩ := level_succ_pair hy
    set b := ((level f xs p.length)[2 * k + 1]?).getD a with hbdef
    have hqt : (a, b) ∈ treePairs f xs h := mem_treePairs.mpr ⟨p.length, by omega, hmem⟩
    have hb' : Binding f N (climbPairs f x p) (treePairs f xs h) := fun r hr =>
      hb r (by rw [climbPairs_append]; exact List.mem_append_left _ hr)
    -- what is left of the last step: the climbed node below it, and its sibling
    have hlast : ∀ {k' : Nat} {y' : α}, (level f xs p.length)[k']? = some y' →
        N (climb f x p) = N y' → j = k' * 2 ^ p.length + start p →
        (d, N t) = Prod.map id N (sibling (level f xs p.length) k' y') →
        ∃ z, xs[j]? = some z ∧ N x = N z ∧ (p ++ [(d, t)]).map (Prod.map id N) =
          (path f xs j z (p.length + 1)).map (Prod.map id N) := by
      intro k' y' hy' heq' hj' hsib
      obtain ⟨z, hz, hxz, hpath⟩ := ih (by omega) hb' hy' heq' hj' hlt
      have hdiv : j / 2 ^ p.length = k' := by
        rw [hj', Nat.mul_comm, Nat.mul_add_div (Nat.two_pow_pos _),
          Nat.div_eq_of_lt (start_lt p), Nat.add_zero]
      have hclimb := climb_path (f := f) hz p.length
      rw [hdiv, hy'] at hclimb
      refine ⟨z, hz, hxz, ?_⟩
      rw [path, hdiv, ← Option.some.inj hclimb, List.map_append, List.map_append, hpath,
        List.map_singleton, List.map_singleton, ← hsib]
      rfl
    rw [climb_snoc] at heq
    cases d with
    | left =>
      simp only [climbStep, hN] at heq
      have hin : (t, climb f x p) ∈ climbPairs f x (p ++ [(.left, t)]) := by
        rw [climbPairs_append]; simp [climbPairs]
      obtain ⟨ht, hx⟩ := hb _ hin (a, b) hqt heq
      have hj' : j = (2 * k + 1) * 2 ^ p.length + start p := by
        rw [hj, start_snoc_left, pow_succ]
        ring
      -- the leaf is there, so this level has a right node and the duplicate is none
      have hright : 2 * k + 1 < (level f xs p.length).length := by
        have := lt_length_level f hlt p.length
        rwa [hj', Nat.mul_comm, Nat.mul_add_div (Nat.two_pow_pos _),
          Nat.div_eq_of_lt (start_lt p), Nat.add_zero] at this
      have hbr : (level f xs p.length)[2 * k + 1]? = some b := by
        rw [hbdef, List.getElem?_eq_getElem hright]
        rfl
      refine hlast hbr hx hj' ?_
      rw [sibling, if_neg (by omega), show 2 * k + 1 - 1 = 2 * k by omega, ha]
      exact congrArg (Prod.mk Side.left) ht
    | right =>
      simp only [climbStep, hN] at heq
      have hin : (climb f x p, t) ∈ climbPairs f x (p ++ [(.right, t)]) := by
        rw [climbPairs_append]; simp [climbPairs]
      obtain ⟨hx, ht⟩ := hb _ hin (a, b) hqt heq
      have hj' : j = 2 * k * 2 ^ p.length + start p := by
        rw [hj, start_snoc_right, pow_succ]
        ring
      refine hlast ha hx hj' ?_
      rw [sibling, if_pos (by omega)]
      exact congrArg (Prod.mk Side.right) ht

/-! ## Completing a list of leaves -/

/-- The leaves of the full tree of height `h` that the duplications of `pairUp` make of `xs`. -/
def complete : Nat → {α : Type} → List α → List α
  | 0, _, xs => xs
  | h + 1, _, xs => (complete h (pairUp xs)).flatMap fun p => [p.1, p.2]

theorem pairUp_map (g : α → β) : ∀ xs : List α,
    pairUp (xs.map g) = (pairUp xs).map fun p => (g p.1, g p.2)
  | [] => rfl
  | [_] => rfl
  | a :: b :: xs => by simp [pairUp, pairUp_map g xs]

theorem complete_map : ∀ (h : Nat) {α β : Type} (g : α → β) (xs : List α),
    complete h (xs.map g) = (complete h xs).map g
  | 0, _, _, _, _ => rfl
  | h + 1, α, _, g, xs => by
    simp only [complete]
    rw [pairUp_map, complete_map h fun p : α × α => (g p.1, g p.2)]
    simp [List.flatMap_map, List.map_flatMap]

theorem mem_complete : ∀ (h : Nat) {α : Type} {xs : List α} {a : α},
    a ∈ complete h xs ↔ a ∈ xs
  | 0, _, _, _ => Iff.rfl
  | h + 1, _, xs, a => by
    simp only [complete, List.mem_flatMap, mem_complete h]
    constructor
    · rintro ⟨p, hp, ha⟩
      obtain ⟨h1, h2⟩ := mem_pairUp hp
      rcases List.mem_cons.mp ha with rfl | ha
      · exact h1
      · exact List.mem_singleton.mp ha ▸ h2
    · intro ha
      obtain ⟨p, hp, rfl | rfl⟩ := mem_pairUp_of_mem ha
      · exact ⟨p, hp, by simp⟩
      · exact ⟨p, hp, by simp⟩

theorem flatMap_pair_inj : ∀ {xs ys : List (α × α)},
    (xs.flatMap fun p => [p.1, p.2]) = (ys.flatMap fun p => [p.1, p.2]) → xs = ys
  | [], [], _ => rfl
  | [], _ :: _, h => by simp at h
  | _ :: _, [], h => by simp at h
  | (a, b) :: xs, (c, d) :: ys, h => by
    simp only [List.flatMap_cons, List.cons_append, List.nil_append, List.cons.injEq] at h
    obtain ⟨rfl, rfl, h⟩ := h
    rw [flatMap_pair_inj h]

theorem pairUp_inj : ∀ {xs ys : List α}, xs.length = ys.length → pairUp xs = pairUp ys → xs = ys
  | [], [], _, _ => rfl
  | [], _ :: _, hl, _ => by simp at hl
  | _ :: _, [], hl, _ => by simp at hl
  | [a], [b], _, h => by simpa [pairUp] using h
  | [_], _ :: _ :: _, hl, _ => by simp at hl
  | _ :: _ :: _, [_], hl, _ => by simp at hl
  | a :: b :: xs, c :: d :: ys, hl, h => by
    simp only [pairUp, List.cons.injEq, Prod.mk.injEq] at h
    obtain ⟨⟨rfl, rfl⟩, h⟩ := h
    rw [pairUp_inj (by simpa using hl) h]

/-- Lists of one length with the same completion are equal. -/
theorem complete_inj : ∀ (h : Nat) {α : Type} {xs ys : List α}, xs.length = ys.length →
    complete h xs = complete h ys → xs = ys
  | 0, _, _, _, _, he => he
  | h + 1, _, xs, ys, hl, he => by
    have hp := complete_inj h (by rw [length_pairUp, length_pairUp, hl]) (flatMap_pair_inj he)
    exact pairUp_inj hl hp

theorem map_inj_on {g : α → β} : ∀ {xs ys : List α},
    (∀ a ∈ xs, ∀ b ∈ ys, g a = g b → a = b) → xs.map g = ys.map g → xs = ys
  | [], [], _, _ => rfl
  | [], _ :: _, _, h => by simp at h
  | _ :: _, [], _, h => by simp at h
  | a :: xs, b :: ys, hg, h => by
    simp only [List.map_cons, List.cons.injEq] at h
    have hab := hg a List.mem_cons_self b List.mem_cons_self h.1
    have ht := map_inj_on
      (fun c hc d hd => hg c (List.mem_cons_of_mem _ hc) d (List.mem_cons_of_mem _ hd)) h.2
    rw [hab, ht]

/-- **The root commits to the completed leaves.** Two trees whose pairs only collide when equal
and that agree `h` levels up have the same completed leaves. -/
theorem complete_eq_of_level_eq {f : α → α → α} : ∀ (h : Nat) {xs ys : List α},
    (∀ p ∈ treePairs f xs h, ∀ q ∈ treePairs f ys h, f p.1 p.2 = f q.1 q.2 → p = q) →
      level f xs h = level f ys h → complete h xs = complete h ys
  | 0, _, _, _, he => he
  | h + 1, xs, ys, hinj, he => by
    have shift : ∀ {zs : List α} {p : α × α}, p ∈ treePairs f (levelUp f zs) h →
        p ∈ treePairs f zs (h + 1) := by
      intro zs p hp
      obtain ⟨l, hl, hp⟩ := mem_treePairs.mp hp
      rw [level_levelUp] at hp
      exact mem_treePairs.mpr ⟨l + 1, by omega, hp⟩
    have ih : complete h (levelUp f xs) = complete h (levelUp f ys) :=
      complete_eq_of_level_eq h (fun p hp q hq => hinj p (shift hp) q (shift hq))
        (by rw [level_levelUp, level_levelUp, he])
    simp only [levelUp, complete_map] at ih
    have hpairs : complete h (pairUp xs) = complete h (pairUp ys) := by
      refine map_inj_on (fun p hp q hq heq => ?_) ih
      have hpx : p ∈ treePairs f xs (h + 1) :=
        mem_treePairs.mpr ⟨0, by omega, (mem_complete h).mp hp⟩
      have hqy : q ∈ treePairs f ys (h + 1) :=
        mem_treePairs.mpr ⟨0, by omega, (mem_complete h).mp hq⟩
      exact hinj p hpx q hqy heq
    simp only [complete, hpairs]

end DupTree
