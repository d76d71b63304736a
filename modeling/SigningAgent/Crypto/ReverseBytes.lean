import SigningAgent.Go
import SigningAgent.Lib.Reversal

/-!
# Reversing byte slices (`crypto/blsv2.go`)

`reverseBytes` fills a new slice of zeros two positions at a time, from the middle outwards.
`crossAssign` is the assignment in its loop, which `String` and `Decode` of `crypto/hash.go` make as
well, over other ranges and into other slices. Every index is checked.

Results:
* `foldlM_crossAssign`: the loops do not panic, and write the pairs they go over.
* **`reverses_iff`**: the slice is reversed if and only if its length is even or its middle byte is
  zero. No round writes the middle of a slice of odd length.
-/

namespace SigningAgent.Crypto

open Reversal

variable {ε α : Type}

/-! ## The loops -/

/-- `dst[i], dst[opp] = src[opp], src[i]`, where `opp = len(src) - 1 - i`. -/
def crossAssign (src dst : List α) (i : Nat) : Outcome ε (List α) := do
  let opp := src.length - 1 - i
  let x ← index src opp
  let y ← index src i
  let dst ← setAt dst i x
  setAt dst opp y

/-- `reverseBytes`. -/
def reverseBytes (a : Bytes) : Outcome ε Bytes :=
  (List.range (a.length / 2)).reverse.foldlM (crossAssign a) (List.replicate a.length 0)

/-- In the first half of a slice the assignment is in range. -/
theorem crossAssign_ok {src dst : List α} {i : Nat} (hlen : dst.length = src.length)
    (hi : i < src.length / 2) : ∃ x y, src[src.length - 1 - i]? = some x ∧ src[i]? = some y ∧
      (crossAssign src dst i : Outcome ε _) = .ok ((dst.set i x).set (src.length - 1 - i) y) := by
  have hx := List.getElem?_eq_getElem (show src.length - 1 - i < src.length by omega)
  have hy := List.getElem?_eq_getElem (show i < src.length by omega)
  refine ⟨_, _, hx, hy, ?_⟩
  unfold crossAssign
  simp only [index_ok hx, index_ok hy, bind, Except.bind]
  rw [setAt_ok (by omega)]
  exact setAt_ok (by rw [List.length_set]; omega) _

/-- What is done after the round of `i` and the others. -/
theorem done_cons (i : Nat) (is : List Nat) (S : Set Nat) :
    {j | j ∈ is ∨ j ∈ insert i S} = {j | j ∈ i :: is ∨ j ∈ S} := by
  ext j
  simp only [Set.mem_ofPred_eq, Set.mem_insert_iff, List.mem_cons]
  tauto

/-- What a round reads is, of its pair, as it was in `src`: because it reads from `src`, or because
it reads from a slice whose pair has not been written yet. -/
def Reads (src dst : List α) (read : List α → List α) : Prop :=
  ∀ S b i, Crossed src dst S b → i < src.length / 2 → i ∉ S →
    (read b).length = src.length ∧ (read b)[i]? = src[i]? ∧
      (read b)[src.length - 1 - i]? = src[src.length - 1 - i]?

theorem reads_src (src dst : List α) : Reads src dst fun _ => src :=
  fun _ _ _ _ _ _ => ⟨rfl, rfl, rfl⟩

theorem reads_self (xs : List α) : Reads xs xs id := by
  intro S b i h hi hnew
  have hpair : pair xs.length i = i := (pair_eq_iff hi (by omega)).mpr (.inl rfl)
  have hopp : pair xs.length (xs.length - 1 - i) = i :=
    (pair_eq_iff hi (by omega)).mpr (.inr rfl)
  exact ⟨h.length, h.kept i (by omega) (by rwa [hpair]), h.kept _ (by omega) (by rwa [hopp])⟩

/-- **The loops** write the pairs they go over, and come to none twice. -/
theorem foldlM_crossAssign {src dst b : List α} {S : Set Nat} {is : List Nat}
    {read : List α → List α} (hread : Reads src dst read) (h : Crossed src dst S b)
    (his : ∀ i ∈ is, i < src.length / 2) (hnew : ∀ i ∈ is, i ∉ S) (hnodup : is.Nodup) :
    ∃ b', is.foldlM (fun b i => crossAssign (read b) b i) b = (.ok b' : Outcome ε _) ∧
      Crossed src dst {i | i ∈ is ∨ i ∈ S} b' := by
  induction is generalizing b S with
  | nil => exact ⟨b, rfl, by simpa using h⟩
  | cons i is ih =>
    rw [List.forall_mem_cons] at his hnew
    rw [List.nodup_cons] at hnodup
    obtain ⟨hlen, hi, hopp⟩ := hread S b i h his.1 hnew.1
    obtain ⟨x, y, hx, hy, hassign⟩ := @crossAssign_ok ε α (read b) b i (by rw [h.length, hlen])
      (by rw [hlen]; exact his.1)
    rw [hlen, hopp] at hx
    rw [hi] at hy
    rw [hlen] at hassign
    have hnew' : ∀ j ∈ is, j ∉ insert i S := by
      rintro j hj (rfl | hS)
      · exact hnodup.1 hj
      · exact hnew.2 j hj hS
    obtain ⟨b', hb', hcrossed⟩ := ih (h.insert his.1 hx hy) his.2 hnew' hnodup.2
    refine ⟨b', by rw [List.foldlM_cons, hassign]; exact hb', ?_⟩
    rwa [done_cons] at hcrossed

/-- Over all pairs, a slice of even length is copied in reverse. -/
theorem foldlM_crossAssign_all {src dst : List α} (hlen : dst.length = src.length)
    (heven : src.length % 2 = 0) :
    (List.range (src.length / 2)).foldlM (crossAssign src) dst =
      (.ok src.reverse : Outcome ε _) := by
  obtain ⟨b, hb, hcrossed⟩ := @foldlM_crossAssign ε _ _ _ _ _ _ _ (reads_src src dst)
    (Crossed.empty hlen) (fun _ => List.mem_range.mp) (fun _ _ => Set.notMem_empty _)
    List.nodup_range
  rw [hb, hcrossed.eq_reverse (fun i hi => .inl (List.mem_range.mpr hi)) (by omega)]

/-- Over all pairs, a slice of even length is reversed in place. -/
theorem foldlM_swap_all {xs : List α} (heven : xs.length % 2 = 0) :
    (List.range (xs.length / 2)).foldlM (fun b i => crossAssign b b i) xs =
      (.ok xs.reverse : Outcome ε _) := by
  obtain ⟨b, hb, hcrossed⟩ := @foldlM_crossAssign ε _ _ _ _ _ _ _ (reads_self xs)
    (Crossed.empty rfl) (fun _ => List.mem_range.mp) (fun _ _ => Set.notMem_empty _)
    List.nodup_range
  simp only [id_eq] at hb
  rw [hb, hcrossed.eq_reverse (fun i hi => .inl (List.mem_range.mpr hi)) (by omega)]

/-! ## `reverseBytes` -/

/-- All pairs are written. -/
theorem reverseBytes_crossed (a : Bytes) : ∃ b, reverseBytes a = (.ok b : Outcome ε _) ∧
    Crossed a (List.replicate a.length 0) {i | i < a.length / 2} b := by
  have hstart : Crossed a (List.replicate a.length 0) ∅ (List.replicate a.length 0) :=
    Crossed.empty List.length_replicate
  have hnodup : (List.range (a.length / 2)).reverse.Nodup :=
    List.pairwise_reverse.mpr (List.nodup_range.imp Ne.symm)
  obtain ⟨b, hb, hcrossed⟩ := @foldlM_crossAssign ε _ _ _ _ _ _ _ (reads_src a _) hstart
    (by simp) (fun _ _ => Set.notMem_empty _) hnodup
  exact ⟨b, hb, by simpa using hcrossed⟩

/-- The middle of a slice of odd length stays zero. -/
theorem reverseBytes_middle {a b : Bytes} (h : reverseBytes a = (.ok b : Outcome ε _))
    (hodd : a.length % 2 = 1) : b[a.length / 2]? = some 0 := by
  obtain ⟨b', hb', hcrossed⟩ := @reverseBytes_crossed ε a
  cases h.symm.trans hb'
  rw [hcrossed.kept _ (by omega) ?_, List.getElem?_replicate, if_pos (by omega)]
  unfold pair
  rw [Set.mem_ofPred_eq]
  omega

/-- No round is needed for a zero in the middle. -/
def MiddleZero (a : Bytes) : Prop := a.length % 2 = 0 ∨ a[a.length / 2]? = some 0

instance (a : Bytes) : Decidable (MiddleZero a) := inferInstanceAs (Decidable (_ ∨ _))

theorem reverseBytes_eq {a : Bytes} (h : MiddleZero a) :
    reverseBytes a = (.ok a.reverse : Outcome ε _) := by
  obtain ⟨b, hb, hcrossed⟩ := @reverseBytes_crossed ε a
  have hrev : b = a.reverse := by
    refine hcrossed.eq_reverse (fun i hi => hi) fun hodd => ?_
    rw [reverseBytes_middle hb hodd, h.resolve_left (by omega)]
  rw [hb, hrev]

/-- What is reversed has the same middle. -/
theorem MiddleZero.reverse {a : Bytes} (h : MiddleZero a) : MiddleZero a.reverse := by
  unfold MiddleZero
  rw [List.length_reverse]
  by_cases heven : a.length % 2 = 0
  · exact .inl heven
  · right
    rw [List.getElem?_reverse (by omega),
      show a.length - 1 - a.length / 2 = a.length / 2 by omega]
    exact h.resolve_left heven

/-- `reverseBytes` keeps the length, mirrors every index, and undoes itself. -/
def Reverses (a : Bytes) : Prop :=
  ∃ b, reverseBytes a = (.ok b : Outcome Empty _) ∧ b.length = a.length ∧
    (∀ i, i < a.length → b[i]? = a[a.length - 1 - i]?) ∧
    reverseBytes b = (.ok a : Outcome Empty _)

/-- **A slice is reversed** if and only if it has no middle byte, or a zero there. -/
theorem reverses_iff (a : Bytes) : Reverses a ↔ MiddleZero a := by
  constructor
  · rintro ⟨b, hb, -, hmirror, -⟩
    by_cases heven : a.length % 2 = 0
    · exact .inl heven
    · right
      have hmid := hmirror (a.length / 2) (by omega)
      rw [reverseBytes_middle hb (by omega),
        show a.length - 1 - a.length / 2 = a.length / 2 by omega] at hmid
      exact hmid.symm
  · intro h
    have hback := @reverseBytes_eq Empty _ h.reverse
    rw [List.reverse_reverse] at hback
    exact ⟨a.reverse, reverseBytes_eq h, List.length_reverse,
      fun i hi => List.getElem?_reverse hi, hback⟩

/-- **A single byte is lost**: it comes back as zero. -/
theorem reverseBytes_drops_middle : ¬ ∀ a, Reverses a := by
  intro hall
  obtain ⟨b, hb, -, hmirror, -⟩ := hall [1]
  have hbyte : b[0]? = some 1 := hmirror 0 (by decide)
  rw [show b[0]? = some 0 from reverseBytes_middle hb (by decide)] at hbyte
  exact absurd hbyte (by decide)

end SigningAgent.Crypto
