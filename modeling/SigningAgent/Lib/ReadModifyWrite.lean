import SigningAgent.Lib.System
import Mathlib.Data.List.Perm.Basic
import Mathlib.Data.List.Nodup

/-!
# Read, modify, write back

Any number of calls share a cell of type `W` that encodes a value of type `R`. A call reads the
value, and in a later step writes back its operation applied to **what it has read**. Nothing
holds the cell in between.

* `Port` is the access to the cell: decode, and overwrite with the encoding of a value.
* `system` interleaves the two steps of all calls. `written` records who wrote, in order.
* `Current` is the condition on a write: the operation gives the same on what the call has read
  and on what the cell holds now.

Results:
* **`linear`**: in every run whose writes are all `Current`, the cell holds the operations of the
  calls that have written, applied one after another in the order of the writes.
* `linear_of_returned`: once all calls have returned, these are all of them.
-/

namespace ReadModifyWrite

open Transition

variable {R W O : Type}

/-- The access to a cell: what is written is what is read. -/
structure Port (R W : Type) where
  read : W → Option R
  write : R → W → W
  read_write : ∀ r w, read (write r w) = some r

/-- How far a call is. -/
inductive Phase (R : Type) where
  | ready
  | read (v : R)
  | done
  | failed
  deriving DecidableEq, Repr

def Phase.returned : Phase R → Bool
  | .done | .failed => true
  | _ => false

structure Call (R O : Type) where
  op : O
  phase : Phase R
  deriving DecidableEq, Repr

structure State (R W O : Type) where
  cell : W
  calls : List (Call R O)
  written : List (Nat × O)

inductive Label (O : Type) where
  | start (op : O)
  | read (i : Nat)
  | write (i : Nat)
  deriving DecidableEq, Repr

/-- Call `i`, so far `c`, goes on to phase `p`. -/
def State.goto (i : Nat) (c : Call R O) (p : Phase R) (s : State R W O) : State R W O :=
  { s with calls := s.calls.set i { c with phase := p } }

variable (P : Port R W) (apply : O → R → R)

def step : Label O → State R W O → Option (State R W O)
  | .start op, s => some { s with calls := s.calls ++ [⟨op, .ready⟩] }
  | .read i, s =>
    match s.calls[i]? with
    | some ⟨op, .ready⟩ =>
      match P.read s.cell with
      | some v => some (s.goto i ⟨op, .ready⟩ (.read v))
      | none => some (s.goto i ⟨op, .ready⟩ .failed)
    | _ => none
  | .write i, s =>
    match s.calls[i]? with
    | some ⟨op, .read v⟩ =>
      some { s.goto i ⟨op, .read v⟩ .done with
        cell := P.write (apply op v) s.cell
        written := s.written ++ [(i, op)] }
    | _ => none

/-- All interleavings, from a cell that holds `r0`. -/
def system (r0 : R) : System (State R W O) (Label O) where
  init s := P.read s.cell = some r0 ∧ s.calls = [] ∧ s.written = []
  step := step P apply

/-- The condition on a write: see the header. -/
def Current (s : State R W O) : Label O → Prop
  | .write i => ∀ op v r, s.calls[i]? = some ⟨op, .read v⟩ → P.read s.cell = some r →
      apply op v = apply op r
  | _ => True

/-- Apply operations one after another. -/
def applyAll (r : R) (ops : List O) : R := ops.foldl (fun r op => apply op r) r

/-- The invariant: the cell holds the operations written so far, and these are the finished
calls. -/
structure Inv (r0 : R) (s : State R W O) : Prop where
  value : P.read s.cell = some (applyAll apply r0 (s.written.map Prod.snd))
  nodup : (s.written.map Prod.fst).Nodup
  mem : ∀ i op, (i, op) ∈ s.written ↔ s.calls[i]? = some ⟨op, .done⟩
  failed : ∀ c ∈ s.calls, c.phase ≠ .failed

variable {P apply} {r0 : R} {s s' : State R W O}

theorem applyAll_concat (r : R) (ops : List O) (op : O) :
    applyAll apply r (ops ++ [op]) = apply op (applyAll apply r ops) := by
  unfold applyAll
  rw [List.foldl_append]
  rfl

/-- The calls after one of them moved on. -/
theorem getElem?_goto {i : Nat} {c : Call R O} {p : Phase R} (hc : s.calls[i]? = some c)
    (j : Nat) : (s.goto i c p).calls[j]? =
      if j = i then some { c with phase := p } else s.calls[j]? := by
  have hlt : i < s.calls.length := (List.getElem?_eq_some_iff.mp hc).1
  unfold State.goto
  by_cases hj : j = i
  · subst hj
    rw [if_pos rfl, List.getElem?_set_self hlt]
  · rw [if_neg hj, List.getElem?_set_ne (Ne.symm hj)]

theorem failed_goto {i : Nat} {c : Call R O} {p : Phase R} (hp : p ≠ .failed)
    (hs : ∀ d ∈ s.calls, d.phase ≠ .failed) : ∀ d ∈ (s.goto i c p).calls, d.phase ≠ .failed := by
  intro d hd
  rcases List.mem_or_eq_of_mem_set hd with hd | rfl
  · exact hs d hd
  · exact hp

/-- The step lemma. -/
theorem Inv.step {a : Label O} (hi : Inv P apply r0 s) (hw : Current P apply s a)
    (hs : step P apply a s = some s') : Inv P apply r0 s' := by
  cases a with
  | start op =>
    cases hs
    refine ⟨hi.value, hi.nodup, fun i op' => ?_, fun c hc => ?_⟩
    · rw [hi.mem]
      by_cases hlt : i < s.calls.length
      · rw [List.getElem?_append_left hlt]
      · rw [List.getElem?_append_right (by omega), List.getElem?_eq_none (by omega)]
        constructor
        · intro h
          cases h
        · intro h
          cases List.mem_singleton.mp (List.mem_of_getElem? h)
    · rcases List.mem_append.mp hc with hc | hc
      · exact hi.failed c hc
      · rw [List.mem_singleton.mp hc]
        simp
  | read i =>
    simp only [ReadModifyWrite.step] at hs
    split at hs
    · rename_i op hc
      rw [hi.value] at hs
      cases hs
      refine ⟨hi.value, hi.nodup, fun j op' => ?_, failed_goto (by simp) hi.failed⟩
      rw [getElem?_goto hc]
      by_cases hj : j = i
      · subst hj
        rw [if_pos rfl]
        refine (hi.mem j op').trans ?_
        rw [hc]
        simp
      · rw [if_neg hj]
        exact hi.mem j op'
    · cases hs
  | write i =>
    simp only [ReadModifyWrite.step] at hs
    split at hs
    · rename_i op v hc
      have hcur := hw op v _ hc hi.value
      cases hs
      have hnew : ∀ op', (i, op') ∉ s.written := by
        intro op' hm
        rw [hi.mem, hc] at hm
        cases hm
      refine ⟨?_, ?_, fun j op' => ?_, failed_goto (by simp) hi.failed⟩
      · rw [P.read_write, List.map_append, hcur]
        exact congrArg some (applyAll_concat ..).symm
      · rw [List.map_append]
        refine List.Nodup.append hi.nodup (List.nodup_singleton i) ?_
        intro j hj hj'
        obtain rfl := List.mem_singleton.mp hj'
        obtain ⟨⟨k, op'⟩, hm, rfl⟩ := List.mem_map.mp hj
        exact hnew op' hm
      · rw [List.mem_append, List.mem_singleton]
        show _ ↔ (s.goto i ⟨op, .read v⟩ .done).calls[j]? = _
        rw [getElem?_goto hc]
        by_cases hj : j = i
        · subst hj
          rw [if_pos rfl]
          constructor
          · rintro (hm | he)
            · exact absurd hm (hnew op')
            · cases he
              rfl
          · intro he
            cases he
            exact Or.inr rfl
        · rw [if_neg hj]
          refine ⟨?_, fun h => Or.inl ((hi.mem j op').mpr h)⟩
          rintro (hm | he)
          · exact (hi.mem j op').mp hm
          · cases he
            exact absurd rfl hj
    · cases hs

/-- **Linearity.** In a run whose writes are all current, the cell holds the operations written,
in the order of the writes. -/
theorem linear (hr : (system P apply r0).ReachableBy (Current P apply) s) : Inv P apply r0 s := by
  refine hr.invariant ?_ fun s a s' hi hw hs => hi.step hw hs
  rintro s ⟨hread, hcalls, hwritten⟩
  refine ⟨by rw [hread, hwritten]; rfl, by simp [hwritten], fun i op => ?_, by simp [hcalls]⟩
  simp [hwritten, hcalls]

/-- When every call has returned, the operations written are those of all calls. -/
theorem Inv.perm (hi : Inv P apply r0 s) (hret : ∀ c ∈ s.calls, c.phase.returned = true) :
    (s.written.map Prod.snd).Perm (s.calls.map Call.op) := by
  have hdone : ∀ (i : Nat) (c : Call R O), s.calls[i]? = some c → (i, c.op) ∈ s.written := by
    intro i c hc
    have hm := List.mem_of_getElem? hc
    obtain ⟨op, phase⟩ := c
    rw [hi.mem]
    cases phase with
    | done => exact hc
    | failed => exact absurd rfl (hi.failed _ hm)
    | ready => cases hret _ hm
    | read v => cases hret _ hm
  have hperm : s.written.Perm (s.calls.zipIdx.map fun p => (p.2, p.1.op)) := by
    refine (List.perm_ext_iff_of_nodup (hi.nodup.of_map _) ?_).mpr ?_
    · refine List.Nodup.of_map Prod.fst ?_
      rw [List.map_map]
      show (s.calls.zipIdx.map Prod.snd).Nodup
      rw [List.zipIdx_map_snd]
      exact List.nodup_range' ..
    · rintro ⟨i, op⟩
      constructor
      · intro hm
        have hc := (hi.mem i op).mp hm
        exact List.mem_map.mpr ⟨(⟨op, .done⟩, i), List.mem_zipIdx_iff_getElem?.mpr hc, rfl⟩
      · intro hm
        obtain ⟨⟨c, j⟩, hmem, he⟩ := List.mem_map.mp hm
        cases he
        exact hdone _ c (List.mem_zipIdx_iff_getElem?.mp hmem)
  refine (hperm.map Prod.snd).trans ?_
  rw [List.map_map]
  show (s.calls.zipIdx.map fun p => p.1.op).Perm _
  have : (s.calls.zipIdx.map fun p => p.1.op) = (s.calls.zipIdx.map Prod.fst).map Call.op := by
    rw [List.map_map]
    rfl
  rw [this, List.zipIdx_map_fst]

/-- **No lost update.** Once every call has returned, the cell holds the operations of all calls,
applied one after another in some order. -/
theorem linear_of_returned (hr : (system P apply r0).ReachableBy (Current P apply) s)
    (hret : ∀ c ∈ s.calls, c.phase.returned = true) :
    ∃ ops, ops.Perm (s.calls.map Call.op) ∧ P.read s.cell = some (applyAll apply r0 ops) :=
  ⟨s.written.map Prod.snd, (linear hr).perm hret, (linear hr).value⟩

end ReadModifyWrite
