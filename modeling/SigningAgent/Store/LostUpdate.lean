import SigningAgent.Store.Oci

/-!
# Concurrent calls of `Set` and `Del`

In all three remote stores a call reads the map under the read lock and writes it back under the
write lock, and gives the first up before it takes the second. Reads do not overlap writes, and
each phase reads or writes the secret once, so the phases are the steps: a store is a cell that
calls read, modify and write back (`ReadModifyWrite`).

What another call has written between the two phases is overwritten (`lost_update`). `FileStore`,
which holds one lock over the whole call, does not do this. What the remote stores do guarantee:

* `Fresh` is the condition on a write: since the call has read the map, no key but its own has
  changed.
* **`no_lost_update`**: for each store, in every run whose writes are all `Fresh`, the map in the
  secret is in the end that of all calls made one after another in some order.
-/

namespace SigningAgent.Store

open Transition ReadModifyWrite

namespace RemoteStore

variable {σ : Type} (st : RemoteStore σ)

/-- All interleavings of the phases of `Set` and `Del` calls, on a secret that holds `m0`. -/
def calls (m0 : KVMap) : System (State KVMap σ Op) (Label Op) := system st.port Op.apply m0

/-- The condition on a step: see the header. -/
def Fresh (s : State KVMap σ Op) : Label Op → Prop
  | .write i =>
    match s.calls[i]?, readConfig st.getSecret s.cell with
    | some ⟨op, .read v⟩, .ok m => v.erase op.key = m.erase op.key
    | _, _ => True
  | _ => True

instance (s : State KVMap σ Op) : ∀ a, Decidable (st.Fresh s a)
  | .start _ | .read _ => isTrue trivial
  | .write i => by
    unfold Fresh
    simp only
    split <;> infer_instance

variable {st}

/-- A call changes its own key only, and to the same whatever was there. -/
theorem apply_eq_of_erase_eq {op : Op} {v m : KVMap} (h : v.erase op.key = m.erase op.key) :
    op.apply v = op.apply m := by
  cases op with
  | del key => exact h
  | set key data =>
    refine Finmap.ext_lookup fun k => ?_
    unfold Op.apply
    by_cases hk : k = key
    · subst hk
      rw [Finmap.lookup_insert, Finmap.lookup_insert]
    · have hlookup := congrArg (Finmap.lookup k) h
      simp only [Op.key, Finmap.lookup_erase_ne hk] at hlookup
      rw [Finmap.lookup_insert_of_ne _ hk, Finmap.lookup_insert_of_ne _ hk, hlookup]

theorem port_read {s : σ} {m : KVMap} :
    st.port.read s = some m ↔ readConfig st.getSecret s = .ok m := by
  show (readConfig st.getSecret s).toOption = some m ↔ _
  cases readConfig st.getSecret s <;> simp [Except.toOption]

/-- A fresh write is a current one. -/
theorem Fresh.current {s : State KVMap σ Op} {a : Label Op} (h : st.Fresh s a) :
    Current st.port Op.apply s a := by
  cases a with
  | start op => trivial
  | read i => trivial
  | write i =>
    intro op v m hc hm
    simp only [Fresh, hc, port_read.mp hm] at h
    exact apply_eq_of_erase_eq h

/-- An uninterrupted call is its two phases. -/
theorem call_eq_steps (op : Op) (s : State KVMap σ Op) {m : KVMap}
    (hm : readConfig st.getSecret s.cell = .ok m) :
    ∃ s', ((step st.port Op.apply (.start op) s).bind
        (step st.port Op.apply (.read s.calls.length))).bind
          (step st.port Op.apply (.write s.calls.length)) = some s' ∧
      st.call op s.cell = .ok s'.cell := by
  obtain ⟨w, hw, -⟩ := st.readConfig_writeConfig (op.apply m) s.cell
  have hcell : st.port.write (op.apply m) s.cell = w := by
    show (st.writeConfig (op.apply m) s.cell).toOption.getD s.cell = w
    rw [hw]
    rfl
  refine ⟨⟨w, s.calls ++ [⟨op, .done⟩], s.written ++ [(s.calls.length, op)]⟩, ?_, ?_⟩
  · simp [step, State.goto, port_read.mpr hm, hcell]
  · unfold call
    rw [hm]
    exact hw

end RemoteStore

/-- After operations among which `set key data` is the only one on its key, the key is there. -/
theorem lookup_applyAll {key : String} {data : Bytes} (m : KVMap) {ops : List Op}
    (hmem : .set key data ∈ ops) (hkey : ∀ op ∈ ops, op.key = key → op = .set key data) :
    (applyAll Op.apply m ops).lookup key = some data := by
  induction ops using List.reverseRecOn with
  | nil => cases hmem
  | append_singleton ops op ih =>
    rw [applyAll_concat]
    by_cases hop : op.key = key
    · rw [hkey op (by simp) hop]
      exact Finmap.lookup_insert _
    · have hmem : .set key data ∈ ops := by
        rcases List.mem_append.mp hmem with h | h
        · exact h
        · rw [← List.mem_singleton.mp h] at hop
          exact absurd rfl hop
      have hops := ih hmem fun op' h => hkey op' (List.mem_append_left _ h)
      cases op with
      | set k d => rw [← hops]; exact Finmap.lookup_insert_of_ne _ (Ne.symm hop)
      | del k => rw [← hops]; exact Finmap.lookup_erase_ne (Ne.symm hop)

/-- The `type` of the store in the configuration, for the remote stores. -/
inductive StoreType where
  | aws
  | oci
  | gcp
  deriving DecidableEq, Repr

/-- Where a store of the type keeps its map. -/
def StoreType.Secret : StoreType → Type
  | .aws => AwsSecret
  | .oci => OciVault
  | .gcp => GcpSecret

/-- `CreateStore`, for the remote stores. -/
def StoreType.createStore : (type : StoreType) → RemoteStore type.Secret
  | .aws => awsStore
  | .oci => ociStore
  | .gcp => gcpStore

/-- **No lost update, if writes are fresh.** For each remote store: in every run of `Set` and `Del`
calls whose writes are all `Fresh`, once all calls have returned, the map in the secret is that of
the calls made one after another in some order. -/
theorem no_lost_update (type : StoreType) (m0 : KVMap) (s : State KVMap type.Secret Op)
    (hr : (type.createStore.calls m0).ReachableBy type.createStore.Fresh s)
    (hret : ∀ c ∈ s.calls, c.phase.returned = true) :
    ∃ ops, ops.Perm (s.calls.map Call.op) ∧
      readConfig type.createStore.getSecret s.cell = .ok (applyAll Op.apply m0 ops) := by
  obtain ⟨ops, hperm, hread⟩ :=
    linear_of_returned (hr.mono fun _ _ => RemoteStore.Fresh.current) hret
  exact ⟨ops, hperm, RemoteStore.port_read.mp hread⟩

/-! ## Samples -/

/-- A secret that holds the empty map. -/
def sampleAws : State KVMap AwsSecret Op := ⟨.secretBinary (.json ∅), [], []⟩

/-- `no_lost_update` for two calls of `Set`: the second one reads what the first has written. -/
theorem no_lost_update_sample :
    ∃ s ops, (awsStore.calls ∅).ReachableBy awsStore.Fresh s ∧
      ops.Perm [Op.set "a" [1], Op.set "b" [2]] ∧
      readConfig awsStore.getSecret s.cell = .ok (applyAll Op.apply ∅ ops) := by
  obtain ⟨s, hr, hs⟩ := System.exists_reachableBy (M := awsStore.calls ∅) (G := awsStore.Fresh)
    (g := fun s a => decide (awsStore.Fresh s a)) (fun _ _ => of_decide_eq_true) (s := sampleAws)
    ⟨rfl, rfl, rfl⟩
    [.start (.set "a" [1]), .start (.set "b" [2]), .read 0, .write 0, .read 1, .write 1]
    (fun s => decide (s.calls = [⟨.set "a" [1], .done⟩, ⟨.set "b" [2], .done⟩]))
    (by decide +kernel)
  have hcalls := of_decide_eq_true hs
  obtain ⟨ops, hperm, hread⟩ :=
    no_lost_update .aws ∅ s hr (by simp [hcalls, Phase.returned])
  rw [hcalls] at hperm
  exact ⟨s, ops, hr, hperm, hread⟩

/-- **A lost update.** Two calls read the empty map, then each writes its own key: the second
write removes the key of the first. -/
theorem lost_update :
    ¬ ∀ (type : StoreType) (m0 : KVMap) (s : State KVMap type.Secret Op),
      (type.createStore.calls m0).Reachable s → (∀ c ∈ s.calls, c.phase.returned = true) →
      ∃ ops, ops.Perm (s.calls.map Call.op) ∧
        readConfig type.createStore.getSecret s.cell = .ok (applyAll Op.apply m0 ops) := by
  intro hall
  obtain ⟨s, hr, hs⟩ := System.exists_reachable (M := awsStore.calls ∅) (s := sampleAws)
    ⟨rfl, rfl, rfl⟩
    [.start (.set "a" [1]), .start (.set "b" [2]), .read 0, .read 1, .write 0, .write 1]
    (fun s => decide (s.calls = [⟨.set "a" [1], .done⟩, ⟨.set "b" [2], .done⟩]) &&
      decide (s.cell = .secretBinary (.json ((∅ : KVMap).insert "b" [2])))) (by decide +kernel)
  simp only [Bool.and_eq_true, decide_eq_true_eq] at hs
  obtain ⟨hcalls, hcell⟩ := hs
  obtain ⟨ops, hperm, hread⟩ := hall .aws ∅ s hr (by simp [hcalls, Phase.returned])
  rw [hcalls] at hperm
  -- in every order the key of the first call would be there
  have hlookup : (applyAll Op.apply ∅ ops).lookup "a" = some [1] := by
    refine lookup_applyAll ∅ (hperm.mem_iff.mpr (by simp)) fun op hop hkey => ?_
    have hop := hperm.mem_iff.mp hop
    simp only [List.map_cons, List.map_nil, List.mem_cons, List.not_mem_nil, or_false] at hop
    rcases hop with rfl | rfl
    · rfl
    · exact absurd hkey (by decide)
  rw [hcell] at hread
  rw [← Except.ok.inj hread] at hlookup
  exact absurd hlookup (by decide +kernel)

end SigningAgent.Store
