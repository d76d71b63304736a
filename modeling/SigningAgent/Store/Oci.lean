import SigningAgent.Store.Remote

/-!
# `OciStore` under failures (`internal/util/ocistore.go`)

Each external call may fail, which leaves the secret as it is. The helpers do not treat the
failures alike:

* `getSecret` returns the error of `GetSecretBundle`, but turns a failed `ListSecrets` or
  `Decrypt`, and a plaintext that is not base64, into an empty secret. `Set` then writes back a
  map with its own key only, and `Get` answers that the key is not there.
* `setSecret` takes every error of `getSecretId` to mean that there is no secret yet, and creates
  one. If there is one of that name already, `CreateSecret` fails.
* `waitForSecret` asks again until the secret is active, whatever it is told. The model asks
  `fuel` times; `none` is a `Set` that is still waiting.

Encryption and base64 are taken by whether they succeed: a secret is its decoded plaintext.

Results:
* **`set_safe_iff`** and **`get_safe_iff`**: when a `Set` keeps what is stored, and when `Get`
  answers "not found" only of a key that is not stored.
-/

namespace SigningAgent.Store

/-- The vault, as far as the configured secret goes: the OCID its name has there, and its
plaintext, where the inner `none` is one that is not base64. -/
structure OciVault where
  id : String
  id_ne : id ≠ ""
  secret : Option (Option Data)

/-- What `ListSecrets` tells `waitForSecret`. -/
inductive Poll where
  | failed
  | pending
  | active
  deriving DecidableEq, Repr

/-- Which external calls of one `Get` or `Set` fail, and what the polls bring. -/
structure Failures where
  /-- `ListSecrets` of `getSecret` -/
  listRead : Bool
  /-- `GetSecretBundle` -/
  bundle : Bool
  /-- `Decrypt` -/
  decrypt : Bool
  /-- `Encrypt` -/
  encrypt : Bool
  /-- `ListSecrets` of `setSecret` -/
  listWrite : Bool
  /-- `CreateSecret` or `UpdateSecret` -/
  write : Bool
  polls : Nat → Poll

/-- Every call succeeds. -/
def Failures.none : Failures := ⟨false, false, false, false, false, false, fun _ => .active⟩

namespace OciStore

/-- `getSecretId`, by `getSecretSummary`. -/
def getSecretId (listFails : Bool) (v : OciVault) : Except RemoteError String :=
  if listFails then .error .external
  else match v.secret with
  | none => .error .secretNotFound
  | some _ => .ok v.id

/-- `getSecret`; no bytes stand for `nil, nil`. -/
def getSecret (f : Failures) (v : OciVault) : Except RemoteError Data :=
  match getSecretId f.listRead v with
  | .error _ => .ok .empty
  | .ok _ =>
    if f.bundle then .error .external
    else if f.decrypt then .ok .empty
    else match v.secret.join with
    | none => .ok .empty
    | some data => .ok data

/-- `CreateSecret`: it fails if the name is taken. -/
def createSecret (f : Failures) (value : Data) (v : OciVault) : Except RemoteError OciVault :=
  if f.write || v.secret.isSome then .error .external
  else .ok { v with secret := some (some value) }

/-- `UpdateSecret`. -/
def updateSecret (f : Failures) (value : Data) (v : OciVault) : Except RemoteError OciVault :=
  if f.write then .error .external else .ok { v with secret := some (some value) }

/-- `waitForSecret`, which asks `fuel` times at most: is the secret active by then? -/
def waitForSecret (polls : Nat → Poll) : Nat → Bool
  | 0 => false
  | fuel + 1 =>
    match polls 0 with
    | .active => true
    | .failed | .pending => waitForSecret (fun n => polls (n + 1)) fuel

/-- `setSecret`: its result, if it returns, and the vault it leaves. -/
def setSecret (f : Failures) (fuel : Nat) (value : Data) (v : OciVault) :
    Option (Except RemoteError Unit) × OciVault :=
  if f.encrypt then (some (.error .external), v)
  else
    let written := match getSecretId f.listWrite v with
      | .error _ => createSecret f value v
      | .ok id => if id = "" then createSecret f value v else updateSecret f value v
    match written with
    | .error e => (some (.error e), v)
    | .ok v => (if waitForSecret f.polls fuel then some (.ok ()) else none, v)

/-- `Get`. -/
def get (f : Failures) (key : String) (v : OciVault) : Except RemoteError Bytes :=
  getKey (getSecret f) key v

/-- `Set`. -/
def set (f : Failures) (fuel : Nat) (key : String) (data : Bytes) (v : OciVault) :
    Option (Except RemoteError Unit) × OciVault :=
  match readConfig (getSecret f) v with
  | .error e => (some (.error e), v)
  | .ok cfg => setSecret f fuel (marshal ((Op.set key data).apply cfg)) v

/-! ## The secret holds a map -/

/-- A read failure is taken for an empty secret. -/
def Swallowed (f : Failures) : Prop := f.listRead = true ∨ f.bundle = false ∧ f.decrypt = true

/-- The read fails with an error. -/
def ReadFails (f : Failures) : Prop := f.listRead = false ∧ f.bundle = true

/-- Nothing is written: a call of `setSecret` fails before the write, or the write fails. -/
def WriteFails (f : Failures) : Prop := f.encrypt = true ∨ f.listWrite = true ∨ f.write = true

section

variable {f : Failures} {m : KVMap} {v : OciVault}

theorem readConfig_of_swallowed (h : Swallowed f) (hv : v.secret = some (some (.json m))) :
    readConfig (getSecret f) v = .ok ∅ := by
  unfold readConfig getSecret getSecretId
  rcases h with h | ⟨hb, hd⟩
  · simp [h]
  · cases hl : f.listRead <;> simp [hv, hb, hd]

theorem readConfig_of_readFails (h : ReadFails f) (hv : v.secret = some (some (.json m))) :
    readConfig (getSecret f) v = .error .external := by
  unfold readConfig getSecret getSecretId
  simp [hv, h.1, h.2]

theorem readConfig_of_ok (hs : ¬ Swallowed f) (hr : ¬ ReadFails f)
    (hv : v.secret = some (some (.json m))) : readConfig (getSecret f) v = .ok m := by
  unfold Swallowed at hs
  unfold ReadFails at hr
  unfold readConfig getSecret getSecretId
  cases hl : f.listRead <;> cases hb : f.bundle <;> cases hd : f.decrypt <;>
    simp_all [unmarshal]

/-- The three ways of a read. -/
theorem read_cases (f : Failures) :
    Swallowed f ∨ ReadFails f ∨ (¬ Swallowed f ∧ ¬ ReadFails f) := by
  by_cases hs : Swallowed f
  · exact Or.inl hs
  · by_cases hr : ReadFails f
    · exact Or.inr (Or.inl hr)
    · exact Or.inr (Or.inr ⟨hs, hr⟩)

theorem setSecret_of_writeFails (h : WriteFails f) (hv : v.secret = some (some (.json m)))
    (fuel : Nat) (value : Data) : setSecret f fuel value v = (some (.error .external), v) := by
  unfold setSecret getSecretId createSecret updateSecret
  cases he : f.encrypt
  · cases hl : f.listWrite
    · have hw : f.write = true := by simpa [WriteFails, he, hl] using h
      simp [hv, v.id_ne, hw]
    · simp [hv]
  · rfl

theorem setSecret_of_not_writeFails (h : ¬ WriteFails f) (hv : v.secret = some (some (.json m)))
    (fuel : Nat) (value : Data) : setSecret f fuel value v =
      (if waitForSecret f.polls fuel then some (.ok ()) else none,
        { v with secret := some (some value) }) := by
  unfold WriteFails at h
  simp only [not_or, Bool.not_eq_true] at h
  obtain ⟨he, hl, hw⟩ := h
  unfold setSecret getSecretId updateSecret
  simp [he, hl, hw, hv, v.id_ne]

/-- The wait ends exactly if some poll finds the secret active. -/
theorem exists_waitForSecret {polls : Nat → Poll} :
    (∃ fuel, waitForSecret polls fuel = true) ↔ ∃ n, polls n = .active := by
  have hwait : ∀ (fuel : Nat) (polls : Nat → Poll),
      waitForSecret polls fuel = true → ∃ n, polls n = .active := by
    intro fuel
    induction fuel with
    | zero =>
      intro polls h
      cases h
    | succ fuel ih =>
      intro polls h
      unfold waitForSecret at h
      split at h
      · rename_i h0
        exact ⟨0, h0⟩
      all_goals
        obtain ⟨n, hn⟩ := ih _ h
        exact ⟨n + 1, hn⟩
  have hactive : ∀ (n : Nat) (polls : Nat → Poll), polls n = .active →
      waitForSecret polls (n + 1) = true := by
    intro n
    induction n with
    | zero =>
      intro polls h
      unfold waitForSecret
      rw [h]
    | succ n ih =>
      intro polls h
      unfold waitForSecret
      split
      · rfl
      all_goals exact ih _ h
  constructor
  · rintro ⟨fuel, h⟩
    exact hwait fuel polls h
  · rintro ⟨n, h⟩
    exact ⟨n + 1, hactive n polls h⟩

/-- Setting a key in the empty map is setting it in `m` exactly if `m` has no other key. -/
theorem insert_empty_eq_iff {key : String} {data : Bytes} :
    (∅ : KVMap).insert key data = m.insert key data ↔ ∀ k ∈ m, k = key := by
  constructor
  · intro h k hk
    by_contra hne
    have hlookup := congrArg (Finmap.lookup k) h
    rw [Finmap.lookup_insert_of_ne _ hne, Finmap.lookup_insert_of_ne _ hne,
      Finmap.lookup_empty] at hlookup
    exact Finmap.lookup_eq_none.mp hlookup.symm hk
  · intro h
    refine Finmap.ext_lookup fun k => ?_
    by_cases hk : k = key
    · subst hk
      rw [Finmap.lookup_insert, Finmap.lookup_insert]
    · rw [Finmap.lookup_insert_of_ne _ hk, Finmap.lookup_insert_of_ne _ hk, Finmap.lookup_empty]
      exact (Finmap.lookup_eq_none.mpr fun hm => hk (h k hm)).symm

end

/-- A `Set` on a secret that holds `m` returns, with an error and the secret as it was, or with
nil and the key set in `m`. -/
def SetSafe (f : Failures) (m : KVMap) (key : String) (data : Bytes) (v : OciVault) : Prop :=
  ∃ fuel r v', set f fuel key data v = (some r, v') ∧
    ((∃ e, r = .error e) ∧ v' = v ∨
      r = .ok () ∧ v'.secret = some (some (.json (m.insert key data))))

/-- A `Get` on a secret that holds `m` answers "not found" only of a key that `m` has not. -/
def GetSafe (f : Failures) (m : KVMap) (key : String) (v : OciVault) : Prop :=
  get f key v = .error .kvNotFound → key ∉ m

section

variable {f : Failures} {m : KVMap} {v : OciVault}

/-- A `Set` that gets as far as writing is safe if the wait ends and nothing is lost. -/
theorem setSafe_of_written {cfg : KVMap} {key : String} {data : Bytes}
    (hv : v.secret = some (some (.json m))) (hread : readConfig (getSecret f) v = .ok cfg)
    (hw : ¬ WriteFails f) : SetSafe f m key data v ↔
      (∃ n, f.polls n = .active) ∧ cfg.insert key data = m.insert key data := by
  have hset : ∀ fuel, set f fuel key data v =
      (if waitForSecret f.polls fuel then some (.ok ()) else none,
        { v with secret := some (some (.json (cfg.insert key data))) }) := by
    intro fuel
    unfold set
    rw [hread]
    exact setSecret_of_not_writeFails hw hv fuel _
  constructor
  · rintro ⟨fuel, r, v', hrun, hor⟩
    rw [hset] at hrun
    by_cases hwait : waitForSecret f.polls fuel = true
    · rw [if_pos hwait] at hrun
      cases hrun
      refine ⟨exists_waitForSecret.mp ⟨fuel, hwait⟩, ?_⟩
      rcases hor with ⟨⟨e, he⟩, -⟩ | ⟨-, hsec⟩
      · cases he
      · simpa using hsec
    · rw [if_neg hwait] at hrun
      cases hrun
  · rintro ⟨hact, hins⟩
    obtain ⟨fuel, hwait⟩ := exists_waitForSecret.mpr hact
    refine ⟨fuel, .ok (), _, (hset fuel).trans (by rw [if_pos hwait]), Or.inr ⟨rfl, ?_⟩⟩
    rw [hins]

/-- A `Set` that does not write is safe: it returns an error. -/
theorem setSafe_of_not_written {key : String} {data : Bytes}
    (hv : v.secret = some (some (.json m))) (h : ReadFails f ∨ WriteFails f) :
    SetSafe f m key data v := by
  refine ⟨0, .error .external, v, ?_, Or.inl ⟨⟨_, rfl⟩, rfl⟩⟩
  unfold set
  by_cases hr : ReadFails f
  · rw [readConfig_of_readFails hr hv]
  · have hw := h.resolve_left hr
    by_cases hs : Swallowed f
    · rw [readConfig_of_swallowed hs hv]
      exact setSecret_of_writeFails hw hv 0 _
    · rw [readConfig_of_ok hs hr hv]
      exact setSecret_of_writeFails hw hv 0 _

/-- **When a `Set` keeps what is stored**: if it writes nothing; or if it ends and no read failure
was swallowed, or there was no other key to lose. -/
theorem set_safe_iff {key : String} {data : Bytes} (hv : v.secret = some (some (.json m))) :
    SetSafe f m key data v ↔ ReadFails f ∨ WriteFails f ∨
      (∃ n, f.polls n = .active) ∧ (¬ Swallowed f ∨ ∀ k ∈ m, k = key) := by
  by_cases hw : WriteFails f
  · exact iff_of_true (setSafe_of_not_written hv (Or.inr hw)) (Or.inr (Or.inl hw))
  · rcases read_cases f with hs | hr | ⟨hs, hr⟩
    · have hr : ¬ ReadFails f := by
        rintro ⟨hl, hb⟩
        simp [Swallowed, hl, hb] at hs
      rw [setSafe_of_written hv (readConfig_of_swallowed hs hv) hw, insert_empty_eq_iff]
      simp [hw, hr, hs]
    · exact iff_of_true (setSafe_of_not_written hv (Or.inl hr)) (Or.inl hr)
    · rw [setSafe_of_written hv (readConfig_of_ok hs hr hv) hw]
      simp [hw, hr, hs]

/-- **When "not found" is true**: if no read failure was swallowed, or the key is not stored. -/
theorem get_safe_iff {key : String} (hv : v.secret = some (some (.json m))) :
    GetSafe f m key v ↔ ¬ Swallowed f ∨ key ∉ m := by
  unfold GetSafe get getKey
  rcases read_cases f with hs | hr | ⟨hs, hr⟩
  · rw [readConfig_of_swallowed hs hv]
    simp [hs]
  · have hs : ¬ Swallowed f := by
      rintro (hl | ⟨hb, -⟩)
      · simp [hr.1] at hl
      · simp [hr.2] at hb
    rw [readConfig_of_readFails hr hv]
    simp [hs]
  · rw [readConfig_of_ok hs hr hv]
    simp only [hs, not_false_eq_true, true_or, iff_true]
    cases hk : m.lookup key with
    | none => exact fun _ => Finmap.lookup_eq_none.mp hk
    | some val =>
      intro h
      cases h

/-- **Failures and stored keys.** On a secret that holds a map, both at once. -/
theorem oci_safe_iff {key : String} {data : Bytes} (hv : v.secret = some (some (.json m))) :
    (SetSafe f m key data v ↔ ReadFails f ∨ WriteFails f ∨
      (∃ n, f.polls n = .active) ∧ (¬ Swallowed f ∨ ∀ k ∈ m, k = key)) ∧
    (GetSafe f m key v ↔ ¬ Swallowed f ∨ key ∉ m) :=
  ⟨set_safe_iff hv, get_safe_iff hv⟩

end

/-! ## Samples -/

/-- A secret that holds one key. -/
def sampleMap : KVMap := (∅ : KVMap).insert "a" [1]

def sampleVault : OciVault := ⟨"ocid1.vaultsecret", by decide, some (some (.json sampleMap))⟩

/-- `oci_safe_iff` where the second `ListSecrets` fails: `Set` returns an error. -/
theorem oci_safe_iff_sample :
    SetSafe { Failures.none with listWrite := true } sampleMap "b" [2] sampleVault ∧
      GetSafe { Failures.none with listWrite := true } sampleMap "a" sampleVault := by
  have h := @oci_safe_iff { Failures.none with listWrite := true } sampleMap sampleVault
  have hs : ¬ Swallowed { Failures.none with listWrite := true } := by
    simp [Swallowed, Failures.none]
  exact ⟨(@h "b" [2] rfl).1.mpr (Or.inr (Or.inl (Or.inr (Or.inl rfl)))),
    (@h "a" [] rfl).2.mpr (Or.inl hs)⟩

/-- **A failed read destroys the other keys.** The `ListSecrets` of the read fails and everything
else succeeds: `Set` of `"b"` returns nil, and `"a"` is gone. -/
theorem oci_set_loses_key :
    ¬ ∀ f m key data v, v.secret = some (some (.json m)) →
      SetSafe f m key data v ∧ GetSafe f m key v := by
  intro h
  have hsafe := (h { Failures.none with listRead := true } sampleMap "b" [2] sampleVault rfl).1
  rcases (set_safe_iff rfl).mp hsafe with ⟨hr, -⟩ | hw | ⟨-, hs | hm⟩
  · cases hr
  · rcases hw with hw | hw | hw <;> cases hw
  · exact hs (Or.inl rfl)
  · exact absurd (hm "a" (by decide)) (by decide)

end OciStore

/-- `OciStore` when its calls succeed; the secret is active at the first poll. -/
def ociStore : RemoteStore OciVault where
  getSecret := OciStore.getSecret Failures.none
  setSecret data v :=
    match OciStore.setSecret Failures.none 1 data v with
    | (some (.ok ()), v) => .ok v
    | (some (.error e), _) => .error e
    | (none, _) => .error .external
  get_set data v := by
    refine ⟨{ v with secret := some (some data) }, ?_, ?_⟩
    · cases hv : v.secret <;>
        simp [OciStore.setSecret, OciStore.getSecretId, OciStore.createSecret,
          OciStore.updateSecret, OciStore.waitForSecret, Failures.none, hv, v.id_ne]
    · simp [OciStore.getSecret, OciStore.getSecretId, Failures.none]

end SigningAgent.Store
